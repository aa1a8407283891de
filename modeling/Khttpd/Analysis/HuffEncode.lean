import Khttpd.Analysis.Huffman
import Khttpd.Model.HpackTable
import Khttpd.Model.HuffEncode

/-!
# The Huffman encoder

`buf` holds the bits that are pending in its high places, so a full word is the next 64 bits of the
code. `kgl_http_v2_huff_encode_buf` is given its low half only. So the encoder is right where it
stores no word, or where what is stored happens to be the word; the length that it returns is right
in any case.
-/

set_option autoImplicit false

namespace Khttpd

open PrefixCode

/-! ## The tables -/

/-- A row of `kgl_http_v2_huff_encode_table_lc` is the row of the character in lower case. -/
def huffLcRowOk (ch : ℕ) : Bool :=
  tableRow huffEncodeLcRows ch ⟨0, 0⟩ == huffEncodeRow (toLower (UInt8.ofNat ch)).toNat

theorem huffLcRows_ok : (List.range 256).all huffLcRowOk = true := by
  decide +kernel

theorem kglHttpV2HuffEncodeTableLc_eq (ch : Byte) :
    kglHttpV2HuffEncodeTableLc ch = kglHttpV2HuffEncodeTable (toLower ch) := by
  have h := List.all_eq_true.mp huffLcRows_ok ch.toNat (List.mem_range.mpr ch.toNat_lt)
  rw [huffLcRowOk, UInt8.ofNat_toNat] at h
  exact eq_of_beq h

/-- A code that fits its length, of at most thirty bits. -/
structure HuffEncodeCode.Fits (c : HuffEncodeCode) : Prop where
  pos : 5 ≤ c.len
  len : c.len ≤ 30
  code : c.code < 2 ^ c.len

theorem huffTable_fits (lower : Bool) (ch : Byte) : (huffTable lower ch).Fits := by
  have hrow : ∀ ch, (kglHttpV2HuffEncodeTable ch).Fits := by
    intro ch
    have h := huffCode_ok ch
    simp only [huffCodeOk, Bool.and_eq_true, Nat.ble_eq] at h
    exact ⟨h.1.1, h.1.2, by unfold kglHttpV2HuffEncodeTable; omega⟩
  cases lower with
  | false => exact hrow ch
  | true =>
    have hlower : huffTable true ch = kglHttpV2HuffEncodeTable (toLower ch) :=
      kglHttpV2HuffEncodeTableLc_eq ch
    rw [hlower]
    exact hrow (toLower ch)

/-- Encoding with `lower` encodes the string in lower case. -/
theorem huffBits_lower (s : Bytes) : huffBits true s = huffBits false (s.map toLower) := by
  have hcode : ∀ ch, (huffTable true ch).bits = (huffTable false (toLower ch)).bits := fun ch =>
    congrArg HuffEncodeCode.bits (kglHttpV2HuffEncodeTableLc_eq ch)
  rw [huffBits, huffBits, List.flatMap_map]
  exact List.flatMap_congr fun ch _ => hcode ch

/-! ## Bits in a machine word -/

/-- The word holds these bits in its high places. -/
def HoldsBits (buf : UInt64) (x : List Bool) : Prop := buf.toNat = value x * 2 ^ (64 - x.length)

theorem toNat_shiftLeft_ofNat (code : UInt64) {k : ℕ} (hk : k < 64) :
    (code <<< UInt64.ofNat k).toNat = code.toNat * 2 ^ k % 2 ^ 64 := by
  rw [UInt64.toNat_shiftLeft, UInt64.toNat_ofNat', Nat.shiftLeft_eq]
  congr 3
  omega

theorem toNat_shiftRight_ofNat (code : UInt64) {k : ℕ} (hk : k < 64) :
    (code >>> UInt64.ofNat k).toNat = code.toNat / 2 ^ k := by
  rw [UInt64.toNat_shiftRight, UInt64.toNat_ofNat', Nat.shiftRight_eq_div_pow]
  congr 2
  omega

/-- Low bits are added to a word that has none there. -/
theorem HoldsBits.toNat_or {buf low : UInt64} {x : List Bool} (h : HoldsBits buf x)
    (hlow : low.toNat < 2 ^ (64 - x.length)) :
    (buf ||| low).toNat = value x * 2 ^ (64 - x.length) + low.toNat := by
  rw [UInt64.toNat_or, h, Nat.mul_comm, Nat.two_pow_add_eq_or_of_lt hlow]

/-- More bits, as long as there is room for them. -/
theorem HoldsBits.append {buf code : UInt64} {x y : List Bool} (h : HoldsBits buf x)
    (hcode : code.toNat = value y) (hroom : x.length + y.length < 64)
    (hpos : 0 < x.length + y.length) :
    HoldsBits (buf ||| code <<< UInt64.ofNat (64 - (x.length + y.length))) (x ++ y) := by
  have hsplit : 2 ^ (64 - x.length) = 2 ^ y.length * 2 ^ (64 - (x.length + y.length)) := by
    rw [← Nat.pow_add]
    congr 1
    omega
  have hshift : (code <<< UInt64.ofNat (64 - (x.length + y.length))).toNat =
      value y * 2 ^ (64 - (x.length + y.length)) := by
    have hlt : value y * 2 ^ (64 - (x.length + y.length)) < 2 ^ 64 := by
      calc value y * 2 ^ (64 - (x.length + y.length))
          < 2 ^ y.length * 2 ^ (64 - (x.length + y.length)) :=
            Nat.mul_lt_mul_of_pos_right (value_lt y) (Nat.two_pow_pos _)
        _ = 2 ^ (64 - x.length) := hsplit.symm
        _ ≤ 2 ^ 64 := Nat.pow_le_pow_right (by omega) (by omega)
    rw [toNat_shiftLeft_ofNat code (by omega), hcode, Nat.mod_eq_of_lt hlt]
  have hlow : (code <<< UInt64.ofNat (64 - (x.length + y.length))).toNat < 2 ^ (64 - x.length) := by
    rw [hshift, hsplit]
    exact Nat.mul_lt_mul_of_pos_right (value_lt y) (Nat.two_pow_pos _)
  rw [HoldsBits, h.toNat_or hlow, hshift, hsplit, value_append, List.length_append, Nat.add_mul,
    Nat.mul_assoc]

/-- A code that does not fit: the word is filled with its high bits. -/
theorem HoldsBits.fill {buf code : UInt64} {x : List Bool} {p n : ℕ} (h : HoldsBits buf x)
    (hx : x.length < 64) (hp : p < 64) (hcode : code.toNat = n)
    (hn : n < 2 ^ (64 - x.length + p)) :
    bits 64 (buf ||| code >>> UInt64.ofNat p).toNat = x ++ bits (64 - x.length) (n / 2 ^ p) := by
  have hhigh : n / 2 ^ p < 2 ^ (64 - x.length) := by
    rw [Nat.div_lt_iff_lt_mul (Nat.two_pow_pos p), ← Nat.pow_add]
    exact hn
  have hshift : (code >>> UInt64.ofNat p).toNat = n / 2 ^ p := by
    rw [toNat_shiftRight_ofNat code hp, hcode]
  have hlength : 64 = x.length + (64 - x.length) := by omega
  rw [h.toNat_or (hshift ▸ hhigh), hshift]
  conv_lhs => rw [hlength]
  simp only [Nat.add_sub_cancel_left]
  exact bits_mul_add x (64 - x.length) hhigh

/-- Its low bits are what is pending then. -/
theorem holdsBits_rest {code : UInt64} {p n : ℕ} (hp : p < 64) (hcode : code.toNat = n) :
    HoldsBits (if p ≠ 0 then code <<< UInt64.ofNat (64 - p) else 0) (bits p n) := by
  rw [HoldsBits, value_bits, length_bits]
  by_cases hzero : p = 0
  · rw [if_neg (not_not.mpr hzero), hzero, Nat.pow_zero, Nat.mod_one, Nat.zero_mul]
    rfl
  · rw [if_pos hzero, toNat_shiftLeft_ofNat code (by omega), hcode]
    have hpow : 2 ^ 64 = 2 ^ p * 2 ^ (64 - p) := by
      rw [← Nat.pow_add]
      congr 1
      omega
    rw [hpow, Nat.mul_mod_mul_right]

/-! ## Memory -/

/-- Bytes that are stored side by side. -/
theorem storeAt_storeAt (dst : ℕ → Byte) (pos : ℕ) (x y : Bytes) :
    storeAt (storeAt dst pos x) (pos + x.length) y = storeAt dst pos (x ++ y) := by
  funext i
  unfold storeAt
  by_cases hpos : pos ≤ i
  · by_cases hx : pos + x.length ≤ i
    · have hnone : x[i - pos]? = none := List.getElem?_eq_none (by omega)
      rw [if_pos hx, if_pos hpos, if_pos hpos, List.getElem?_append_right (by omega), hnone,
        Option.getD_none, Nat.sub_sub]
    · rw [if_neg hx, if_pos hpos, if_pos hpos, List.getElem?_append_left (by omega)]
  · rw [if_neg (by omega), if_neg hpos, if_neg hpos]

theorem storeAt_nil (dst : ℕ → Byte) (pos : ℕ) : storeAt dst pos [] = dst := by
  funext i
  simp [storeAt]

theorem map_storeAt_before (dst : ℕ → Byte) (pos : ℕ) (x : Bytes) :
    (List.range pos).map (storeAt dst pos x) = (List.range pos).map dst := by
  refine List.map_congr_left fun i hi => ?_
  rw [storeAt, if_neg (by simpa using hi)]

/-- What is stored, and what is behind it. -/
theorem map_storeAt (dst : ℕ → Byte) (pos : ℕ) (x : Bytes) (n : ℕ) :
    (List.range' pos (x.length + n)).map (storeAt dst pos x) =
      x ++ (List.range' (pos + x.length) n).map dst := by
  apply List.ext_getElem
  · simp
  · intro i h1 h2
    simp only [List.getElem_map, List.getElem_range', Nat.one_mul]
    rw [storeAt, if_pos (Nat.le_add_right pos i), Nat.add_sub_cancel_left]
    by_cases hi : i < x.length
    · rw [List.getElem?_eq_getElem hi, Option.getD_some, List.getElem_append_left hi]
    · rw [List.getElem?_eq_none (not_lt.mp hi), Option.getD_none,
        List.getElem_append_right (not_lt.mp hi)]
      simp only [List.getElem_map, List.getElem_range', Nat.one_mul]
      congr 1
      omega

/-- The bytes of bits, number by number. -/
theorem packBits_bits_succ (k n : ℕ) :
    packBits (bits (8 * (k + 1)) n) = UInt8.ofNat (n / 2 ^ (8 * k)) :: packBits (bits (8 * k) n) := by
  have hbyte : ∀ (m : ℕ) (x : List Bool),
      packBits (bits 8 m ++ x) = UInt8.ofNat m :: packBits x := by
    intro m x
    have hvalue : value (bits 8 m) = m % 2 ^ 8 := value_bits 8 m
    show UInt8.ofNat (value (bits 8 m)) :: packBits x = _
    rw [hvalue]
    congr 1
    rw [← UInt8.toNat_inj, UInt8.toNat_ofNat', UInt8.toNat_ofNat', Nat.mod_mod]
  have hsplit : 8 * (k + 1) = 8 + 8 * k := by omega
  rw [hsplit, bits_split, hbyte]

/-- Bits that fill no byte. -/
theorem packBits_short {x : List Bool} (hx : x.length < 8) : packBits x = [] := by
  rcases x with
    _ | ⟨b₇, _ | ⟨b₆, _ | ⟨b₅, _ | ⟨b₄, _ | ⟨b₃, _ | ⟨b₂, _ | ⟨b₁, _ | ⟨b₀, x⟩⟩⟩⟩⟩⟩⟩⟩
  case cons.cons.cons.cons.cons.cons.cons.cons =>
    simp only [List.length_cons] at hx
    omega
  all_goals rfl

/-- Bits that fill their bytes, and what follows. -/
theorem packBits_append {x y : List Bool} {k : ℕ} (hx : x.length = 8 * k) :
    packBits (x ++ y) = packBits x ++ packBits y ∧ (packBits x).length = k := by
  induction k generalizing x with
  | zero =>
    rw [List.length_eq_zero_iff.mp hx]
    exact ⟨rfl, rfl⟩
  | succ k ih =>
    rcases x with
      _ | ⟨b₇, _ | ⟨b₆, _ | ⟨b₅, _ | ⟨b₄, _ | ⟨b₃, _ | ⟨b₂, _ | ⟨b₁, _ | ⟨b₀, x⟩⟩⟩⟩⟩⟩⟩⟩
    case cons.cons.cons.cons.cons.cons.cons.cons =>
      have hrest : x.length = 8 * k := by
        simp only [List.length_cons] at hx
        omega
      obtain ⟨happend, hlength⟩ := ih hrest
      simp only [List.cons_append, packBits, happend, List.length_cons, hlength, and_self]
    all_goals
      simp only [List.length_cons, List.length_nil] at hx
      omega

/-! ## A round of the loop -/

/-- The bits of full words. -/
def wordsBits (words : List UInt64) : List Bool := words.flatMap fun w => bits 64 w.toNat

theorem length_wordsBits (words : List UInt64) : (wordsBits words).length = 64 * words.length := by
  induction words with
  | nil => rfl
  | cons w words ih =>
    rw [wordsBits, List.flatMap_cons, List.length_append, length_bits, ← wordsBits, ih,
      List.length_cons]
    omega

theorem wordsBits_concat (words : List UInt64) (w : UInt64) :
    wordsBits (words ++ [w]) = wordsBits words ++ bits 64 w.toNat := by
  simp [wordsBits]

/-- The memory behind the stores of full words. -/
def storeWords (store : HuffEncodeBuf) (dst : ℕ → Byte) (words : List UInt64) : ℕ → Byte :=
  words.zipIdx.foldl (fun dst w => storeAt dst (8 * w.2) ((store.store w.1.toUInt32).getD [])) dst

theorem storeWords_concat (store : HuffEncodeBuf) (dst : ℕ → Byte) (words : List UInt64)
    (w : UInt64) : storeWords store dst (words ++ [w]) =
      storeAt (storeWords store dst words) (8 * words.length)
        ((store.store w.toUInt32).getD []) := by
  rw [storeWords, List.zipIdx_append, List.foldl_append]
  simp [storeWords]

/-- The loop has stored `words` and holds `rest`, for a string of `len` bytes. -/
structure Packed (store : HuffEncodeBuf) (dst : ℕ → Byte) (len : ℕ) (words : List UInt64)
    (rest : List Bool) (r : HuffEncodeRun) : Prop where
  hlen : r.hlen = 8 * words.length
  pending : r.pending = rest.length
  short : rest.length < 64
  buf : HoldsBits r.buf rest
  dst : r.dst = storeWords store dst words
  room : words ≠ [] → 8 * words.length < len
  defined : words ≠ [] → store ≠ .bytes

section Round

variable {store : HuffEncodeBuf} {dst : ℕ → Byte} {len : ℕ} {words : List UInt64}
  {rest : List Bool} {r : HuffEncodeRun} {c : HuffEncodeCode}

theorem HuffEncodeCode.length_bits (c : HuffEncodeCode) : c.bits.length = c.len :=
  PrefixCode.length_bits c.len c.code

theorem HuffEncodeCode.Fits.toNat (hc : c.Fits) : (UInt64.ofNat c.code).toNat = c.code := by
  have hlt : c.code < 2 ^ 64 :=
    hc.code.trans_le (Nat.pow_le_pow_right (by omega) (hc.len.trans (by omega)))
  rw [UInt64.toNat_ofNat', Nat.mod_eq_of_lt hlt]

/-- A code that leaves room in the word is pending. -/
theorem Packed.pend (h : Packed store dst len words rest r) (hc : c.Fits)
    (hroom : rest.length + c.len < 64) : ∃ r', huffEncodeByte store len c r = .next r' ∧
      Packed store dst len words (rest ++ c.bits) r' := by
  have hlength := HuffEncodeCode.length_bits c
  have hpos := hc.pos
  have hvalue : (UInt64.ofNat c.code).toNat = value c.bits := by
    rw [hc.toNat, HuffEncodeCode.bits, value_bits, Nat.mod_eq_of_lt hc.code]
  have hbuf := h.buf.append hvalue (by rwa [hlength]) (by omega)
  rw [hlength] at hbuf
  refine ⟨{ r with pending := r.pending + c.len, buf := _ }, ?_, h.hlen, ?_, ?_, hbuf, h.dst, h.room,
    h.defined⟩
  · unfold huffEncodeByte
    simp only [h.pending]
    rw [if_pos hroom]
  · rw [List.length_append, hlength, h.pending]
  · rwa [List.length_append, hlength]

/-- A word that there is no room for ends the run. -/
theorem Packed.full (h : Packed store dst len words rest r) (hfull : 64 ≤ rest.length + c.len)
    (hlen : len ≤ 8 * (words.length + 1)) : huffEncodeByte store len c r = .return 0 r.dst := by
  unfold huffEncodeByte
  simp only [h.pending, h.hlen]
  rw [if_neg (not_lt.mpr hfull), if_pos (by omega)]

/-- Any other word is given to the store. -/
theorem Packed.flush (h : Packed store dst len words rest r) (hc : c.Fits)
    (hfull : 64 ≤ rest.length + c.len) (hroom : 8 * (words.length + 1) < len) :
    (store = .bytes ∧ words = [] ∧ huffEncodeByte store len c r = .undefined) ∨
      ∃ w rest' r', rest ++ c.bits = bits 64 w.toNat ++ rest' ∧
        huffEncodeByte store len c r = .next r' ∧
          Packed store dst len (words ++ [w]) rest' r' := by
  have hshort := h.short
  have hlen := hc.len
  obtain ⟨p, hp⟩ : ∃ p, p = rest.length + c.len - 64 := ⟨_, rfl⟩
  have hsplit : c.len = 64 - rest.length + p := by omega
  have hfill := h.buf.fill hshort (show p < 64 by omega) hc.toNat (hsplit ▸ hc.code)
  have hrest := holdsBits_rest (show p < 64 by omega) hc.toNat
  have hbits : c.bits = bits (64 - rest.length) (c.code / 2 ^ p) ++ bits p c.code := by
    rw [HuffEncodeCode.bits, hsplit, bits_split]
  cases hstore : store.store (r.buf ||| UInt64.ofNat c.code >>> UInt64.ofNat p).toUInt32 with
  | none =>
    have hbytes : store = .bytes := by
      cases store <;> first | rfl | cases hstore
    refine .inl ⟨hbytes, ?_, ?_⟩
    · by_contra hne
      exact h.defined hne hbytes
    · unfold huffEncodeByte
      simp only [h.pending, h.hlen]
      rw [if_neg (not_lt.mpr hfull), if_neg (by omega), ← hp, hstore]
  | some bytes =>
    have hdefined : store ≠ .bytes := by
      rintro rfl
      cases hstore
    refine .inr ⟨r.buf ||| UInt64.ofNat c.code >>> UInt64.ofNat p, bits p c.code,
      { hlen := r.hlen + 8
        buf := if p ≠ 0 then UInt64.ofNat c.code <<< UInt64.ofNat (64 - p) else 0
        pending := p
        dst := storeAt r.dst r.hlen bytes }, ?_, ?_, ?_⟩
    · rw [hfill, hbits, List.append_assoc]
    · unfold huffEncodeByte
      simp only [h.pending, h.hlen]
      rw [if_neg (not_lt.mpr hfull), if_neg (by omega), ← hp, hstore]
    · constructor
      · simp only [h.hlen, List.length_append, List.length_singleton]
        omega
      · rw [length_bits]
      · rw [length_bits]
        omega
      · exact hrest
      · rw [storeWords_concat, hstore, h.dst, h.hlen]
        rfl
      · intro _
        simpa using hroom
      · exact fun _ => hdefined

end Round

/-! ## A run of the loop -/

theorem huffBits_cons (lower : Bool) (ch : Byte) (src : Bytes) :
    huffBits lower (ch :: src) = (huffTable lower ch).bits ++ huffBits lower src :=
  List.flatMap_cons

/-- A run of the loop ends at an undefined store, where a word finds no room, or behind the string
with all of its code stored or pending. -/
theorem huffEncodeLoop_spec {store : HuffEncodeBuf} {dst : ℕ → Byte} {len : ℕ}
    (kglAlign : ℕ → ℕ → ℕ) (lower : Bool) (src : Bytes) {words : List UInt64} {rest : List Bool}
    {r : HuffEncodeRun} (h : Packed store dst len words rest r) {text : List Bool}
    (htext : text = wordsBits words ++ (rest ++ huffBits lower src)) :
    (store = .bytes ∧ 8 < len ∧ 64 ≤ text.length ∧
      huffEncodeLoop store kglAlign (huffTable lower) len src r = none) ∨
    (∃ k d, 1 ≤ k ∧ 64 * k ≤ text.length ∧ len ≤ 8 * k ∧ (store = .bytes → k = 1) ∧
      huffEncodeLoop store kglAlign (huffTable lower) len src r = some (0, d)) ∨
    ∃ words' rest' r', Packed store dst len words' rest' r' ∧ text = wordsBits words' ++ rest' ∧
      huffEncodeLoop store kglAlign (huffTable lower) len src r =
        some (huffEncodeEnd kglAlign len r') := by
  induction src generalizing words rest r with
  | nil =>
    refine .inr (.inr ⟨words, rest, r, h, ?_, rfl⟩)
    rw [htext, huffBits, List.flatMap_nil, List.append_nil]
  | cons ch src ih =>
    have hc := huffTable_fits lower ch
    have hbits := HuffEncodeCode.length_bits (huffTable lower ch)
    rw [huffBits_cons] at htext
    unfold huffEncodeLoop
    by_cases hroom : rest.length + (huffTable lower ch).len < 64
    · obtain ⟨r', hround, hnext⟩ := h.pend hc hroom
      rw [hround]
      exact ih hnext (by rw [htext, List.append_assoc])
    have hfull := not_lt.mp hroom
    have hlength : 64 * (words.length + 1) ≤ text.length := by
      rw [htext]
      simp only [List.length_append, length_wordsBits, hbits]
      omega
    by_cases hlen : len ≤ 8 * (words.length + 1)
    · rw [h.full hfull hlen]
      refine .inr (.inl ⟨words.length + 1, r.dst, by omega, hlength, hlen, fun hbytes => ?_, rfl⟩)
      have hnil : words = [] := by
        by_contra hne
        exact h.defined hne hbytes
      rw [hnil]
      rfl
    · rcases h.flush hc hfull (not_le.mp hlen) with
        ⟨hbytes, hnil, hround⟩ | ⟨w, rest', r', hsplit, hround, hnext⟩
      · rw [hround]
        rw [hnil] at hlen hlength
        exact .inl ⟨hbytes, not_le.mp hlen, hlength, rfl⟩
      · rw [hround]
        refine ih hnext ?_
        rw [htext, wordsBits_concat, ← List.append_assoc rest, hsplit, List.append_assoc,
          List.append_assoc]

/-! ## The end of a run -/

theorem toUInt8_shiftRight (buf : UInt64) {k : ℕ} (hk : k < 64) :
    (buf >>> UInt64.ofNat k).toUInt8 = UInt8.ofNat (buf.toNat / 2 ^ k) := by
  rw [← UInt8.toNat_inj, UInt64.toNat_toUInt8, toNat_shiftRight_ofNat buf hk, UInt8.toNat_ofNat']

/-- The last bytes are those of the low bits of `buf`. -/
theorem huffEncodeTail_spec (buf : UInt64) (k hlen : ℕ) (dst : ℕ → Byte) (hk : k < 8) :
    huffEncodeTail buf (k + 1) (8 * (k + 1)) hlen dst =
      (hlen + (k + 1), storeAt dst hlen (packBits (bits (8 * (k + 1)) buf.toNat))) := by
  induction k generalizing hlen dst with
  | zero =>
    rw [packBits_bits_succ, ← toUInt8_shiftRight buf (by omega)]
    rfl
  | succ k ih =>
    have hpending : 8 * (k + 1 + 1) - 8 = 8 * (k + 1) := by omega
    unfold huffEncodeTail
    simp only [hpending]
    rw [if_pos (by omega), ih (hlen + 1) _ (by omega), packBits_bits_succ (k + 1),
      ← toUInt8_shiftRight buf (by omega)]
    refine Prod.ext ?_ ?_
    · show hlen + 1 + (k + 1) = hlen + (k + 1 + 1)
      omega
    · exact storeAt_storeAt dst hlen [_] _

/-- A word of ones, shifted. -/
theorem toNat_ones_shiftRight {p : ℕ} (hp : p < 64) :
    ((-1 : UInt64) >>> UInt64.ofNat p).toNat = 2 ^ (64 - p) - 1 := by
  have hones : (-1 : UInt64).toNat = 2 ^ 64 - 1 := rfl
  have hsplit : 2 ^ (64 - p) * 2 ^ p = 2 ^ 64 := by
    rw [← Nat.pow_add]
    congr 1
    omega
  have hpos := Nat.two_pow_pos p
  have hpos' := Nat.two_pow_pos (64 - p)
  rw [toNat_shiftRight_ofNat _ hp, hones]
  apply Nat.div_eq_of_lt_le
  · rw [Nat.sub_mul, hsplit]
    omega
  · rw [Nat.sub_add_cancel hpos', hsplit]
    omega

/-- What is pending, padded with ones to `k` bytes. -/
theorem HoldsBits.pad {buf : UInt64} {x : List Bool} (h : HoldsBits buf x) {k : ℕ}
    (hx : x.length ≤ 8 * k) (hk : 8 * k ≤ 64) (hpos : 0 < k) (hshort : x.length < 64) :
    bits (8 * k) ((buf ||| (-1) >>> UInt64.ofNat x.length) >>> UInt64.ofNat (64 - 8 * k)).toNat =
      x ++ List.replicate (8 * k - x.length) true := by
  have hones := toNat_ones_shiftRight hshort
  have hpow := Nat.two_pow_pos (64 - x.length)
  have hword : bits 64 (buf ||| (-1) >>> UInt64.ofNat x.length).toNat =
      x ++ List.replicate (64 - x.length) true := by
    have hlength : 64 = x.length + (64 - x.length) := by omega
    rw [h.toNat_or (by omega), hones]
    conv_lhs => rw [hlength]
    simp only [Nat.add_sub_cancel_left]
    rw [bits_mul_add x _ (by omega), bits_ones]
  have hsplit := bits_split (8 * k) (64 - 8 * k) (buf ||| (-1) >>> UInt64.ofNat x.length).toNat
  rw [Nat.add_sub_cancel' hk, hword] at hsplit
  rw [toNat_shiftRight_ofNat _ (by omega)]
  have htake := congrArg (List.take (8 * k)) hsplit
  rw [List.take_left' (length_bits _ _), List.take_append, List.take_of_length_le hx,
    List.take_replicate] at htake
  rw [← htake]
  congr 2
  omega

/-- What follows the loop stores what is pending, padded with ones, where there is room. -/
theorem huffEncodeEnd_spec {store : HuffEncodeBuf} {dst : ℕ → Byte} {len : ℕ} {words : List UInt64}
    {rest : List Bool} {r : HuffEncodeRun} {kglAlign : ℕ → ℕ → ℕ}
    (halign : ∀ d, kglAlign d 8 = (d + 7) / 8 * 8) (h : Packed store dst len words rest r) :
    huffEncodeEnd kglAlign len r =
      if rest ≠ [] ∧ len ≤ 8 * words.length + (rest.length + 7) / 8 then
        (0, storeWords store dst words)
      else (8 * words.length + (rest.length + 7) / 8,
        storeAt (storeWords store dst words) (8 * words.length)
          (packBits (rest ++ huffPadding rest.length))) := by
  unfold huffEncodeEnd
  by_cases hrest : rest = []
  · have hpending : r.pending = 0 := by
      rw [h.pending, hrest]
      rfl
    have hpad : packBits (rest ++ huffPadding rest.length) = [] := by
      rw [hrest]
      rfl
    rw [if_pos hpending, if_neg fun hne => hne.1 hrest, hpad, storeAt_nil, h.hlen, h.dst, hrest]
    rfl
  have hpos : 0 < rest.length := List.length_pos_iff.mpr hrest
  have hshort := h.short
  obtain ⟨k, hk⟩ : ∃ k, k + 1 = (rest.length + 7) / 8 := ⟨(rest.length + 7) / 8 - 1, by omega⟩
  have hpad : huffPadding rest.length = List.replicate (8 * (k + 1) - rest.length) true := by
    unfold huffPadding
    congr 1
    omega
  have hpending : r.pending ≠ 0 := by
    rw [h.pending]
    omega
  rw [if_neg hpending]
  dsimp only
  rw [halign, h.pending, ← hk, Nat.mul_div_cancel _ (by omega), h.hlen, h.dst, Nat.mul_comm (k + 1) 8]
  by_cases hroom : len ≤ 8 * words.length + (k + 1)
  · rw [if_pos hroom, if_pos ⟨hrest, hroom⟩]
  · rw [if_neg hroom, if_neg fun hfull => hroom hfull.2, huffEncodeTail_spec _ _ _ _ (by omega),
      h.buf.pad (by omega) (by omega) (by omega) hshort, hpad]

/-! ## What is stored -/

/-- The bytes of a full word. -/
def wordCode (w : UInt64) : Bytes := packBits (bits 64 w.toNat)

theorem toUInt8_toUInt32 (w : UInt64) {k : ℕ} (hk : k ≤ 24) :
    (w.toUInt32 >>> UInt32.ofNat k).toUInt8 = UInt8.ofNat (w.toNat / 2 ^ k) := by
  have hsplit : 2 ^ 32 = 2 ^ k * 2 ^ (32 - k) := by
    rw [← Nat.pow_add]
    congr 1
    omega
  have hshift : (UInt32.ofNat k).toNat % 32 = k := by
    rw [UInt32.toNat_ofNat']
    omega
  rw [← UInt8.toNat_inj, UInt32.toNat_toUInt8, UInt32.toNat_shiftRight, hshift,
    UInt64.toNat_toUInt32, UInt8.toNat_ofNat', Nat.shiftRight_eq_div_pow, hsplit,
    Nat.mod_mul_right_div_self]
  exact Nat.mod_mod_of_dvd _ (Nat.pow_dvd_pow 2 (by omega))

/-- What is stored of a word are the bytes of its low half. -/
theorem wordBytes_eq (w : UInt64) : wordBytes w.toUInt32 = packBits (bits 32 w.toNat) := by
  have h24 := toUInt8_toUInt32 w (k := 24) (by omega)
  have h16 := toUInt8_toUInt32 w (k := 16) (by omega)
  have h8 := toUInt8_toUInt32 w (k := 8) (by omega)
  have h0 := toUInt8_toUInt32 w (k := 0) (by omega)
  rw [packBits_bits_succ 3, packBits_bits_succ 2, packBits_bits_succ 1, packBits_bits_succ 0,
    ← h24, ← h16, ← h8, ← h0]
  have hself : w.toUInt32 >>> UInt32.ofNat 0 = w.toUInt32 := by simp
  rw [hself]
  rfl

/-- A full word is its high half and its low half, which is what the store is given. -/
theorem wordCode_eq (w : UInt64) : ∃ high : Bytes, high.length = 4 ∧
    (wordBytes w.toUInt32).length = 4 ∧ wordCode w = high ++ wordBytes w.toUInt32 := by
  refine ⟨packBits (bits 32 (w.toNat / 2 ^ 32)), ?_, rfl, ?_⟩
  · exact (packBits_append (k := 4) (y := []) (length_bits _ _)).2
  · rw [wordBytes_eq, wordCode, bits_split 32 32, (packBits_append (k := 4) (length_bits _ _)).1]

/-- Where a store is right: the high half of the word is zero, or it is equal to the low half and the
low half is there already. -/
def HuffEncodeBuf.StoresRight (dst : ℕ → Byte) (pos : ℕ) (word : Bytes) : HuffEncodeBuf → Prop
  | bswap64 | bigEndian => word.take 4 = [0, 0, 0, 0]
  | bytes => False
  | htonl => word.take 4 = word.drop 4 ∧ (List.range' (pos + 4) 4).map dst = word.drop 4

theorem length_wordCode (w : UInt64) : (wordCode w).length = 8 := by
  obtain ⟨high, hhigh, hlow, hword⟩ := wordCode_eq w
  rw [hword, List.length_append, hhigh, hlow]

theorem length_flatMap_wordCode (words : List UInt64) :
    (words.flatMap wordCode).length = 8 * words.length := by
  induction words with
  | nil => rfl
  | cons w words ih =>
    rw [List.flatMap_cons, List.length_append, length_wordCode, ih, List.length_cons]
    omega

theorem storesRight_iff {store : HuffEncodeBuf} (hdefined : store ≠ .bytes) (dst : ℕ → Byte)
    (pos : ℕ) (w : UInt64) :
    (List.range' pos 8).map (storeAt dst pos ((store.store w.toUInt32).getD [])) = wordCode w ↔
      store.StoresRight dst pos (wordCode w) := by
  obtain ⟨high, hhigh, hlow, hword⟩ := wordCode_eq w
  have hzero : ∀ x : Bytes, x = [0, 0, 0, 0] ++ wordBytes w.toUInt32 →
      ((List.range' pos 8).map (storeAt dst pos x) = wordCode w ↔
        (wordCode w).take 4 = [0, 0, 0, 0]) := by
    rintro x rfl
    have hmap := map_storeAt dst pos ([0, 0, 0, 0] ++ wordBytes w.toUInt32) 0
    rw [List.range'_zero, List.map_nil, List.append_nil] at hmap
    have hlength : 8 = ([0, 0, 0, 0] ++ wordBytes w.toUInt32).length + 0 := rfl
    rw [hlength, hmap, hword, List.take_left' hhigh, List.append_left_inj]
    exact eq_comm
  cases store with
  | bswap64 => exact hzero _ rfl
  | bigEndian => exact hzero _ rfl
  | bytes => exact absurd rfl hdefined
  | htonl =>
    have hmap := map_storeAt dst pos (wordBytes w.toUInt32) 4
    show (List.range' pos ((wordBytes w.toUInt32).length + 4)).map
      (storeAt dst pos (wordBytes w.toUInt32)) = wordCode w ↔
        (wordCode w).take 4 = (wordCode w).drop 4 ∧
          (List.range' (pos + 4) 4).map dst = (wordCode w).drop 4
    rw [hmap, hword, List.take_left' hhigh, List.drop_left' hhigh, hlow]
    constructor
    · intro h
      obtain ⟨hfront, hback⟩ := List.append_inj h (hlow.trans hhigh.symm)
      exact ⟨hfront.symm, hback⟩
    · rintro ⟨hfront, hback⟩
      rw [hback, hfront]

theorem storeWords_behind {store : HuffEncodeBuf} {dst : ℕ → Byte} {words : List UInt64} {i : ℕ}
    (hi : 8 * words.length ≤ i) : storeWords store dst words i = dst i := by
  induction words using List.reverseRecOn with
  | nil => rfl
  | append_singleton words w ih =>
    rw [List.length_append, List.length_singleton] at hi
    have hlength : ((store.store w.toUInt32).getD []).length ≤ 8 := by
      cases store <;> simp [HuffEncodeBuf.store, wordBytes]
    rw [storeWords_concat, storeAt, if_pos (by omega), List.getElem?_eq_none (by omega),
      Option.getD_none, ih (by omega)]

/-- The words are in the memory exactly where every store is right. -/
theorem map_storeWords {store : HuffEncodeBuf} (hdefined : store ≠ .bytes) (dst : ℕ → Byte)
    (words : List UInt64) :
    (List.range (8 * words.length)).map (storeWords store dst words) = words.flatMap wordCode ↔
      ∀ e ∈ words.zipIdx, store.StoresRight dst (8 * e.2) (wordCode e.1) := by
  induction words using List.reverseRecOn with
  | nil => simp
  | append_singleton words w ih =>
    have hright : store.StoresRight (storeWords store dst words) (8 * words.length) (wordCode w) ↔
        store.StoresRight dst (8 * words.length) (wordCode w) := by
      cases store with
      | htonl =>
        have hsame : (List.range' (8 * words.length + 4) 4).map (storeWords .htonl dst words) =
            (List.range' (8 * words.length + 4) 4).map dst :=
          List.map_congr_left fun i hi => storeWords_behind (by
            rw [List.mem_range'_1] at hi
            omega)
        unfold HuffEncodeBuf.StoresRight
        rw [hsame]
      | bswap64 => rfl
      | bigEndian => rfl
      | bytes => rfl
    have hrange : List.range (8 * (words ++ [w]).length) =
        List.range (8 * words.length) ++ List.range' (8 * words.length) 8 := by
      rw [List.length_append, List.length_singleton, Nat.mul_add, List.range_eq_range',
        List.range_eq_range', ← List.range'_append_1, Nat.zero_add]
    rw [hrange, List.map_append, storeWords_concat, map_storeAt_before, List.flatMap_append,
      List.zipIdx_append, List.forall_mem_append, ← ih, List.flatMap_singleton]
    have hlast : (∀ e ∈ [w].zipIdx (0 + words.length),
        store.StoresRight dst (8 * e.2) (wordCode e.1)) ↔
          store.StoresRight dst (8 * words.length) (wordCode w) := by
      simp
    rw [hlast, ← hright, ← storesRight_iff hdefined]
    constructor
    · intro h
      refine List.append_inj h ?_
      rw [List.length_map, List.length_range, length_flatMap_wordCode]
    · rintro ⟨hfront, hback⟩
      rw [hfront, hback]

/-! ## The code of a string -/

theorem packBits_wordsBits (words : List UInt64) (x : List Bool) :
    packBits (wordsBits words ++ x) = words.flatMap wordCode ++ packBits x := by
  induction words with
  | nil => rfl
  | cons w words ih =>
    have hcons : wordsBits (w :: words) = bits 64 w.toNat ++ wordsBits words := rfl
    rw [hcons, List.append_assoc, (packBits_append (k := 8) (length_bits 64 _)).1, ih,
      List.flatMap_cons, List.append_assoc]
    rfl

/-- The code in words and what is left. -/
theorem huffCodeBytes_eq {lower : Bool} {src : Bytes} {words : List UInt64} {rest : List Bool}
    (htext : huffBits lower src = wordsBits words ++ rest) :
    huffCodeBytes lower src =
        words.flatMap wordCode ++ packBits (rest ++ huffPadding rest.length) ∧
      (packBits (rest ++ huffPadding rest.length)).length = (rest.length + 7) / 8 := by
  have hpad : huffPadding (wordsBits words ++ rest).length = huffPadding rest.length := by
    unfold huffPadding
    rw [List.length_append, length_wordsBits]
    congr 2
    omega
  have hlength : (rest ++ huffPadding rest.length).length = 8 * ((rest.length + 7) / 8) := by
    rw [List.length_append, huffPadding, List.length_replicate]
    omega
  refine ⟨?_, (packBits_append (y := []) hlength).2⟩
  rw [huffCodeBytes, htext, hpad, List.append_assoc, packBits_wordsBits]

/-- A full word of the code. -/
theorem take_drop_flatMap {words : List UInt64} {k : ℕ} {w : UInt64} (h : words[k]? = some w)
    (x : Bytes) : ((words.flatMap wordCode ++ x).drop (8 * k)).take 8 = wordCode w := by
  induction words generalizing k with
  | nil => cases h
  | cons v words ih =>
    rw [List.flatMap_cons, List.append_assoc]
    cases k with
    | zero =>
      cases h
      exact List.take_left' (length_wordCode w)
    | succ k =>
      have hdrop : 8 * (k + 1) = (wordCode v).length + 8 * k := by
        rw [length_wordCode]
        omega
      rw [hdrop, List.drop_append, List.drop_of_length_le (by omega), List.nil_append,
        Nat.add_sub_cancel_left]
      exact ih h

theorem huffBits_ne_nil (lower : Bool) {src : Bytes} (hsrc : src ≠ []) : huffBits lower src ≠ [] := by
  obtain ⟨ch, src, rfl⟩ := List.exists_cons_of_ne_nil hsrc
  have hpos := (huffTable_fits lower ch).pos
  have hlength := HuffEncodeCode.length_bits (huffTable lower ch)
  rw [huffBits_cons]
  intro h
  rw [(List.append_eq_nil_iff.mp h).1, List.length_nil] at hlength
  omega

/-! ## The encoder -/

/-- `kgl_http_v2_huff_encode` returns the length of the code and leaves the code in `dst`; it returns
zero exactly for the empty string and where the code is not shorter than the string. -/
def HuffEncodes (store : HuffEncodeBuf) (kglAlign : ℕ → ℕ → ℕ) (lower : Bool) (src : Bytes)
    (dst : ℕ → Byte) : Prop :=
  ∃ n mem, kglHttpV2HuffEncode store kglAlign src dst lower = some (n, mem) ∧
    (0 < n → n < src.length ∧ (List.range n).map mem = huffCodeBytes lower src) ∧
    (n = 0 ↔ src = [] ∨ src.length ≤ (huffCodeBytes lower src).length)

/-- Nothing is returned of what is stored; or the store is right for every full word of the code. -/
def HuffEncodeBuf.Suits (store : HuffEncodeBuf) (lower : Bool) (src : Bytes) (dst : ℕ → Byte) :
    Prop :=
  src.length ≤ (if store = .bytes then 8 else (huffCodeBytes lower src).length) ∨
    ∀ k, 64 * (k + 1) ≤ (huffBits lower src).length →
      store.StoresRight dst (8 * k) (((huffCodeBytes lower src).drop (8 * k)).take 8)

theorem suits_iff {store : HuffEncodeBuf} {lower : Bool} {src : Bytes} {dst : ℕ → Byte}
    {words : List UInt64} {rest : List Bool} (htext : huffBits lower src = wordsBits words ++ rest)
    (hshort : rest.length < 64) :
    (∀ k, 64 * (k + 1) ≤ (huffBits lower src).length →
      store.StoresRight dst (8 * k) (((huffCodeBytes lower src).drop (8 * k)).take 8)) ↔
        ∀ e ∈ words.zipIdx, store.StoresRight dst (8 * e.2) (wordCode e.1) := by
  have hlength : (huffBits lower src).length = 64 * words.length + rest.length := by
    rw [htext, List.length_append, length_wordsBits]
  rw [(huffCodeBytes_eq htext).1, hlength]
  constructor
  · rintro h ⟨w, k⟩ he
    have hw : words[k]? = some w := List.mem_zipIdx_iff_getElem?.mp he
    obtain ⟨hk, -⟩ := List.getElem?_eq_some_iff.mp hw
    have hright := h k (by omega)
    rwa [take_drop_flatMap hw] at hright
  · intro h k hk
    have hlt : k < words.length := by omega
    have hw : words[k]? = some words[k] := List.getElem?_eq_getElem hlt
    rw [take_drop_flatMap hw]
    exact h (words[k], k) (List.mem_zipIdx_iff_getElem?.mpr hw)

theorem length_huffCodeBytes (lower : Bool) (src : Bytes) :
    (huffCodeBytes lower src).length = ((huffBits lower src).length + 7) / 8 := by
  have htext : huffBits lower src = wordsBits [] ++ huffBits lower src := rfl
  obtain ⟨hcode, hlength⟩ := huffCodeBytes_eq htext
  rw [hcode]
  exact hlength

theorem length_huffCodeBytes_nil (lower : Bool) : (huffCodeBytes lower []).length = 0 := by
  rw [length_huffCodeBytes, huffBits, List.flatMap_nil, List.length_nil]

/-- The memory from the start on, where bytes are stored. -/
theorem map_range_storeAt (dst : ℕ → Byte) (pos : ℕ) (x : Bytes) :
    (List.range (pos + x.length)).map (storeAt dst pos x) = (List.range pos).map dst ++ x := by
  have hrange : List.range (pos + x.length) = List.range pos ++ List.range' pos x.length := by
    rw [List.range_eq_range', List.range_eq_range', ← List.range'_append_1, Nat.zero_add]
  have hmap := map_storeAt dst pos x 0
  rw [Nat.add_zero, List.range'_zero, List.map_nil, List.append_nil] at hmap
  rw [hrange, List.map_append, map_storeAt_before, hmap]

/-- Behind the loop there is room for what is pending: then the code is in the memory exactly where
its full words are. -/
theorem map_end_iff {store : HuffEncodeBuf} {dst : ℕ → Byte} {lower : Bool} {src : Bytes}
    {words : List UInt64} {rest : List Bool}
    (htext : huffBits lower src = wordsBits words ++ rest) :
    (List.range (8 * words.length + (rest.length + 7) / 8)).map
        (storeAt (storeWords store dst words) (8 * words.length)
          (packBits (rest ++ huffPadding rest.length))) = huffCodeBytes lower src ↔
      (List.range (8 * words.length)).map (storeWords store dst words) = words.flatMap wordCode := by
  obtain ⟨hcode, hlength⟩ := huffCodeBytes_eq htext
  rw [← hlength, map_range_storeAt, hcode, List.append_left_inj]

/-- What is pending has no room: zero is returned, as it should be. -/
theorem huffEncodes_full {store : HuffEncodeBuf} {kglAlign : ℕ → ℕ → ℕ} {lower : Bool}
    {src : Bytes} {dst mem : ℕ → Byte}
    (hrun : kglHttpV2HuffEncode store kglAlign src dst lower = some (0, mem))
    (hlen : src.length ≤ (huffCodeBytes lower src).length) :
    HuffEncodes store kglAlign lower src dst :=
  ⟨0, mem, hrun, fun h => absurd h (lt_irrefl 0), fun _ => .inr hlen, fun _ => rfl⟩

/-- Behind the loop, with room for what is pending: the string is encoded right exactly where its
words are in the memory. -/
theorem huffEncodes_room {store : HuffEncodeBuf} {kglAlign : ℕ → ℕ → ℕ} {lower : Bool}
    {src : Bytes} {dst : ℕ → Byte} {words : List UInt64} {rest : List Bool}
    (hrun : kglHttpV2HuffEncode store kglAlign src dst lower =
      some (8 * words.length + (rest.length + 7) / 8,
        storeAt (storeWords store dst words) (8 * words.length)
          (packBits (rest ++ huffPadding rest.length))))
    (htext : huffBits lower src = wordsBits words ++ rest)
    (hlt : src ≠ [] → (huffCodeBytes lower src).length < src.length) :
    HuffEncodes store kglAlign lower src dst ↔
      (List.range (8 * words.length)).map (storeWords store dst words) = words.flatMap wordCode := by
  have hlength : (huffCodeBytes lower src).length = 8 * words.length + (rest.length + 7) / 8 := by
    rw [length_huffCodeBytes, htext, List.length_append, length_wordsBits]
    omega
  rw [← map_end_iff htext]
  constructor
  · rintro ⟨n, mem, hrun', hresult, hzero⟩
    cases hrun.symm.trans hrun'
    by_cases hpos : 0 < 8 * words.length + (rest.length + 7) / 8
    · exact (hresult hpos).2
    · have hempty := hlength.trans (Nat.eq_zero_of_not_pos hpos)
      rw [List.length_eq_zero_iff.mp hempty, Nat.eq_zero_of_not_pos hpos]
      rfl
  · intro hmem
    refine ⟨_, _, hrun, fun hpos => ⟨?_, hmem⟩, ?_⟩
    · rw [← hlength] at hpos ⊢
      refine hlt ?_
      rintro rfl
      exact hpos.ne' (length_huffCodeBytes_nil lower)
    · rw [← hlength]
      constructor
      · intro hn
        by_contra hne
        obtain ⟨hsrc, hlen⟩ := not_or.mp hne
        have hbits := length_huffCodeBytes lower src
        have hpos := List.length_pos_iff.mpr (huffBits_ne_nil lower hsrc)
        omega
      · rintro (rfl | hle)
        · exact length_huffCodeBytes_nil lower
        · by_contra hne
          refine absurd (hlt ?_) (not_lt.mpr hle)
          rintro rfl
          exact hne (length_huffCodeBytes_nil lower)

/-- A string is encoded right exactly where the store is right for its words. -/
theorem huffEncodes_iff (store : HuffEncodeBuf) (kglAlign : ℕ → ℕ → ℕ)
    (halign : ∀ d, kglAlign d 8 = (d + 7) / 8 * 8) (lower : Bool) (src : Bytes) (dst : ℕ → Byte) :
    HuffEncodes store kglAlign lower src dst ↔ store.Suits lower src dst := by
  have hstart : Packed store dst src.length [] [] ⟨0, 0, 0, dst⟩ :=
    ⟨rfl, rfl, by simp, by simp [HoldsBits, value], rfl, fun h => absurd rfl h, fun h => absurd rfl h⟩
  have hcode := length_huffCodeBytes lower src
  have htext : huffBits lower src = wordsBits [] ++ ([] ++ huffBits lower src) := rfl
  rcases huffEncodeLoop_spec kglAlign lower src hstart htext with
    ⟨hbytes, hlen, hlength, hloop⟩ | ⟨k, d, hk, hlength, hlen, hfirst, hloop⟩ |
      ⟨words, rest, r, hpacked, hsplit, hloop⟩
  · -- a full word is stored that the macro does not define
    refine iff_of_false ?_ ?_
    · rintro ⟨n, mem, hrun, -⟩
      cases hloop.symm.trans hrun
    · rintro (hle | hall)
      · rw [if_pos hbytes] at hle
        omega
      · have hfalse := hall 0 hlength
        rw [hbytes] at hfalse
        exact hfalse
  · -- a full word has no room
    refine iff_of_true (huffEncodes_full hloop (by omega)) (.inl ?_)
    split
    · rw [hfirst ‹_›] at hlen
      exact hlen
    · omega
  have hshort := hpacked.short
  have hbits : (huffBits lower src).length = 64 * words.length + rest.length := by
    rw [hsplit, List.length_append, length_wordsBits]
  have hnone : store = .bytes → ∀ k, ¬64 * (k + 1) ≤ (huffBits lower src).length := by
    intro hbytes k
    have hnil : words = [] := by
      by_contra hne
      exact hpacked.defined hne hbytes
    rw [hbits, hnil, List.length_nil]
    omega
  rw [huffEncodeEnd_spec halign hpacked] at hloop
  by_cases hfull : rest ≠ [] ∧ src.length ≤ 8 * words.length + (rest.length + 7) / 8
  · -- what is pending has no room
    rw [if_pos hfull] at hloop
    refine iff_of_true (huffEncodes_full hloop (by omega)) ?_
    by_cases hbytes : store = .bytes
    · exact .inr fun k hk => absurd hk (hnone hbytes k)
    · refine .inl ?_
      rw [if_neg hbytes]
      omega
  rw [if_neg hfull] at hloop
  have hlt : src ≠ [] → (huffCodeBytes lower src).length < src.length := by
    intro hsrc
    have hpos := List.length_pos_iff.mpr (huffBits_ne_nil lower hsrc)
    rw [hcode, hbits]
    by_cases hrest : rest = []
    · have hwords : words ≠ [] := by
        intro hnil
        rw [hnil, hrest, List.length_nil, List.length_nil] at hbits
        omega
      have hroom := hpacked.room hwords
      rw [hrest, List.length_nil]
      omega
    · have hroom : ¬src.length ≤ 8 * words.length + (rest.length + 7) / 8 :=
        fun hle => hfull ⟨hrest, hle⟩
      omega
  rw [huffEncodes_room hloop hsplit hlt]
  have hstored : (List.range (8 * words.length)).map (storeWords store dst words) =
      words.flatMap wordCode ↔ ∀ e ∈ words.zipIdx, store.StoresRight dst (8 * e.2) (wordCode e.1) := by
    by_cases hwords : words = []
    · rw [hwords]
      simp
    · exact map_storeWords (hpacked.defined hwords) dst words
  rw [hstored, ← suits_iff hsplit hshort]
  refine ⟨.inr, ?_⟩
  rintro (hle | hall)
  · by_cases hbytes : store = .bytes
    · exact fun k hk => absurd hk (hnone hbytes k)
    · rw [if_neg hbytes] at hle
      by_cases hsrc : src = []
      · intro k hk
        rw [hsrc] at hk
        simp [huffBits] at hk
      · exact absurd (hlt hsrc) (not_lt.mpr hle)
  · exact hall

/-- What `kgl_align` does: round up to a multiple. -/
def roundUp (d a : ℕ) : ℕ := (d + (a - 1)) / a * a

/-- A full word of zeros is stored. -/
theorem huffEncodes_zeros :
    HuffEncodes .bswap64 roundUp false (kglString "0000000000000000") fun _ => 7 := by
  refine (huffEncodes_iff .bswap64 roundUp (fun d => rfl) false _ _).mpr (.inr fun k hk => ?_)
  have hlength : (huffBits false (kglString "0000000000000000")).length = 80 := by decide +kernel
  have hk : k = 0 := by omega
  subst hk
  show _ = _
  decide +kernel

/-- The high half of a word is lost. -/
theorem huffEncodes_wrong :
    ¬HuffEncodes .bswap64 roundUp false (kglString "www.example.com") fun _ => 7 := by
  rintro ⟨n, mem, hrun, hresult, -⟩
  have hout : (kglHttpV2HuffEncode .bswap64 roundUp (kglString "www.example.com") (fun _ => 7)
      false).map (fun r => (r.1, (List.range r.1).map r.2)) =
        some (12, [0, 0, 0, 0, 242, 58, 107, 160, 171, 144, 244, 255]) := by
    decide +kernel
  rw [hrun, Option.map_some, Option.some.injEq, Prod.mk.injEq] at hout
  obtain ⟨rfl, hmem⟩ := hout
  have hcode := (hresult (by decide)).2
  rw [hmem] at hcode
  revert hcode
  decide +kernel

end Khttpd
