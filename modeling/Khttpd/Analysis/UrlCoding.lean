import Khttpd.Analysis.MemoryBytes
import Khttpd.Model.Url

/-!
# Percent encoding

`url_decode` works in place: it never writes in front of what it has still to read, so it leaves the
decoded bytes at the start of its input. What `url_encode` writes is plain, and decodes to what it
was.
-/

set_option autoImplicit false

namespace Khttpd

open MemoryProgram InPlace

/-! ## The decoded bytes -/

/-- What `url_decode` makes of a list of bytes. -/
def decodedBytes (space2plus : Bool) : Bytes → Bytes
  | [] => []
  | c :: rest =>
    if space2plus ∧ c = 43 then 32 :: decodedBytes space2plus rest
    else
      match rest with
      | high :: low :: rest =>
        if c = 37 ∧ isXDigit high ∧ isXDigit low then
          myHtoi high low :: decodedBytes space2plus rest
        else c :: decodedBytes space2plus (high :: low :: rest)
      | rest => c :: decodedBytes space2plus rest

section Decoded

variable {space2plus : Bool} {c : Byte} {rest : Bytes}

theorem decodedBytes_plus (hplus : space2plus = true ∧ c = 43) :
    decodedBytes space2plus (c :: rest) = 32 :: decodedBytes space2plus rest := by
  conv_lhs => unfold decodedBytes
  rw [if_pos hplus]

theorem decodedBytes_escape {high low : Byte} (hplus : ¬(space2plus = true ∧ c = 43))
    (hescape : c = 37 ∧ isXDigit high ∧ isXDigit low) :
    decodedBytes space2plus (c :: high :: low :: rest) =
      myHtoi high low :: decodedBytes space2plus rest := by
  conv_lhs => unfold decodedBytes
  rw [if_neg hplus]
  exact if_pos hescape

theorem decodedBytes_plain (hplus : ¬(space2plus = true ∧ c = 43))
    (hescape : ∀ high low back, rest = high :: low :: back →
      ¬(c = 37 ∧ isXDigit high ∧ isXDigit low)) :
    decodedBytes space2plus (c :: rest) = c :: decodedBytes space2plus rest := by
  conv_lhs => unfold decodedBytes
  rw [if_neg hplus]
  split
  · rename_i high low back
    exact if_neg (hescape high low back rfl)
  · rfl

end Decoded

section Memory

variable (m : ℕ → Byte)

theorem run_isEscape (data len : ℕ) :
    (run (isEscape data len) m).mem = m ∧ writes (isEscape data len) m = [] ∧
      (run (isEscape data len) m).value = (m data == 37 && 2 ≤ len && isXDigit (m (data + 1)) &&
        isXDigit (m (data + 2))) := by
  unfold isEscape
  by_cases hfirst : m data = 37 ∧ 2 ≤ len
  · by_cases hhigh : isXDigit (m (data + 1)) = true
    · simp [run_load_bind, hfirst, hhigh]
    · simp [run_load_bind, hfirst, hhigh]
  · simp only [run_load_bind, writes_load_bind, if_neg hfirst, run_pure, writes_pure, true_and]
    simp only [not_and_or] at hfirst
    rcases hfirst with h | h <;> simp [h]

/-- What a loop leaves that writes `out` from `d.dest` on, of `len` bytes to read. -/
structure Writes (len : ℕ) (d : Decoding) (out : Bytes) (p : CProg Decoding) : Prop where
  dest : (run p m).value.dest = d.dest + out.length
  bytes : memRead (run p m).mem d.dest out.length = out
  within : ∀ a ∈ writes p m, d.dest ≤ a ∧ a < d.dest + out.length
  fits : out.length ≤ len
  available : (run p m).value.memAvailable = true → d.memAvailable = true ∨ out.length < len

end Memory

/-- A program that only reads comes first. -/
theorem Writes.read_bind {α : Type} {m : ℕ → Byte} {len : ℕ} {d : Decoding} {out : Bytes}
    {p : CProg α} {f : α → CProg Decoding} (hmem : (run p m).mem = m) (hwrites : writes p m = [])
    (h : Writes m len d out (f (run p m).value)) : Writes m len d out (p >>= f) := by
  have hrun : (run (p >>= f) m).value = (run (f (run p m).value) m).value ∧
      (run (p >>= f) m).mem = (run (f (run p m).value) m).mem := by
    rw [value_bind, mem_bind, hmem]
    exact ⟨rfl, rfl⟩
  have hlist : writes (p >>= f) m = writes (f (run p m).value) m := by
    rw [writes_bind, hmem, hwrites, List.nil_append]
  constructor
  · rw [hrun.1]
    exact h.dest
  · rw [hrun.2]
    exact h.bytes
  · rw [hlist]
    exact h.within
  · exact h.fits
  · rw [hrun.1]
    exact h.available

/-- A byte is stored, and the loop goes on with `len'` of the bytes left. -/
theorem Writes.store_bind {m : ℕ → Byte} {len len' : ℕ} {d d' : Decoding} {out : Bytes} {v : Byte}
    {p : CProg Decoding} (hdest : d'.dest = d.dest + 1) (hlen : len' + 1 ≤ len)
    (havailable : d'.memAvailable = true → d.memAvailable = true ∨ len' + 1 < len)
    (h : Writes (Function.update m d.dest v) len' d' out p) :
    Writes m len d (v :: out) (store d.dest v >>= fun _ => p) := by
  have hrun := run_store_bind d.dest v (fun _ => p) m
  have hwrites := writes_store_bind d.dest v (fun _ => p) m
  have hfits := h.fits
  constructor
  · rw [hrun, h.dest, hdest, List.length_cons]
    omega
  · have hfirst : (run p (Function.update m d.dest v)).mem d.dest = v := by
      rw [mem_of_not_mem_writes, Function.update_self]
      intro hmem
      have hin := h.within d.dest hmem
      omega
    have hrest := h.bytes
    rw [hdest] at hrest
    rw [hrun, List.length_cons, Nat.add_comm, memRead_add, hrest]
    simp [memRead, hfirst]
  · rw [hwrites]
    intro a ha
    rcases List.mem_cons.mp ha with rfl | ha
    · simp
    · have hin := h.within a ha
      simp only [List.length_cons]
      omega
  · simp only [List.length_cons]
    omega
  · rw [hrun]
    intro havail
    simp only [List.length_cons]
    rcases h.available havail with hstep | hstep
    · rcases havailable hstep with hd | hd
      · exact Or.inl hd
      · right
        omega
    · right
      omega

theorem memRead_update {m : ℕ → Byte} {a dest n : ℕ} {v : Byte} (h : dest < a) :
    memRead (Function.update m dest v) a n = memRead m a n := by
  apply memRead_congr
  intro i _
  have hne : a + i ≠ dest := by omega
  exact Function.update_of_ne hne v m

/-- The loop writes the decoded bytes from `dest` on, which is not behind what it reads. -/
theorem urlDecodeLoop_writes (space2plus : Bool) (len : ℕ) : ∀ (m : ℕ → Byte) (data : ℕ)
    (d : Decoding), d.dest ≤ data → Writes m len d (decodedBytes space2plus (memRead m data len))
      (urlDecodeLoop space2plus len data d) := by
  induction len using Nat.strongRecOn with
  | ind len ih =>
    intro m data d hdest
    cases len with
    | zero =>
      rw [urlDecodeLoop]
      exact ⟨rfl, rfl, by simp, le_rfl, Or.inl⟩
    | succ len =>
      rw [urlDecodeLoop, memRead_succ]
      refine Writes.read_bind rfl rfl ?_
      have hnext := ih len (Nat.lt_succ_self len)
      -- the byte is kept or becomes a space: what is left starts one byte on
      have hstep (v : Byte) (d' : Decoding) (hd' : d'.dest = d.dest + 1)
          (havail : d'.memAvailable = d.memAvailable) :
          Writes m (len + 1) d (v :: decodedBytes space2plus (memRead m (data + 1) len))
            (store d.dest v >>= fun _ => urlDecodeLoop space2plus len (data + 1) d') := by
        refine Writes.store_bind hd' le_rfl (fun h => Or.inl (havail.symm.trans h)) ?_
        rw [← memRead_update (v := v) (show d.dest < data + 1 by omega)]
        exact hnext _ _ _ (by omega)
      by_cases hplus : space2plus = true ∧ m data = 43
      · rw [decodedBytes_plus hplus, run_load, if_pos hplus]
        exact hstep 32 _ rfl rfl
      · obtain ⟨hmem, hwrites, hvalue⟩ := run_isEscape m data len
        rw [run_load, if_neg hplus]
        refine Writes.read_bind hmem hwrites ?_
        by_cases hescape : (run (isEscape data len) m).value = true
        · have htest := hescape
          rw [hvalue] at htest
          simp only [Bool.and_eq_true, beq_iff_eq, decide_eq_true_eq] at htest
          obtain ⟨⟨⟨hpercent, hlen⟩, hhigh⟩, hlow⟩ := htest
          obtain ⟨rest, rfl⟩ : ∃ rest, len = rest + 2 := ⟨len - 2, by omega⟩
          rw [if_pos hescape]
          have hdecoded : decodedBytes space2plus (m data :: memRead m (data + 1) (rest + 2)) =
              myHtoi (m (data + 1)) (m (data + 2)) ::
                decodedBytes space2plus (memRead m (data + 3) rest) := by
            rw [memRead_succ, memRead_succ]
            exact decodedBytes_escape hplus ⟨hpercent, hhigh, hlow⟩
          rw [hdecoded]
          refine Writes.read_bind rfl rfl (Writes.read_bind rfl rfl ?_)
          have hback := ih rest (by omega)
            (Function.update m d.dest (myHtoi (m (data + 1)) (m (data + 2)))) (data + 3)
            ⟨d.dest + 1, true, d.url.map fun url => url.setFlag kglUrlEncode⟩ (by simp only; omega)
          rw [memRead_update (by omega)] at hback
          exact Writes.store_bind rfl (by omega) (fun _ => Or.inr (by omega)) hback
        · rw [if_neg hescape]
          have hdecoded : decodedBytes space2plus (m data :: memRead m (data + 1) len) =
              m data :: decodedBytes space2plus (memRead m (data + 1) len) := by
            refine decodedBytes_plain hplus ?_
            rintro high low back hback ⟨hpercent, hhigh, hlow⟩
            rw [hvalue] at hescape
            obtain ⟨rest, rfl⟩ : ∃ rest, len = rest + 2 := by
              have hlen := congrArg List.length hback
              rw [length_memRead, List.length_cons, List.length_cons] at hlen
              exact ⟨back.length, hlen⟩
            rw [memRead_succ, memRead_succ] at hback
            cases hback
            simp [hpercent, hhigh, hlow] at hescape
          rw [hdecoded]
          exact Writes.read_bind rfl rfl (hstep _ _ rfl rfl)

/-! ## Encoding -/

/-- A letter, a digit, or one of `- . _ / %`. -/
def isPlainUrlByte (c : Byte) : Bool :=
  65 ≤ c && c ≤ 90 || 97 ≤ c && c ≤ 122 || 48 ≤ c && c ≤ 57 || c == 45 || c == 46 || c == 95 ||
    c == 47 || c == 37

/-- What `url_encode` may write for a byte. -/
inductive EncodedByte (c : Byte) : Bytes → Prop
  | plain (hplain : isPlainUrlByte c = true) (hplus : c ≠ 43) (hpercent : c ≠ 37) :
      EncodedByte c [c]
  | escape {high low : Byte} (hhigh : isXDigit high = true) (hlow : isXDigit low = true)
      (hplain : isPlainUrlByte high = true ∧ isPlainUrlByte low = true)
      (hvalue : myHtoi high low = c) : EncodedByte c [37, high, low]

/-- All bytes that `url_encode` keeps are plain. -/
theorem keeps_plain : ∀ n < 256, (UInt8.ofNat n = 47 ∨ urlEscapes (UInt8.ofNat n) = false) →
    isPlainUrlByte (UInt8.ofNat n) = true ∧ UInt8.ofNat n ≠ 43 ∧ UInt8.ofNat n ≠ 37 := by
  decide +kernel

/-- The two digits of every byte are hexadecimal, plain, and have its value. -/
theorem hexchars_value : ∀ n < 256,
    let c := UInt8.ofNat n
    isXDigit (hexchars (c >>> 4)) = true ∧ isXDigit (hexchars (c &&& 15)) = true ∧
      (isPlainUrlByte (hexchars (c >>> 4)) = true ∧ isPlainUrlByte (hexchars (c &&& 15)) = true) ∧
      myHtoi (hexchars (c >>> 4)) (hexchars (c &&& 15)) = c := by
  decide +kernel

theorem urlEncodeByte_encoded (c : Byte) : EncodedByte c (urlEncodeByte c) := by
  have hkeeps := keeps_plain c.toNat c.toNat_lt
  have hdigits := hexchars_value c.toNat c.toNat_lt
  simp only [UInt8.ofNat_toNat] at hkeeps hdigits
  unfold urlEncodeByte
  split
  · rename_i hslash
    obtain ⟨hplain, hplus, hpercent⟩ := hkeeps (Or.inl hslash)
    exact .plain hplain hplus hpercent
  · split
    · obtain ⟨hhigh, hlow, hplain, hvalue⟩ := hdigits
      exact .escape hhigh hlow hplain hvalue
    · rename_i hescapes
      obtain ⟨hplain, hplus, hpercent⟩ := hkeeps (Or.inr (Bool.eq_false_iff.mpr hescapes))
      exact .plain hplain hplus hpercent

theorem urlEncode_plain (s : Bytes) : ∀ c ∈ urlEncode s, isPlainUrlByte c = true := by
  intro c hc
  obtain ⟨b, -, hb⟩ := List.mem_flatMap.mp hc
  have hencoded := urlEncodeByte_encoded b
  generalize urlEncodeByte b = text at hb hencoded
  cases hencoded with
  | plain hplain => rwa [List.mem_singleton.mp hb]
  | escape hhigh hlow hplain =>
    simp only [List.mem_cons, List.not_mem_nil, or_false] at hb
    rcases hb with rfl | rfl | rfl
    · rfl
    · exact hplain.1
    · exact hplain.2

/-- One byte comes back, whatever follows its code. -/
theorem decodedBytes_urlEncodeByte (space2plus : Bool) (c : Byte) (rest : Bytes) :
    decodedBytes space2plus (urlEncodeByte c ++ rest) = c :: decodedBytes space2plus rest := by
  have hencoded := urlEncodeByte_encoded c
  generalize urlEncodeByte c = text at hencoded
  cases hencoded with
  | plain hplain hplus hpercent =>
    exact decodedBytes_plain (fun h => hplus h.2) fun _ _ _ _ h => hpercent h.1
  | escape hhigh hlow hplain hvalue =>
    have hplus : ¬(space2plus = true ∧ (37 : Byte) = 43) := by
      rintro ⟨-, h⟩
      exact absurd h (by decide)
    refine (decodedBytes_escape hplus ⟨rfl, hhigh, hlow⟩).trans ?_
    rw [hvalue]
    rfl

theorem decodedBytes_urlEncode (space2plus : Bool) (s : Bytes) :
    decodedBytes space2plus (urlEncode s) = s := by
  induction s with
  | nil => rfl
  | cons c s ih =>
    have hcons : urlEncode (c :: s) = urlEncodeByte c ++ urlEncode s := List.flatMap_cons
    rw [hcons, decodedBytes_urlEncodeByte, ih]

theorem urlEncode_ne_nil {s : Bytes} (h : s ≠ []) : urlEncode s ≠ [] := by
  obtain ⟨c, rest, rfl⟩ := List.exists_cons_of_ne_nil h
  have hencoded := urlEncodeByte_encoded c
  have hcons : urlEncode (c :: rest) = urlEncodeByte c ++ urlEncode rest := List.flatMap_cons
  rw [hcons]
  generalize urlEncodeByte c = text at hencoded
  cases hencoded <;> simp

/-! ## `url_decode` -/

section Decode

variable (m : ℕ → Byte) (size str len : ℕ) (url : Option KglUrl) (space2plus : Bool)

theorem run_strlen (m : ℕ → Byte) (size str : ℕ) :
    (run (strlen size str) m).mem = m ∧ writes (strlen size str) m = [] := by
  induction size generalizing str with
  | zero => exact ⟨rfl, rfl⟩
  | succ size ih =>
    unfold strlen
    by_cases hc : m str = 0
    · simp [run_load_bind, hc]
    · simp [run_load_bind, hc, writes_bind, ih (str + 1)]

/-- How many bytes `url_decode` reads. -/
def inputLength : ℕ := (run (decodeLength size str len) m).value

theorem inputLength_of_pos (hlen : len ≠ 0) : inputLength m size str len = len := by
  unfold inputLength decodeLength
  rw [if_neg hlen]
  rfl

/-- The length of a string that is terminated in its block. -/
theorem strlen_eq {m : ℕ → Byte} {str n : ℕ} (hstop : m (str + n) = 0)
    (hbefore : ∀ c ∈ memRead m str n, c ≠ 0) {size : ℕ} (hsize : n < size) :
    (run (strlen size str) m).value = n := by
  induction n generalizing str size with
  | zero =>
    obtain ⟨size, rfl⟩ : ∃ k, size = k + 1 := ⟨size - 1, by omega⟩
    unfold strlen
    simp [run_load_bind, show m str = 0 from hstop]
  | succ n ih =>
    obtain ⟨size, rfl⟩ : ∃ k, size = k + 1 := ⟨size - 1, by omega⟩
    rw [memRead_succ] at hbefore
    have hc : m str ≠ 0 := hbefore (m str) List.mem_cons_self
    have hrest : (run (strlen size (str + 1)) m).value = n := by
      refine ih ?_ (fun c hc => hbefore c (List.mem_cons_of_mem (m str) hc)) (by omega)
      rw [← hstop, Nat.add_assoc, Nat.add_comm 1 n]
    unfold strlen
    simp [run_load_bind, hc, hrest]

theorem run_decodeLength (m : ℕ → Byte) (size str len : ℕ) :
    (run (decodeLength size str len) m).mem = m ∧ writes (decodeLength size str len) m = [] := by
  unfold decodeLength
  split
  · exact run_strlen m size str
  · exact ⟨rfl, rfl⟩

/-- `url_decode` is its loop, and a terminator behind the result where there was an escape. -/
theorem run_urlDecode :
    let p := urlDecodeLoop space2plus (inputLength m size str len) str ⟨str, false, url⟩
    let d := (run p m).value
    (run (urlDecode size str len url space2plus) m).value = ⟨d.dest - str, d.url⟩ ∧
      (run (urlDecode size str len url space2plus) m).mem =
        (if d.memAvailable then Function.update (run p m).mem d.dest 0 else (run p m).mem) ∧
      writes (urlDecode size str len url space2plus) m =
        writes p m ++ if d.memAvailable then [d.dest] else [] := by
  intro p d
  obtain ⟨hmem, hwrites⟩ := run_decodeLength m size str len
  unfold urlDecode
  simp only [value_bind, mem_bind, writes_bind, hmem, hwrites, List.nil_append]
  change (run (if d.memAvailable = true then _ else _) (run p m).mem).value = _ ∧
    (run (if d.memAvailable = true then _ else _) (run p m).mem).mem = _ ∧
      writes p m ++ writes (if d.memAvailable = true then _ else _) (run p m).mem = _
  by_cases havailable : d.memAvailable = true
  · simp only [if_pos havailable]
    exact ⟨rfl, rfl, rfl⟩
  · simp only [if_neg havailable]
    exact ⟨rfl, rfl, rfl⟩

/-- What `url_decode` returns and leaves, and where it writes. -/
theorem urlDecode_spec :
    let n := inputLength m size str len
    let out := decodedBytes space2plus (memRead m str n)
    let p := urlDecode size str len url space2plus
    (run p m).value.length = out.length ∧ memRead (run p m).mem str out.length = out ∧
      ∀ a ∈ writes p m, str ≤ a ∧ a < str + n := by
  intro n out p
  obtain ⟨hvalue, hlast, hlist⟩ := run_urlDecode m size str len url space2plus
  have hloop : Writes m n ⟨str, false, url⟩ out _ :=
    urlDecodeLoop_writes space2plus n m str ⟨str, false, url⟩ le_rfl
  have hfits := hloop.fits
  have hdest : (run (urlDecodeLoop space2plus (inputLength m size str len) str ⟨str, false, url⟩)
      m).value.dest = str + out.length := hloop.dest
  refine ⟨?_, ?_, ?_⟩
  · rw [hvalue, hdest]
    exact Nat.add_sub_cancel_left str out.length
  · rw [hlast]
    split
    · refine Eq.trans (memRead_congr ?_) hloop.bytes
      intro i hi
      exact Function.update_of_ne (by omega) 0 _
    · exact hloop.bytes
  · rw [hlist]
    intro a ha
    rcases List.mem_append.mp ha with ha | ha
    · have hin := hloop.within a ha
      simp only at hin
      omega
    · split at ha
      · rename_i havailable
        rw [List.mem_singleton] at ha
        have hshort := (hloop.available havailable).resolve_left (by simp)
        omega
      · cases ha

end Decode

/-- The text at `str` is given with its length, or it is terminated in its block. -/
def IsArgument (m : ℕ → Byte) (size str len : ℕ) (text : Bytes) : Prop :=
  memRead m str text.length = text ∧
    (len = text.length ∨ len = 0 ∧ m (str + text.length) = 0 ∧ text.length < size)

theorem inputLength_argument {m : ℕ → Byte} {size str len : ℕ} {text : Bytes} (hne : text ≠ [])
    (hzero : ∀ c ∈ text, c ≠ 0) (h : IsArgument m size str len text) :
    inputLength m size str len = text.length := by
  obtain ⟨htext, rfl | ⟨rfl, hstop, hsize⟩⟩ := h
  · exact inputLength_of_pos m size str _ (by simpa using hne)
  · rw [← htext] at hzero
    exact strlen_eq hstop hzero hsize

/-- What `url_encode` writes for `s` is plain, and decodes to `s` wherever it stands. -/
def RoundTrips (s : Bytes) : Prop :=
  (∀ c ∈ urlEncode s, isPlainUrlByte c = true) ∧
    ∀ (m : ℕ → Byte) (size str len : ℕ) (url : Option KglUrl) (space2plus : Bool),
      IsArgument m size str len (urlEncode s) →
        let r := run (urlDecode size str len url space2plus) m
        r.value.length = s.length ∧ memRead r.mem str s.length = s

theorem roundTrips {s : Bytes} (hne : s ≠ []) : RoundTrips s := by
  refine ⟨urlEncode_plain s, ?_⟩
  intro m size str len url space2plus harg
  have hzero : ∀ c ∈ urlEncode s, c ≠ 0 := by
    rintro c hc rfl
    exact absurd (urlEncode_plain s 0 hc) (by decide)
  obtain ⟨hlength, hbytes, -⟩ := urlDecode_spec m size str len url space2plus
  rw [inputLength_argument (urlEncode_ne_nil hne) hzero harg, harg.1, decodedBytes_urlEncode]
    at hlength hbytes
  exact ⟨hlength, hbytes⟩

/-- Percent encoding comes back, and `url_decode` writes nowhere but in its input. -/
theorem percentEncoding_roundTrips :
    (∀ s : Bytes, s ≠ [] → RoundTrips s) ∧
      ∀ (m : ℕ → Byte) (size str len : ℕ) (url : Option KglUrl) (space2plus : Bool),
        ∀ a ∈ writes (urlDecode size str len url space2plus) m,
          str ≤ a ∧ a < str + inputLength m size str len := by
  refine ⟨fun s hne => roundTrips hne, ?_⟩
  intro m size str len url space2plus
  exact (urlDecode_spec m size str len url space2plus).2.2

/-- The result at one escaped byte, with its code at the start of the memory. -/
theorem percentEncoding_space :
    let m := memWrite (fun _ => 0) 0 (kglString "%20")
    (run (urlDecode 3 0 3 none true) m).value.length = 1 ∧
      memRead (run (urlDecode 3 0 3 none true) m).mem 0 1 = [32] :=
  (percentEncoding_roundTrips.1 [32] (by decide)).2 (memWrite (fun _ => 0) 0 (kglString "%20"))
    3 0 3 none true ⟨by decide +kernel, Or.inl (by decide +kernel)⟩

end Khttpd
