import Khttpd.Analysis.HuffTables

/-!
# Huffman decoding

The automaton of `kgl_http_v2_huff_decode` is a decoder of the prefix code in
`kgl_http_v2_huff_encode_table`: what it has emitted, followed by the bits its state stands for,
is what it has read. So the pieces of a Huffman text decode to the string that was encoded, and
as no code is shorter than five bits, `n` bytes of any input emit at most `n * 8 / 5`.
-/

set_option autoImplicit false

namespace Khttpd

open PrefixCode

/-! ## What the table checks say -/

theorem huffEntry_ok {state bits : ℕ} (hstate : state < 256) (hbits : bits < 16) :
    huffEntryOk (huffPending state) state bits = true := by
  have h := List.all_eq_true.mp huffEntries_ok state (List.mem_range.mpr hstate)
  exact List.all_eq_true.mp h bits (List.mem_range.mpr hbits)

theorem huffState_ok {state : ℕ} (hstate : state < 256) : huffStateOk state = true :=
  List.all_eq_true.mp huffStates_ok state (List.mem_range.mpr hstate)

theorem huffCode_ok (ch : Byte) : huffCodeOk ch.toNat = true :=
  List.all_eq_true.mp huffCodes_ok _ (List.mem_range.mpr ch.toNat_lt)

/-- An entry has four bytes. -/
theorem huffDecodeEntry_lt (state bits : ℕ) : huffDecodeEntry state bits < 2 ^ 32 :=
  Nat.mod_lt _ (Nat.two_pow_pos 32)

/-- The automaton entry of a state for four bits, as a number. -/
def huffEntry (state : Byte) (n : Fin 16) : ℕ :=
  huffDecodeEntry state.toNat n

theorem kglHttpV2HuffDecodeCodes_ofNat (state : Byte) (n : Fin 16) :
    kglHttpV2HuffDecodeCodes state (UInt8.ofNat n) =
      { next := UInt8.ofNat (huffEntry state n / 2 ^ 24)
        emit := UInt8.ofNat (huffEntry state n / 2 ^ 16)
        sym := UInt8.ofNat (huffEntry state n / 2 ^ 8)
        ending := UInt8.ofNat (huffEntry state n) } := by
  have hn : (UInt8.ofNat (n : ℕ)).toNat = n := by
    rw [UInt8.toNat_ofNat']
    omega
  simp only [kglHttpV2HuffDecodeCodes, hn, huffEntry]

/-- The first byte of an entry is the state that follows. -/
theorem toNat_next (state : Byte) (n : Fin 16) :
    (UInt8.ofNat (huffEntry state n / 2 ^ 24)).toNat = huffEntry state n / 2 ^ 24 := by
  have h : huffEntry state n < 2 ^ 32 := huffDecodeEntry_lt state.toNat n
  rw [UInt8.toNat_ofNat']
  omega

/-! ## The code -/

/-- A code is at least five bits long. -/
theorem five_le_length_huffCode (ch : Byte) : 5 ≤ (huffCode ch).length := by
  have h := huffCode_ok ch
  simp only [huffCodeOk, Bool.and_eq_true, Nat.ble_eq] at h
  simpa [huffCode, kglHttpV2HuffEncodeTable, HuffEncodeCode.bits] using h.1.1

/-- A code is at most thirty bits long. -/
theorem length_huffCode_le (ch : Byte) : (huffCode ch).length ≤ 30 := by
  have h := huffCode_ok ch
  simp only [huffCodeOk, Bool.and_eq_true, Nat.ble_eq] at h
  simpa [huffCode, kglHttpV2HuffEncodeTable, HuffEncodeCode.bits] using h.1.2

/-- No code consists of ones only. -/
theorem huffCode_not_prefix_ones (ch : Byte) (k : ℕ) :
    ¬ huffCode ch <+: List.replicate k true := by
  intro hbegins
  have h := huffCode_ok ch
  simp only [huffCodeOk, Bool.and_eq_true, Nat.ble_eq] at h
  have hones : huffCode ch = List.replicate (huffCode ch).length true := by
    apply List.eq_replicate_length.mpr
    intro b hb
    exact List.eq_of_mem_replicate (hbegins.subset hb)
  rw [huffCode, kglHttpV2HuffEncodeTable, HuffEncodeCode.bits, length_bits] at hones
  have hmax := two_pow_le_of_bits_ones hones
  have hmod := Nat.mod_le (huffEncodeRow ch.toNat).code (2 ^ (huffEncodeRow ch.toNat).len)
  omega

/-- The tree of the code reads the code of a byte as its number. -/
theorem huffTree_read (ch : Byte) : huffTree.read (huffCode ch) = some (ch.toNat, []) := by
  have h := List.all_eq_true.mp huffTree_reads _ (List.mem_range.mpr ch.toNat_lt)
  rw [huffTreeReads, beq_iff_eq] at h
  exact h

/-- No code begins another. -/
theorem huffCode_prefixFree : PrefixFree huffCode :=
  huffTree.prefixFree (fun _ _ h => UInt8.toNat_inj.mp h) huffTree_read

/-! ## Entries of the automaton -/

/-- What a state has read of a code. -/
def pendingBits (state : Byte) : List Bool :=
  (huffPending state.toNat).bits

/-- The code of a state's pending bits fits its length. -/
theorem huffPending_lt {state : ℕ} (hstate : state < 256) :
    (huffPending state).code < 2 ^ (huffPending state).len := by
  have h := huffState_ok hstate
  simp only [huffStateOk, Bool.and_eq_true, Nat.ble_eq] at h
  exact h.1.1.1

theorem bits_four_append (state : Byte) (n : Fin 16) :
    pendingBits state ++ bits 4 n =
      bits ((huffPending state.toNat).len + 4) ((huffPending state.toNat).code * 16 + n) := by
  have h := bits_add (huffPending state.toNat).len 4 (huffPending state.toNat).code n (by omega)
  rw [show 2 ^ 4 = 16 from rfl] at h
  rw [pendingBits, HuffEncodeCode.bits, h]

theorem natBeq_eq_false {m n : ℕ} (h : m ≠ n) : m.beq n = false := by
  rw [Bool.eq_false_iff, ne_eq, Nat.beq_eq]
  exact h

/-- An entry that leads back to its state would complete thirty one bits. -/
theorem huffEntry_refused {state : Byte} {n : Fin 16}
    (h : huffEntry state n / 2 ^ 24 = state.toNat) :
    List.replicate 30 true <+: pendingBits state ++ bits 4 n := by
  have hok := huffEntry_ok state.toNat_lt n.isLt
  rw [huffEntryOk, ← huffEntry, h, Nat.beq_refl, cond_true, Bool.and_eq_true, Nat.ble_eq,
    Nat.beq_eq] at hok
  obtain ⟨hlen, hones⟩ := hok
  rw [bits_four_append]
  generalize (huffPending state.toNat).len = len at *
  generalize (huffPending state.toNat).code * 16 + n = w at *
  have hsplit := bits_add 30 (len - 26) (w / 2 ^ (len - 26)) (w % 2 ^ (len - 26))
    (Nat.mod_lt _ (Nat.two_pow_pos _))
  have hlen' : 30 + (len - 26) = len + 4 := by omega
  rw [Nat.div_add_mod', hones, hlen', bits_ones] at hsplit
  rw [hsplit]
  apply List.prefix_append

/-- Any other entry keeps what is read: it holds four bits more, or it emits the code they
complete. -/
theorem huffEntry_keeps {state : Byte} {n : Fin 16}
    (h : huffEntry state n / 2 ^ 24 ≠ state.toNat) :
    pendingBits state ++ bits 4 n =
      (if huffEntry state n / 2 ^ 16 % 256 = 0 then []
        else huffCode (UInt8.ofNat (huffEntry state n / 2 ^ 8))) ++
      pendingBits (UInt8.ofNat (huffEntry state n / 2 ^ 24)) := by
  have hok := huffEntry_ok state.toNat_lt n.isLt
  rw [huffEntryOk, ← huffEntry, natBeq_eq_false h, cond_false, Bool.and_eq_true] at hok
  have hnext : huffEntry state n / 2 ^ 24 < 256 := by
    rw [← toNat_next]
    apply UInt8.toNat_lt
  have hpending := huffPending_lt hnext
  rw [bits_four_append, pendingBits, toNat_next]
  split
  case isTrue hemit =>
    simp only [hemit, Nat.beq_refl, cond_true, Bool.and_eq_true, Nat.beq_eq] at hok
    obtain ⟨⟨hlen, hcode⟩, -⟩ := hok
    rw [← hlen, ← hcode]
    rfl
  case isFalse hemit =>
    simp only [natBeq_eq_false hemit, cond_false, Bool.and_eq_true, Nat.beq_eq] at hok
    obtain ⟨⟨hlen, hcode⟩, -⟩ := hok
    rw [hlen, hcode, bits_add _ _ _ _ hpending]
    rfl

/-- An entry that leaves less than a byte of ones pending may end the string. -/
theorem huffEntry_ending {state : Byte} {n : Fin 16} {k : ℕ}
    (h : huffEntry state n / 2 ^ 24 ≠ state.toNat) (hk : k < 8)
    (hones : pendingBits (UInt8.ofNat (huffEntry state n / 2 ^ 24)) = List.replicate k true) :
    UInt8.ofNat (huffEntry state n) ≠ 0 := by
  have hok := huffEntry_ok state.toNat_lt n.isLt
  rw [huffEntryOk, ← huffEntry, natBeq_eq_false h, cond_false, Bool.and_eq_true] at hok
  have hlast := hok.2
  simp only [Bool.or_eq_true, Nat.ble_eq] at hlast
  rw [pendingBits, toNat_next, HuffEncodeCode.bits] at hones
  have hlen : (huffPending (huffEntry state n / 2 ^ 24)).len = k := by
    simpa using congrArg List.length hones
  rw [← hlen] at hones
  have hmax := two_pow_le_of_bits_ones hones
  have hmod := Nat.mod_le (huffPending (huffEntry state n / 2 ^ 24)).code
    (2 ^ (huffPending (huffEntry state n / 2 ^ 24)).len)
  intro hzero
  have hbyte : (UInt8.ofNat (huffEntry state n)).toNat = 0 := by rw [hzero]; rfl
  rw [UInt8.toNat_ofNat'] at hbyte
  omega

/-- Four zero bits lead on from a state: to one that holds them too, or to the end of a code that
is longer than what the state has read. -/
theorem huffState_leads (state : Byte) :
    (∃ next, pendingBits state ++ bits 4 0 = pendingBits next ∧ (pendingBits state).length ≤ 29) ∨
      ∃ ch, pendingBits state <+: huffCode ch ∧
        (pendingBits state).length < (huffCode ch).length := by
  have hok := huffState_ok state.toNat_lt
  simp only [huffStateOk, Bool.and_eq_true, Bool.or_eq_true, Bool.not_eq_true', Nat.ble_eq,
    Nat.beq_eq] at hok
  obtain ⟨⟨⟨-, hlen⟩, hnext⟩, hemit⟩ := hok
  have hkeeps := huffEntry_keeps (n := 0) (Nat.ne_of_beq_eq_false hnext)
  split at hkeeps
  case isTrue => exact .inl ⟨_, hkeeps, by simpa [pendingBits, HuffEncodeCode.bits] using hlen⟩
  case isFalse hne =>
    have hlonger : (pendingBits state).length <
        (huffCode (UInt8.ofNat (huffEntry state 0 / 2 ^ 8))).length := by
      rw [huffCode, kglHttpV2HuffEncodeTable, UInt8.toNat_ofNat']
      simpa [pendingBits, HuffEncodeCode.bits, huffEntry] using
        Nat.lt_of_succ_le (hemit.resolve_left hne)
    refine .inr ⟨_, ?_, hlonger⟩
    apply List.prefix_of_prefix_length_le (List.prefix_append _ (bits 4 0)) _ hlonger.le
    rw [show bits 4 0 = bits 4 (0 : Fin 16) from rfl, hkeeps]
    apply List.prefix_append

/-- No code begins what a state has read. -/
theorem pendingBits_undecided (state : Byte) : Undecided huffCode (pendingBits state) := by
  -- a state that zero bits lead on from holds fewer bits than the next
  induction hk : 30 - (pendingBits state).length using Nat.strong_induction_on
    generalizing state with
  | _ k ih =>
    subst hk
    rcases huffState_leads state with ⟨next, hnext, hlen⟩ | ⟨ch, hch, hlonger⟩
    · have hlonger : (pendingBits next).length = (pendingBits state).length + 4 := by
        rw [← hnext, List.length_append, length_bits]
      apply (ih _ (by omega) next rfl).mono
      rw [← hnext]
      apply List.prefix_append
    · intro a ha
      obtain rfl := huffCode_prefixFree a ch (ha.trans hch)
      have := ha.length_le
      omega

/-! ## The decoder -/

/-- Less than a byte of ones. -/
def OnesPadding (y : List Bool) : Prop :=
  ∃ k < 8, y = List.replicate k true

/-- One step of the automaton in terms of its entry. -/
theorem huffDecodeBits_eq (r : HuffDecodeRun) (n : Fin 16) :
    huffDecodeBits kglHttpV2HuffDecodeCodes (UInt8.ofNat n) r =
      if huffEntry r.state n / 2 ^ 24 = r.state.toNat then none
      else some
        { state := UInt8.ofNat (huffEntry r.state n / 2 ^ 24)
          ending := UInt8.ofNat (huffEntry r.state n) != 0
          dst := r.dst ++
            if huffEntry r.state n / 2 ^ 16 % 256 = 0 then []
            else [UInt8.ofNat (huffEntry r.state n / 2 ^ 8)] } := by
  have hnext : UInt8.ofNat (huffEntry r.state n / 2 ^ 24) = r.state ↔
      huffEntry r.state n / 2 ^ 24 = r.state.toNat := by
    rw [← UInt8.toNat_inj, toNat_next]
  have hemit : UInt8.ofNat (huffEntry r.state n / 2 ^ 16) = 0 ↔
      huffEntry r.state n / 2 ^ 16 % 256 = 0 := by
    rw [← UInt8.toNat_inj, UInt8.toNat_ofNat']
    rfl
  simp only [huffDecodeBits, kglHttpV2HuffDecodeCodes_ofNat, hnext, bne_iff_ne, ne_eq, hemit]
  split
  · rfl
  · split <;> simp_all

/-- The automaton as a decoder of the code, four bits at a time. -/
def huffDecoder : Decoder huffCode OnesPadding HuffDecodeRun (Fin 16) where
  step r n := huffDecodeBits kglHttpV2HuffDecodeCodes (UInt8.ofNat n) r
  out r := r.dst
  pending r := pendingBits r.state
  word n := bits 4 n
  sound r n r' h := by
    rw [huffDecodeBits_eq] at h
    split at h
    case isTrue => cases h
    case isFalse hne =>
      obtain rfl := Option.some.inj h
      rw [huffEntry_keeps hne, List.flatMap_append, List.append_assoc]
      split <;> simp
  pending_undecided r := pendingBits_undecided r.state
  padding_undecided y hy := by
    obtain ⟨k, -, rfl⟩ := hy
    intro ch
    apply huffCode_not_prefix_ones
  refuses r n h msg y hy hbegins := by
    rw [huffDecodeBits_eq] at h
    split at h
    case isFalse => cases h
    case isTrue heq =>
      have hones := (huffEntry_refused heq).trans hbegins
      obtain ⟨k, hk, rfl⟩ := hy
      cases msg with
      | nil =>
        have := hones.length_le
        simp only [List.flatMap_nil, List.nil_append, List.length_replicate] at this
        omega
      | cons ch msg =>
        apply huffCode_not_prefix_ones ch 30
        rw [List.flatMap_cons, List.append_assoc] at hones
        apply List.prefix_of_prefix_length_le (List.prefix_append _ _) hones
        simpa using length_huffCode_le ch

theorem huffDecoder_step (r : HuffDecodeRun) (n : Fin 16) :
    huffDecoder.step r n = huffDecodeBits kglHttpV2HuffDecodeCodes (UInt8.ofNat n) r := rfl

/-! ## Bytes -/

/-- The bits of a byte, the highest first. -/
def byteBits (ch : Byte) : List Bool :=
  bits 8 ch.toNat

/-- The halves of a byte. -/
def nibbles (ch : Byte) : List (Fin 16) :=
  [⟨ch.toNat / 16, by have := ch.toNat_lt; omega⟩, ⟨ch.toNat % 16, by omega⟩]

theorem nibbles_bits (ch : Byte) : (nibbles ch).flatMap huffDecoder.word = byteBits ch := by
  have h := bits_add 4 4 (ch.toNat / 16) (ch.toNat % 16) (by omega)
  rw [show 2 ^ 4 = 16 from rfl, Nat.div_add_mod'] at h
  rw [byteBits, h]
  rfl

theorem flatMap_nibbles (src : Bytes) :
    (src.flatMap nibbles).flatMap huffDecoder.word = src.flatMap byteBits := by
  rw [List.flatMap_assoc]
  congr 1
  funext ch
  apply nibbles_bits

theorem shiftRight_four (ch : Byte) : ch >>> 4 = UInt8.ofNat (ch.toNat / 16) := by
  rw [← UInt8.toNat_inj, UInt8.toNat_shiftRight, UInt8.toNat_ofNat']
  have := ch.toNat_lt
  have hdiv : ch.toNat >>> 4 = ch.toNat / 16 := Nat.shiftRight_eq_div_pow _ 4
  rw [show (4 : UInt8).toNat % 8 = 4 from rfl, hdiv]
  omega

theorem and_fifteen (ch : Byte) : ch &&& 0xf = UInt8.ofNat (ch.toNat % 16) := by
  rw [← UInt8.toNat_inj, UInt8.toNat_and, UInt8.toNat_ofNat']
  have hmod : ch.toNat &&& 15 = ch.toNat % 16 := Nat.and_two_pow_sub_one_eq_mod _ 4
  rw [show (0xf : UInt8).toNat = 15 from rfl, hmod]
  omega

/-- The loop of `kgl_http_v2_huff_decode` runs the decoder over the halves of its bytes. -/
theorem huffDecodeLoop_eq (src : Bytes) (r : HuffDecodeRun) :
    huffDecodeLoop kglHttpV2HuffDecodeCodes src r =
      (src.flatMap nibbles).foldlM huffDecoder.step r := by
  induction src generalizing r with
  | nil => rfl
  | cons ch src ih =>
    rw [huffDecodeLoop, List.flatMap_cons, List.foldlM_append, shiftRight_four, and_fifteen]
    simp only [nibbles, List.foldlM_cons, List.foldlM_nil, huffDecoder]
    cases huffDecodeBits kglHttpV2HuffDecodeCodes (UInt8.ofNat (ch.toNat / 16)) r with
    | none => rfl
    | some r₁ =>
      simp only [Option.bind_eq_bind, Option.bind_some]
      cases huffDecodeBits kglHttpV2HuffDecodeCodes (UInt8.ofNat (ch.toNat % 16)) r₁ with
      | none => rfl
      | some r₂ => exact ih r₂

/-- Bits that fill their bytes are the bits of these. -/
theorem packBits_bits (x : List Bool) (hx : 8 ∣ x.length) : (packBits x).flatMap byteBits = x := by
  fun_induction packBits x with
  | case1 b₇ b₆ b₅ b₄ b₃ b₂ b₁ b₀ x ih =>
    have hlt : value [b₇, b₆, b₅, b₄, b₃, b₂, b₁, b₀] < 2 ^ 8 := value_lt _
    have hbyte : byteBits (UInt8.ofNat (value [b₇, b₆, b₅, b₄, b₃, b₂, b₁, b₀])) =
        [b₇, b₆, b₅, b₄, b₃, b₂, b₁, b₀] := by
      rw [byteBits, UInt8.toNat_ofNat', Nat.mod_eq_of_lt hlt]
      exact bits_value [b₇, b₆, b₅, b₄, b₃, b₂, b₁, b₀]
    rw [List.flatMap_cons, hbyte, ih]
    · rfl
    · simpa using hx
  | case2 x hshort =>
    rcases x with
      _ | ⟨b₇, _ | ⟨b₆, _ | ⟨b₅, _ | ⟨b₄, _ | ⟨b₃, _ | ⟨b₂, _ | ⟨b₁, _ | ⟨b₀, x⟩⟩⟩⟩⟩⟩⟩⟩
    case nil => rfl
    case cons.cons.cons.cons.cons.cons.cons.cons => cases hshort _ _ _ _ _ _ _ _ _ rfl
    all_goals
      simp only [List.length_cons, List.length_nil] at hx
      omega

/-- The bits of a Huffman text. -/
theorem huffText_bits (s : Bytes) :
    (huffText s).flatMap byteBits =
      s.flatMap huffCode ++ huffPadding (s.flatMap huffCode).length := by
  apply packBits_bits
  rw [List.length_append, huffPadding, List.length_replicate]
  omega

theorem huffPadding_ones (len : ℕ) : OnesPadding (huffPadding len) :=
  ⟨_, by omega, rfl⟩

/-! ## Reading a text in pieces -/

/-- A run that holds less than a byte of ones may end. -/
def MayEnd (r : HuffDecodeRun) : Prop :=
  OnesPadding (pendingBits r.state) → r.ending = true

theorem mayEnd_step {r r' : HuffDecodeRun} {n : Fin 16} (h : huffDecoder.step r n = some r') :
    MayEnd r' := by
  rw [huffDecoder_step, huffDecodeBits_eq] at h
  split at h
  case isTrue => cases h
  case isFalse hne =>
    obtain rfl := Option.some.inj h
    intro hones
    obtain ⟨k, hk, hones⟩ := hones
    rw [bne_iff_ne]
    exact huffEntry_ending hne hk hones

theorem mayEnd_foldlM {ns : List (Fin 16)} {r r' : HuffDecodeRun} (hr : MayEnd r)
    (h : ns.foldlM huffDecoder.step r = some r') : MayEnd r' := by
  induction ns generalizing r with
  | nil =>
    obtain rfl : r = r' := by simpa using h
    exact hr
  | cons n ns ih =>
    obtain ⟨r₁, h₁, h₂⟩ :
        ∃ r₁, huffDecoder.step r n = some r₁ ∧ ns.foldlM huffDecoder.step r₁ = some r' := by
      simpa [List.foldlM_cons, Option.bind_eq_some_iff] using h
    exact ih (mayEnd_step h₁) h₂

/-- The text that a state and the bytes already emitted stand for. -/
def huffRead (state : Byte) (dst : Bytes) : List Bool :=
  huffDecoder.text ⟨state, true, dst⟩

theorem huffDecoder_text (r : HuffDecodeRun) : huffDecoder.text r = huffRead r.state r.dst := rfl

theorem pendingBits_zero : pendingBits 0 = [] := rfl

/-- A piece of a Huffman text is read, and what is read grows by it. -/
theorem huffDecodeLoop_reads {state : Byte} {src dst msg : Bytes} {more y : List Bool}
    (hy : OnesPadding y)
    (h : huffRead state dst ++ (src.flatMap byteBits ++ more) = msg.flatMap huffCode ++ y) :
    ∃ r, huffDecodeLoop kglHttpV2HuffDecodeCodes src ⟨state, true, dst⟩ = some r ∧
      huffRead r.state r.dst = huffRead state dst ++ src.flatMap byteBits ∧ MayEnd r := by
  rw [← flatMap_nibbles] at h ⊢
  obtain ⟨r, hr⟩ := huffDecoder.exists_foldlM huffCode_prefixFree hy h
  have htext := huffDecoder.text_foldlM hr
  rw [huffDecoder_text r] at htext
  refine ⟨r, ?_, htext, mayEnd_foldlM (fun _ => rfl) hr⟩
  rw [huffDecodeLoop_eq]
  exact hr

/-- The pieces of what is missing in a Huffman text decode to the whole message. -/
theorem huffDecodePieces_reads {pieces : List Bytes} {state : Byte} {dst msg : Bytes}
    {y : List Bool} (hne : pieces ≠ []) (hy : OnesPadding y)
    (h : huffRead state dst ++ pieces.flatten.flatMap byteBits = msg.flatMap huffCode ++ y) :
    huffDecodePieces kglHttpV2HuffDecodeCodes pieces state dst = some (0, msg) := by
  induction pieces generalizing state dst with
  | nil => exact absurd rfl hne
  | cons piece pieces ih =>
    rw [List.flatten_cons, List.flatMap_append] at h
    obtain ⟨r, hr, hread, hend⟩ := huffDecodeLoop_reads hy h
    rw [← List.append_assoc, ← hread] at h
    rw [huffDecodePieces, huffDecode, hr]
    cases pieces with
    | nil =>
      -- the final piece: the message is out, and what is pending is the padding
      obtain ⟨hout, hpending⟩ := huffDecoder.out_eq (r := r) huffCode_prefixFree hy
        (by simpa [huffDecoder_text] using h)
      have hending : r.ending = true := by
        apply hend
        rw [← hpending] at hy
        exact hy
      have hdst : r.dst = msg := hout
      simp [hending, huffDecodePieces, hdst]
    | cons next pieces => exact ih (by simp) h

/-- **Huffman decoding inverts the code table.** However the Huffman text of `s` is cut into
pieces, decoding them one after the other succeeds, emits `s` and ends in the initial state. -/
theorem huffDecodePieces_huffText (s : Bytes) (pieces : List Bytes)
    (hpieces : pieces.flatten = huffText s) :
    huffDecodePieces kglHttpV2HuffDecodeCodes pieces 0 [] = some (0, s) := by
  have hread : huffRead 0 [] ++ pieces.flatten.flatMap byteBits =
      s.flatMap huffCode ++ huffPadding (s.flatMap huffCode).length := by
    rw [hpieces, huffText_bits]
    rfl
  cases pieces with
  | cons piece pieces =>
    apply huffDecodePieces_reads (by simp) (huffPadding_ones _) hread
  | nil =>
    -- an empty text: no piece, and nothing to decode
    cases s with
    | nil => rfl
    | cons ch s =>
      have hlen := congrArg List.length hread
      have hcode := five_le_length_huffCode ch
      simp only [huffRead, Decoder.text, huffDecoder, pendingBits_zero, List.flatten_nil,
        List.flatMap_nil, List.append_nil, List.length_nil, List.flatMap_cons,
        List.length_append] at hlen
      omega

/-- The line feed has the longest code; with its padding it is cut into three pieces here. -/
theorem huffDecodePieces_lineFeed :
    huffDecodePieces kglHttpV2HuffDecodeCodes [[0xff], [0xff, 0xff], [0xf3]] 0 [] =
      some (0, [0x0a]) :=
  huffDecodePieces_huffText [0x0a] [[0xff], [0xff, 0xff], [0xf3]] (by decide +kernel)

/-! ## The room that decoding takes -/

/-- A call that fails leaves what it emitted; one that succeeds returns it. -/
theorem huffDecodeLoop_eq_result (codes : HuffDecodeCodes) (src : Bytes) (r : HuffDecodeRun) :
    huffDecodeLoop codes src r =
      if (huffDecodeLoopResult codes src r).1 then some (huffDecodeLoopResult codes src r).2
      else none := by
  fun_induction huffDecodeLoopResult codes src r with
  | case1 r => rfl
  | case2 ch src r h => simp [huffDecodeLoop, h]
  | case3 ch src r r₁ h₁ h₂ => simp [huffDecodeLoop, h₁, h₂]
  | case4 ch src r r₁ h₁ r₂ h₂ ih => simpa [huffDecodeLoop, h₁, h₂] using ih

/-- `huffDecode` is the result of a call, without what a call that fails leaves behind. -/
theorem huffDecode_eq_result (codes : HuffDecodeCodes) (state : Byte) (src dst : Bytes)
    (last : Bool) :
    huffDecode codes state src dst last =
      if (huffDecodeResult codes state src dst last).ok then
        some ((huffDecodeResult codes state src dst last).state,
          (huffDecodeResult codes state src dst last).dst)
      else none := by
  rw [huffDecode, huffDecodeResult, huffDecodeLoop_eq_result]
  rcases huffDecodeLoopResult codes src ⟨state, true, dst⟩ with ⟨ok, r⟩
  cases ok
  · rfl
  · cases last
    · rfl
    · cases hending : r.ending <;> simp [hending]

/-- Four bits of input make the text longer by four. -/
theorem length_text_half {r r' : HuffDecodeRun} {half : Byte} {n : ℕ} (hn : n < 16)
    (hhalf : half = UInt8.ofNat n)
    (h : huffDecodeBits kglHttpV2HuffDecodeCodes half r = some r') :
    (huffDecoder.text r').length = (huffDecoder.text r).length + 4 := by
  subst hhalf
  rw [huffDecoder.text_step (b := ⟨n, hn⟩) h, List.length_append]
  rfl

/-- The loop reads eight bits in each byte, and fewer where it stops. -/
theorem length_text_loop (src : Bytes) (r : HuffDecodeRun) :
    (huffDecoder.text (huffDecodeLoopResult kglHttpV2HuffDecodeCodes src r).2).length ≤
      (huffDecoder.text r).length + 8 * src.length := by
  fun_induction huffDecodeLoopResult kglHttpV2HuffDecodeCodes src r with
  | case1 r => simp
  | case2 ch src r h => simp
  | case3 ch src r r₁ h₁ h₂ =>
    have hhigh := length_text_half (by have := ch.toNat_lt; omega) (shiftRight_four ch) h₁
    rw [List.length_cons, hhigh]
    omega
  | case4 ch src r r₁ h₁ r₂ h₂ ih =>
    have hhigh := length_text_half (by have := ch.toNat_lt; omega) (shiftRight_four ch) h₁
    have hlow := length_text_half (by omega) (and_fifteen ch) h₂
    rw [List.length_cons]
    omega

/-- A call makes the text longer by its bits at most; starting over only drops what is pending. -/
theorem length_huffRead_result (state : Byte) (src dst : Bytes) (last : Bool) :
    (huffRead (huffDecodeResult kglHttpV2HuffDecodeCodes state src dst last).state
        (huffDecodeResult kglHttpV2HuffDecodeCodes state src dst last).dst).length ≤
      (huffRead state dst).length + 8 * src.length := by
  have hloop := length_text_loop src ⟨state, true, dst⟩
  rw [huffDecodeResult]
  generalize huffDecodeLoopResult kglHttpV2HuffDecodeCodes src ⟨state, true, dst⟩ = p at hloop ⊢
  obtain ⟨ok, r⟩ := p
  have hzero : (huffRead 0 r.dst).length ≤ (huffRead r.state r.dst).length := by
    simp [huffRead, Decoder.text, huffDecoder, pendingBits_zero]
  have hr : (huffRead r.state r.dst).length ≤ (huffRead state dst).length + 8 * src.length := hloop
  cases ok
  case false => exact hr
  case true =>
    cases last
    case false => exact hr
    case true =>
      cases hending : r.ending
      · simpa [hending] using hr
      · simpa [hending] using hzero.trans hr

/-- What a sequence of calls has read is at most its input. -/
theorem length_huffRead_calls (calls : List (Bytes × Bool)) (state : Byte) (dst : Bytes) :
    (huffRead (huffDecodeCalls kglHttpV2HuffDecodeCodes calls state dst).state
        (huffDecodeCalls kglHttpV2HuffDecodeCodes calls state dst).dst).length ≤
      (huffRead state dst).length + 8 * (calls.flatMap Prod.fst).length := by
  induction calls generalizing state dst with
  | nil => simp [huffDecodeCalls]
  | cons call calls ih =>
    obtain ⟨src, last⟩ := call
    have hcall := length_huffRead_result state src dst last
    simp only [huffDecodeCalls, List.flatMap_cons, List.length_append]
    split
    · have hrest := ih (huffDecodeResult kglHttpV2HuffDecodeCodes state src dst last).state
        (huffDecodeResult kglHttpV2HuffDecodeCodes state src dst last).dst
      omega
    · omega

/-- **Huffman output fits its buffer.** However input of `n` bytes is cut into calls, and wherever
one of them fails, at most `n * 8 / 5` bytes are emitted, which leaves room for the NUL. -/
theorem huffDecodeCalls_fits (calls : List (Bytes × Bool)) :
    (huffDecodeCalls kglHttpV2HuffDecodeCodes calls 0 []).dst.length ≤
        (calls.flatMap Prod.fst).length * 8 / 5 ∧
      (huffDecodeCalls kglHttpV2HuffDecodeCodes calls 0 []).dst.length + 1 ≤
        fieldAlloc true (calls.flatMap Prod.fst).length := by
  have hread := length_huffRead_calls calls 0 []
  have hzero : huffRead 0 [] = [] := rfl
  have hout := huffDecoder.mul_length_out_le five_le_length_huffCode
    ⟨(huffDecodeCalls kglHttpV2HuffDecodeCodes calls 0 []).state, true,
      (huffDecodeCalls kglHttpV2HuffDecodeCodes calls 0 []).dst⟩
  have hfive : 5 * (huffDecodeCalls kglHttpV2HuffDecodeCodes calls 0 []).dst.length ≤
      8 * (calls.flatMap Prod.fst).length := by
    rw [hzero] at hread
    exact hout.trans (hread.trans (by simp))
  simp only [fieldAlloc, if_true]
  omega

end Khttpd
