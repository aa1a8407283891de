import Khttpd.Model.Dechunk

/-!
# Dechunking undoes chunking

What a sender may put on the wire for a body is a `ChunkedBody`. The engine reads it one byte at a
time: `Pending` says what is still to come from each state of the engine, a call of the engine
keeps it, and so does a call of `KDechunkContext::read` over any cuts of the input.
-/

set_option autoImplicit false

namespace Khttpd

/-! ## Chunked bodies -/

/-- The line end of a sender. -/
def crlf : Bytes := [13, 10]

/-- The number that hexadecimal digits say. -/
def hexValue (digits : Bytes) : ℕ :=
  digits.foldl (fun value ch => value * 16 + (hexDigit ch).getD 0) 0

/-- The digits and the extension of a size line. -/
structure SizeLine where
  digits : Bytes
  ext : Bytes
  digits_ne : digits ≠ []
  digits_hex : ∀ ch ∈ digits, (hexDigit ch).isSome
  ext_line : 10 ∉ ext
  ext_head : ∀ ch ∈ ext.head?, hexDigit ch = none

/-- A size line on the wire. -/
def SizeLine.encode (l : SizeLine) : Bytes := l.digits ++ l.ext ++ crlf

/-- A chunk with bytes. -/
structure Chunk where
  size : SizeLine
  data : Bytes
  data_ne : data ≠ []
  data_length : data.length ≤ maxChunkSize.toNat
  size_value : hexValue size.digits = data.length

/-- A chunk on the wire. -/
def Chunk.encode (c : Chunk) : Bytes := c.size.encode ++ c.data ++ crlf

/-- A trailer line: a name, a colon, spaces and a value. -/
structure TrailerLine where
  name : Bytes
  spaces : ℕ
  value : Bytes
  name_ne : name ≠ []
  name_line : 10 ∉ name
  name_colon : 58 ∉ name
  name_head : ∀ ch ∈ name.head?, isSpace ch = false
  value_line : 10 ∉ value
  value_head : ∀ ch ∈ value.head?, khttpIsSpace ch = false
  value_last : ∀ ch ∈ value.getLast?, isSpace ch = false

/-- A trailer line without its line end. -/
def TrailerLine.text (t : TrailerLine) : Bytes :=
  t.name ++ 58 :: (List.replicate t.spaces 32 ++ t.value)

/-- A trailer line on the wire. -/
def TrailerLine.encode (t : TrailerLine) : Bytes := t.text ++ crlf

/-- The name and the value of a trailer line. -/
def TrailerLine.field (t : TrailerLine) : Bytes × Bytes := (t.name, t.value)

/-- Both parts of a trailer line are within the size limit of a header. -/
def TrailerLine.Fits (t : TrailerLine) : Prop :=
  t.name.length ≤ maxHeaderAttrValSize ∧ t.value.length ≤ maxHeaderAttrValSize

instance (t : TrailerLine) : Decidable t.Fits := inferInstanceAs (Decidable (_ ∧ _))

/-- A body: chunks, the size line of the last chunk, and trailers. -/
structure ChunkedBody where
  chunks : List Chunk
  last : SizeLine
  trailers : List TrailerLine
  last_zero : hexValue last.digits = 0

namespace ChunkedBody

/-- The bytes that the body stands for. -/
def payload (b : ChunkedBody) : Bytes := b.chunks.flatMap Chunk.data

/-- A body on the wire, up to the end of its blank line. -/
def encode (b : ChunkedBody) : Bytes :=
  b.chunks.flatMap Chunk.encode ++
    (b.last.encode ++ (b.trailers.flatMap TrailerLine.encode ++ crlf))

end ChunkedBody

/-! ## States of the engine -/

/-- What the word of the engine stands for. -/
inductive ChunkState
  /-- Before a size line. -/
  | start
  /-- In the digits of a size line. -/
  | size (value : ℕ)
  /-- Behind the digits of a size line. -/
  | ext (value : ℕ)
  /-- In the bytes of a chunk. -/
  | data (left : ℕ)
  /-- Behind the bytes of a chunk. -/
  | dataEnd
  /-- In the trailers. -/
  | last

namespace ChunkState

/-- The word of the engine. -/
def word : ChunkState → BitVec 32
  | start => chunkReadSize
  | size value => BitVec.ofNat 32 value ||| chunkPartSize
  | ext value => BitVec.ofNat 32 value ||| chunkPartSizeEnd
  | data left => BitVec.ofNat 32 left
  | dataEnd => chunkReadEnd
  | last => chunkReadLast

/-- The number in a state is one that the word has room for. -/
def Fits : ChunkState → Prop
  | size value | ext value => value ≤ maxChunkSize.toNat
  | data left => 0 < left ∧ left ≤ maxChunkSize.toNat
  | _ => True

end ChunkState

/-- A chunk size does not touch the state bits. -/
theorem ofNat_and_statusBits {n : ℕ} (h : n ≤ maxChunkSize.toNat) :
    BitVec.ofNat 32 n &&& chunkStatusPrefix = 0 := by
  have hlt : n < 2 ^ 29 := Nat.lt_of_le_of_lt h (by decide)
  apply BitVec.eq_of_getLsbD_eq
  intro i hi
  have hprefix : chunkStatusPrefix = BitVec.ofNat 32 (7 <<< 29) := by decide
  rw [BitVec.getLsbD_and, hprefix, BitVec.getLsbD_ofNat, BitVec.getLsbD_ofNat]
  by_cases h29 : 29 ≤ i
  · have hbit : n.testBit i = false :=
      Nat.testBit_lt_two_pow (Nat.lt_of_lt_of_le hlt (Nat.pow_le_pow_right (by decide) h29))
    simp [hbit]
  · have hbit : (7 <<< 29).testBit i = false := by
      rw [Nat.testBit_shiftLeft]
      simp [h29]
    rw [hbit, Bool.and_false, Bool.and_false]
    exact (BitVec.getLsbD_zero).symm

/-- Masks within the state bits do not see a chunk size. -/
theorem ofNat_and_mask {n : ℕ} (h : n ≤ maxChunkSize.toNat) {mask : BitVec 32}
    (hmask : chunkStatusPrefix &&& mask = mask) : BitVec.ofNat 32 n &&& mask = 0 := by
  rw [← hmask, ← BitVec.and_assoc, ofNat_and_statusBits h]
  exact BitVec.zero_and

/-- Clearing the state bits leaves a chunk size as it is. -/
theorem ofNat_and_not_statusBits {n : ℕ} (h : n ≤ maxChunkSize.toNat) :
    BitVec.ofNat 32 n &&& ~~~chunkStatusPrefix = BitVec.ofNat 32 n := by
  have hall : chunkStatusPrefix ||| ~~~chunkStatusPrefix = BitVec.allOnes 32 := by decide
  calc BitVec.ofNat 32 n &&& ~~~chunkStatusPrefix
      = (BitVec.ofNat 32 n &&& chunkStatusPrefix) |||
          (BitVec.ofNat 32 n &&& ~~~chunkStatusPrefix) := by
        rw [ofNat_and_statusBits h]
        exact BitVec.zero_or.symm
    _ = BitVec.ofNat 32 n := by
        rw [← BitVec.and_or_distrib_left, hall, BitVec.and_allOnes]

/-- The state bits of a word that carries a chunk size. -/
theorem ofNat_or_and_mask {n : ℕ} (h : n ≤ maxChunkSize.toNat) (bits : BitVec 32)
    {mask : BitVec 32} (hmask : chunkStatusPrefix &&& mask = mask) :
    (BitVec.ofNat 32 n ||| bits) &&& mask = bits &&& mask := by
  rw [BitVec.and_or_distrib_right, ofNat_and_mask h hmask]
  exact BitVec.zero_or

/-- The chunk size of a word that carries one. -/
theorem ofNat_or_and_not_statusBits {n : ℕ} (h : n ≤ maxChunkSize.toNat) {bits : BitVec 32}
    (hbits : bits &&& ~~~chunkStatusPrefix = 0) :
    (BitVec.ofNat 32 n ||| bits) &&& ~~~chunkStatusPrefix = BitVec.ofNat 32 n := by
  rw [BitVec.and_or_distrib_right, ofNat_and_not_statusBits h, hbits]
  exact BitVec.or_zero

/-- The number of a word is the number it carries. -/
theorem toNat_ofNat_chunk {n : ℕ} (h : n ≤ maxChunkSize.toNat) : (BitVec.ofNat 32 n).toNat = n := by
  rw [BitVec.toNat_ofNat]
  exact Nat.mod_eq_of_lt (Nat.lt_of_le_of_lt h (by decide))

/-- A word that carries a chunk size is zero where the size is. -/
theorem ofNat_eq_zero {n : ℕ} (h : n ≤ maxChunkSize.toNat) : BitVec.ofNat 32 n = 0 ↔ n = 0 := by
  constructor
  · intro hzero
    have hnat := congrArg BitVec.toNat hzero
    rw [toNat_ofNat_chunk h] at hnat
    exact hnat
  · intro hzero
    rw [hzero]
    rfl

/-- What is left of a chunk, in the word. -/
theorem ofNat_sub {left k : ℕ} (hmax : left ≤ maxChunkSize.toNat) (hk : k ≤ left) :
    BitVec.ofNat 32 left - BitVec.ofNat 32 k = BitVec.ofNat 32 (left - k) := by
  apply BitVec.eq_of_toNat_eq
  have hlt : left < 2 ^ 32 := Nat.lt_of_le_of_lt hmax (by decide)
  rw [BitVec.toNat_sub_of_le, BitVec.toNat_ofNat, BitVec.toNat_ofNat, BitVec.toNat_ofNat,
    Nat.mod_eq_of_lt hlt, Nat.mod_eq_of_lt (by omega), Nat.mod_eq_of_lt (by omega)]
  rw [BitVec.le_def, BitVec.toNat_ofNat, BitVec.toNat_ofNat, Nat.mod_eq_of_lt hlt,
    Nat.mod_eq_of_lt (by omega)]
  exact hk

/-- `KHTTPD_CHUNK_STATUS`: the state bits that all named states but the first have. -/
def chunkStatus : BitVec 32 := 0xC0000000

/-- A word that carries a chunk size is none of the named states. -/
theorem ofNat_or_and_status {n : ℕ} (h : n ≤ maxChunkSize.toNat) (bits : BitVec 32)
    (hbits : bits &&& chunkStatus ≠ chunkStatus) :
    (BitVec.ofNat 32 n ||| bits) &&& chunkStatus ≠ chunkStatus := by
  rw [ofNat_or_and_mask h bits (by decide)]
  exact hbits

/-- Without the state bits of the named states the default case is taken. -/
theorem dechunk_of_status {w : BitVec 32} (h : w &&& chunkStatus ≠ chunkStatus) (buf : Bytes)
    (length : ℕ) : dechunk w buf length = dechunkSize w buf length := by
  have hne : ∀ {w' : BitVec 32}, w' &&& chunkStatus = chunkStatus → w ≠ w' := by
    rintro w' hw' rfl
    exact h hw'
  unfold dechunk
  rw [if_neg (hne (by decide)), if_neg (hne (by decide)), if_neg (hne (by decide)),
    if_neg (hne (by decide))]

/-- In the bytes of a chunk, they are handed over. -/
theorem dechunk_of_data {left : ℕ} (hpos : 0 < left) (hmax : left ≤ maxChunkSize.toNat)
    (buf : Bytes) (length : ℕ) :
    dechunk (BitVec.ofNat 32 left) buf length = dechunkData (BitVec.ofNat 32 left) buf length := by
  have hstatus : BitVec.ofNat 32 left &&& chunkStatus ≠ chunkStatus := by
    rw [ofNat_and_mask hmax (by decide)]
    decide
  have hcond : ¬(BitVec.ofNat 32 left = chunkReadSize ∨
      BitVec.ofNat 32 left &&& chunkPartSize = chunkPartSize) := by
    rintro (hzero | hpart)
    · exact absurd ((ofNat_eq_zero hmax).mp hzero) (Nat.ne_of_gt hpos)
    · rw [ofNat_and_mask hmax (by decide)] at hpart
      exact absurd hpart (by decide)
  rw [dechunk_of_status hstatus, dechunkSize, if_neg hcond]

/-! ## What is still to come -/

/-- From a state of the engine the input still says `payload` and the trailer lines `pieces`, and
then goes on with `tail`. -/
inductive Pending (tail : Bytes) : ChunkState → Bytes → Bytes → List Bytes → Prop
  | start {ch : Byte} {digit : ℕ} {input payload : Bytes} {pieces : List Bytes}
      (hdigit : hexDigit ch = some digit) (h : Pending tail (.size digit) input payload pieces) :
      Pending tail .start (ch :: input) payload pieces
  | digit {value : ℕ} {ch : Byte} {digit : ℕ} {input payload : Bytes} {pieces : List Bytes}
      (hdigit : hexDigit ch = some digit) (hfits : value * 16 + digit ≤ maxChunkSize.toNat)
      (h : Pending tail (.size (value * 16 + digit)) input payload pieces) :
      Pending tail (.size value) (ch :: input) payload pieces
  | extHead {value : ℕ} {ch : Byte} {input payload : Bytes} {pieces : List Bytes}
      (hline : ch ≠ 10) (hdigit : hexDigit ch = none)
      (h : Pending tail (.ext value) input payload pieces) :
      Pending tail (.size value) (ch :: input) payload pieces
  | ext {value : ℕ} {ch : Byte} {input payload : Bytes} {pieces : List Bytes}
      (hline : ch ≠ 10) (h : Pending tail (.ext value) input payload pieces) :
      Pending tail (.ext value) (ch :: input) payload pieces
  | sizeEnd {value : ℕ} {input payload : Bytes} {pieces : List Bytes} (hpos : 0 < value)
      (h : Pending tail (.data value) input payload pieces) :
      Pending tail (.ext value) (10 :: input) payload pieces
  | lastEnd {input : Bytes} {pieces : List Bytes} (h : Pending tail .last input [] pieces) :
      Pending tail (.ext 0) (10 :: input) [] pieces
  | data {ch : Byte} {left : ℕ} {input payload : Bytes} {pieces : List Bytes} (hpos : 0 < left)
      (h : Pending tail (.data left) input payload pieces) :
      Pending tail (.data (left + 1)) (ch :: input) (ch :: payload) pieces
  | dataLast {ch : Byte} {input payload : Bytes} {pieces : List Bytes}
      (h : Pending tail .dataEnd input payload pieces) :
      Pending tail (.data 1) (ch :: input) (ch :: payload) pieces
  | dataEnd {ch : Byte} {input payload : Bytes} {pieces : List Bytes} (hline : ch ≠ 10)
      (h : Pending tail .dataEnd input payload pieces) :
      Pending tail .dataEnd (ch :: input) payload pieces
  | nextSize {input payload : Bytes} {pieces : List Bytes}
      (h : Pending tail .start input payload pieces) :
      Pending tail .dataEnd (10 :: input) payload pieces
  | trailer {line input : Bytes} {pieces : List Bytes} (hline : 10 ∉ line)
      (hvisible : 1 < ((line.dropWhile isSpace).rdropWhile isSpace).length)
      (h : Pending tail .last input [] pieces) :
      Pending tail .last (line ++ 10 :: input) []
        ((line.dropWhile isSpace).rdropWhile isSpace :: pieces)
  | blank : Pending tail .last (13 :: 10 :: tail) [] []

/-- There is always something to come. -/
theorem Pending.input_ne {tail input payload : Bytes} {st : ChunkState} {pieces : List Bytes}
    (h : Pending tail st input payload pieces) : input ≠ [] := by
  cases h <;> simp

/-! ## A call of the engine -/

/-- What a call of the engine may answer when `rest` comes after its input. -/
inductive Answer (tail rest payload : Bytes) (pieces : List Bytes) (out : DechunkOut) : Prop
  /-- All is taken but for the part of a trailer line, and more is needed. -/
  | more (st : ChunkState) (hfits : st.Fits) (hword : out.chunkSize = st.word)
      (hresult : out.result = .continue) (h : Pending tail st (out.rest ++ rest) payload pieces)
      (hneed : out.rest = [] ∨ st = .last ∧ 10 ∉ out.rest)
  /-- Bytes of the payload. -/
  | piece (piece left : Bytes) (hne : piece ≠ []) (hpayload : payload = piece ++ left)
      (st : ChunkState) (hfits : st.Fits) (hword : out.chunkSize = st.word)
      (hresult : out.result = .success piece) (h : Pending tail st (out.rest ++ rest) left pieces)
  /-- A trailer line. -/
  | trailer (piece : Bytes) (left : List Bytes) (hpieces : pieces = piece :: left)
      (hword : out.chunkSize = chunkReadLast) (hresult : out.result = .trailer piece)
      (h : Pending tail .last (out.rest ++ rest) payload left)
  /-- The end. -/
  | done (hpayload : payload = []) (hpieces : pieces = []) (hword : out.chunkSize = chunkIsEnd)
      (hresult : out.result = .end) (htail : out.rest ++ rest = tail)

/-- The trailers are read line by line. -/
theorem dechunkLast_pending {tail rest payload buf : Bytes} {pieces : List Bytes}
    (h : Pending tail .last (buf ++ rest) payload pieces) :
    Answer tail rest payload pieces (dechunkLast buf) := by
  unfold dechunkLast
  cases hline : memchr 10 buf with
  | none => exact .more .last trivial rfl rfl h (Or.inr ⟨rfl, memchr_eq_none hline⟩)
  | some r =>
    obtain ⟨line, left⟩ := r
    obtain ⟨hnone, hbuf⟩ := memchr_eq_some hline
    have hcut : ∀ {line' input : Bytes}, 10 ∉ line' → line' ++ 10 :: input = buf ++ rest →
        line' = line ∧ input = left ++ rest := by
      intro line' input hnone' heq
      have hfound := memchr_append hnone' input
      rw [heq, hbuf, List.append_assoc, List.cons_append, memchr_append hnone] at hfound
      cases hfound
      exact ⟨rfl, rfl⟩
    dsimp only
    generalize hinput : buf ++ rest = input at h hcut
    cases h with
    | trailer hline' hvisible h =>
      obtain ⟨hl, hi⟩ := hcut hline' rfl
      subst hl hi
      rw [if_neg (Nat.not_le.mpr hvisible)]
      exact .trailer _ _ rfl rfl rfl h
    | blank =>
      have hcr : (10 : Byte) ∉ ([13] : Bytes) := by decide
      obtain ⟨hl, hi⟩ := hcut hcr rfl
      subst hl
      rw [if_pos (by decide)]
      exact .done rfl rfl rfl rfl hi.symm

/-- Where the engine is after some bytes of a chunk. -/
def afterData (left taken : ℕ) : ChunkState :=
    if left = taken then .dataEnd else .data (left - taken)

/-- Bytes of a chunk are bytes of the payload. -/
theorem Pending.take_data {tail input payload piece : Bytes} {pieces : List Bytes} {left : ℕ}
    (h : Pending tail (.data left) (piece ++ input) payload pieces) (hne : piece ≠ [])
    (hle : piece.length ≤ left) :
    ∃ payload', payload = piece ++ payload' ∧
      Pending tail (afterData left piece.length) input payload' pieces := by
  induction piece generalizing left payload with
  | nil => exact absurd rfl hne
  | cons ch piece ih =>
    cases h with
    | @data _ left _ payload _ hpos h =>
      by_cases hpiece : piece = []
      · subst hpiece
        refine ⟨payload, rfl, ?_⟩
        have hstate : afterData (left + 1) [ch].length = .data left := by
          rw [afterData, if_neg (by simp only [List.length_singleton]; omega)]
          rfl
        rw [hstate]
        exact h
      · obtain ⟨payload', heq, hrest⟩ := ih h hpiece (Nat.le_of_succ_le_succ hle)
        refine ⟨payload', by rw [heq]; rfl, ?_⟩
        have hstate : afterData (left + 1) (ch :: piece).length = afterData left piece.length := by
          simp only [afterData, List.length_cons, Nat.add_right_cancel_iff, Nat.add_sub_add_right]
        rw [hstate]
        exact hrest
    | dataLast h =>
      have hpiece : piece = [] := List.eq_nil_of_length_eq_zero (by simpa using hle)
      subst hpiece
      exact ⟨_, rfl, h⟩

/-- The bytes of a chunk are handed over in order. -/
theorem dechunkData_pending {tail rest payload buf : Bytes} {pieces : List Bytes} {left : ℕ}
    (hfits : (ChunkState.data left).Fits) {length : ℕ} (hlength : 0 < length)
    (h : Pending tail (.data left) (buf ++ rest) payload pieces) :
    Answer tail rest payload pieces (dechunkData (BitVec.ofNat 32 left) buf length) := by
  obtain ⟨hpos, hmax⟩ := hfits
  unfold dechunkData
  rw [toNat_ofNat_chunk hmax]
  dsimp only
  by_cases hbuf : min left buf.length = 0
  · have hnil : buf = [] := List.eq_nil_of_length_eq_zero (by omega)
    rw [if_pos hbuf]
    exact .more (.data left) ⟨hpos, hmax⟩ rfl rfl h (Or.inl hnil)
  · rw [if_neg hbuf]
    obtain ⟨k, hk⟩ : ∃ k, k = min length (min left buf.length) := ⟨_, rfl⟩
    rw [← hk]
    have hklen : (buf.take k).length = k := by
      rw [List.length_take]
      omega
    have hne : buf.take k ≠ [] := List.ne_nil_of_length_pos (by omega)
    have hcut : buf ++ rest = buf.take k ++ (buf.drop k ++ rest) := by
      rw [← List.append_assoc, List.take_append_drop]
    rw [hcut] at h
    obtain ⟨payload', hpayload, hrest⟩ := h.take_data hne (by omega)
    rw [hklen, afterData] at hrest
    by_cases hend : left = k
    · rw [if_pos hend] at hrest
      refine .piece _ payload' hne hpayload .dataEnd trivial ?_ rfl hrest
      rw [ofNat_sub hmax (by omega), hend, Nat.sub_self]
      rfl
    · rw [if_neg hend] at hrest
      refine .piece _ payload' hne hpayload (.data (left - k)) ⟨by omega, by omega⟩ ?_ rfl hrest
      have hnz : BitVec.ofNat 32 (left - k) ≠ 0 := by
        rw [Ne, ofNat_eq_zero (by omega)]
        omega
      rw [ofNat_sub hmax (by omega)]
      exact if_neg hnz

/-- What the loop over a size line leaves. -/
inductive SizeAnswer (tail rest payload : Bytes) (pieces : List Bytes) :
    DechunkOut × Bool → Prop
  /-- The line goes on. -/
  | more (st : ChunkState) (hfits : st.Fits) (h : Pending tail st rest payload pieces) :
      SizeAnswer tail rest payload pieces (⟨st.word, [], .continue⟩, false)
  /-- A chunk follows. -/
  | data (left : ℕ) (hfits : (ChunkState.data left).Fits) (buf : Bytes)
      (h : Pending tail (.data left) (buf ++ rest) payload pieces) :
      SizeAnswer tail rest payload pieces (⟨BitVec.ofNat 32 left, buf, .continue⟩, true)
  /-- It was the last size line. -/
  | last (buf : Bytes) (h : Pending tail .last (buf ++ rest) payload pieces) :
      SizeAnswer tail rest payload pieces (⟨0, buf, .continue⟩, true)

/-- The states in a size line. -/
def ChunkState.InSize : ChunkState → Prop
  | start | size _ | ext _ => True
  | _ => False

/-- A digit, in the word of the engine. -/
theorem word_digit {value digit : ℕ} {w : BitVec 32}
    (hw : w &&& ~~~chunkStatusPrefix = BitVec.ofNat 32 value) :
    (w &&& ~~~chunkStatusPrefix) * 16 + BitVec.ofNat 32 digit =
      BitVec.ofNat 32 (value * 16 + digit) := by
  rw [hw, BitVec.ofNat_add, BitVec.ofNat_mul]
  rfl

/-- The value of a digit. -/
theorem hexDigit_lt {ch : Byte} {digit : ℕ} (h : hexDigit ch = some digit) : digit < 16 := by
  unfold hexDigit at h
  split at h
  · rename_i hch
    have hle : ch.toNat ≤ 57 := UInt8.le_iff_toNat_le.mp hch.2
    cases h
    omega
  · dsimp only at h
    split at h
    · rename_i hch
      have hle : (ch ||| 0x20).toNat ≤ 102 := UInt8.le_iff_toNat_le.mp hch.2
      cases h
      omega
    · cases h

/-- A digit does not end a line. -/
theorem ne_newline_of_hexDigit {ch : Byte} {digit : ℕ} (h : hexDigit ch = some digit) :
    ch ≠ 10 := by
  intro hch
  rw [hch] at h
  cases h

/-- One digit of a size line. -/
theorem dechunkSizeLoop_digit {w : BitVec 32} {value digit : ℕ} {ch : Byte} {buf : Bytes}
    (hdigit : hexDigit ch = some digit) (hfits : value * 16 + digit ≤ maxChunkSize.toNat)
    (hpart : w &&& chunkPartSizeEnd ≠ chunkPartSizeEnd)
    (hw : w &&& ~~~chunkStatusPrefix = BitVec.ofNat 32 value) :
    dechunkSizeLoop w (ch :: buf) =
      dechunkSizeLoop (ChunkState.size (value * 16 + digit)).word buf := by
  have hmax : ¬BitVec.ofNat 32 (value * 16 + digit) > maxChunkSize := by
    rw [gt_iff_lt, BitVec.lt_def, toNat_ofNat_chunk hfits]
    exact Nat.not_lt.mpr hfits
  rw [dechunkSizeLoop, if_neg (ne_newline_of_hexDigit hdigit), if_neg hpart, hdigit]
  dsimp only
  rw [word_digit hw, if_neg hmax]
  rfl

/-- A size line is read byte by byte. -/
theorem dechunkSizeLoop_pending {tail rest payload buf : Bytes} {pieces : List Bytes}
    {st : ChunkState} (hfits : st.Fits) (hsize : st.InSize)
    (h : Pending tail st (buf ++ rest) payload pieces) :
    SizeAnswer tail rest payload pieces (dechunkSizeLoop st.word buf) := by
  induction buf generalizing st with
  | nil => exact .more st hfits h
  | cons ch buf ih =>
    generalize hinput : ch :: buf ++ rest = input at h
    cases h with
    | @start _ digit _ _ _ hdigit h =>
      cases hinput
      have hfits' : 0 * 16 + digit ≤ maxChunkSize.toNat := by
        have hlt := hexDigit_lt hdigit
        have hmax : 16 ≤ maxChunkSize.toNat := by decide
        omega
      rw [dechunkSizeLoop_digit hdigit hfits' (by decide) (by decide)]
      rw [← Nat.zero_add digit, ← Nat.zero_mul 16] at h
      exact ih (show (ChunkState.size (0 * 16 + digit)).Fits from hfits') trivial h
    | @digit value _ digit _ _ _ hdigit hfits' h =>
      cases hinput
      have hpart : (ChunkState.size value).word &&& chunkPartSizeEnd ≠ chunkPartSizeEnd := by
        rw [ChunkState.word, ofNat_or_and_mask hfits _ (by decide)]
        decide
      rw [dechunkSizeLoop_digit hdigit hfits' hpart (ofNat_or_and_not_statusBits hfits (by decide))]
      exact ih (show (ChunkState.size (value * 16 + digit)).Fits from hfits') trivial h
    | @extHead value _ _ _ _ hline hdigit h =>
      cases hinput
      have hpart : (ChunkState.size value).word &&& chunkPartSizeEnd ≠ chunkPartSizeEnd := by
        rw [ChunkState.word, ofNat_or_and_mask hfits _ (by decide)]
        decide
      have hword : (ChunkState.size value).word ||| chunkPartSizeEnd =
          (ChunkState.ext value).word := by
        rw [ChunkState.word, BitVec.or_assoc]
        rfl
      rw [dechunkSizeLoop, if_neg hline, if_neg hpart, hdigit]
      dsimp only
      rw [hword]
      exact ih (show (ChunkState.ext value).Fits from hfits) trivial h
    | @ext value _ _ _ _ hline h =>
      cases hinput
      have hpart : (ChunkState.ext value).word &&& chunkPartSizeEnd = chunkPartSizeEnd := by
        rw [ChunkState.word, ofNat_or_and_mask hfits _ (by decide)]
        decide
      rw [dechunkSizeLoop, if_neg hline, if_pos hpart]
      exact ih (show (ChunkState.ext value).Fits from hfits) trivial h
    | @sizeEnd value _ _ _ hpos h =>
      cases hinput
      have hclear : (ChunkState.ext value).word &&& ~~~chunkStatusPrefix = BitVec.ofNat 32 value :=
        ofNat_or_and_not_statusBits hfits (by decide)
      rw [dechunkSizeLoop, if_pos rfl, hclear]
      exact .data value ⟨hpos, hfits⟩ buf h
    | lastEnd h =>
      cases hinput
      have hclear : (ChunkState.ext 0).word &&& ~~~chunkStatusPrefix = 0 := by decide
      rw [dechunkSizeLoop, if_pos rfl, hclear]
      exact .last buf h
    | data | dataLast | dataEnd | nextSize | trailer | blank => exact hsize.elim

/-- A size line and what follows it. -/
theorem dechunkSize_pending {tail rest payload buf : Bytes} {pieces : List Bytes}
    {st : ChunkState} (hfits : st.Fits) (hsize : st.InSize) {length : ℕ} (hlength : 0 < length)
    (h : Pending tail st (buf ++ rest) payload pieces) :
    Answer tail rest payload pieces (dechunkSize st.word buf length) := by
  have hcond : st.word = chunkReadSize ∨ st.word &&& chunkPartSize = chunkPartSize := by
    cases st with
    | start => exact Or.inl rfl
    | size value | ext value =>
      right
      rw [ChunkState.word, ofNat_or_and_mask hfits _ (by decide)]
      decide
    | data | dataEnd | last => exact hsize.elim
  have hloop := dechunkSizeLoop_pending hfits hsize h
  unfold dechunkSize
  rw [if_pos hcond]
  generalize dechunkSizeLoop st.word buf = out at hloop
  cases hloop with
  | more st' hfits' h' => exact .more st' hfits' rfl rfl h' (Or.inl rfl)
  | data left hfits' buf' h' =>
    dsimp only
    rw [if_neg (mt (ofNat_eq_zero hfits'.2).mp (Nat.ne_of_gt hfits'.1))]
    exact dechunkData_pending hfits' hlength h'
  | last buf' h' =>
    dsimp only
    rw [if_pos rfl]
    exact dechunkLast_pending h'

/-- The end of a chunk is skipped up to its newline. -/
theorem Pending.dataEnd_memchr {tail rest payload buf : Bytes} {pieces : List Bytes}
    (h : Pending tail .dataEnd (buf ++ rest) payload pieces) :
    match memchr 10 buf with
    | none => Pending tail .dataEnd rest payload pieces
    | some (_, left) => Pending tail .start (left ++ rest) payload pieces := by
  induction buf with
  | nil => exact h
  | cons ch buf ih =>
    generalize hinput : ch :: buf ++ rest = input at h
    cases h with
    | dataEnd hline h =>
      cases hinput
      have hrest := ih h
      simp only [memchr, if_neg hline]
      cases hfound : memchr 10 buf with
      | none =>
        rw [hfound] at hrest
        exact hrest
      | some r =>
        rw [hfound] at hrest
        exact hrest
    | nextSize h =>
      cases hinput
      exact h

/-- A call of the engine answers with what is pending. -/
theorem dechunk_pending {tail rest payload buf : Bytes} {pieces : List Bytes} {st : ChunkState}
    (hfits : st.Fits) {length : ℕ} (hlength : 0 < length)
    (h : Pending tail st (buf ++ rest) payload pieces) :
    Answer tail rest payload pieces (dechunk st.word buf length) := by
  cases st with
  | start =>
    rw [dechunk_of_status (by decide)]
    exact dechunkSize_pending hfits trivial hlength h
  | size value =>
    have hstatus := ofNat_or_and_status hfits chunkPartSize (by decide)
    rw [ChunkState.word, dechunk_of_status hstatus]
    exact dechunkSize_pending hfits trivial hlength h
  | ext value =>
    have hstatus := ofNat_or_and_status hfits chunkPartSizeEnd (by decide)
    rw [ChunkState.word, dechunk_of_status hstatus]
    exact dechunkSize_pending hfits trivial hlength h
  | data left =>
    obtain ⟨hpos, hmax⟩ := hfits
    rw [ChunkState.word, dechunk_of_data hpos hmax]
    exact dechunkData_pending ⟨hpos, hmax⟩ hlength h
  | dataEnd =>
    have hskip := h.dataEnd_memchr
    rw [dechunk, if_neg (by decide), if_neg (by decide), if_neg (by decide),
      if_pos (by decide)]
    cases hfound : memchr 10 buf with
    | none =>
      rw [hfound] at hskip
      exact .more .dataEnd trivial rfl rfl hskip (Or.inl rfl)
    | some r =>
      rw [hfound] at hskip
      have hstart : ChunkState.start.Fits := trivial
      exact dechunkSize_pending hstart trivial hlength hskip
  | last =>
    rw [dechunk, if_neg (by decide), if_neg (by decide), if_pos (by decide)]
    exact dechunkLast_pending h

/-! ## A call of the context -/

/-- What `read` may return where `payload` is pending and the trailers end as `final`. -/
inductive ReadAnswer (tail payload : Bytes) (final : List (Bytes × Bytes)) :
    KDechunkContext × List Bytes × Option Bytes → Prop
  /-- Bytes of the payload. -/
  | piece {ctx : KDechunkContext} {net : List Bytes} (piece left : Bytes) (hne : piece ≠ [])
      (hpayload : payload = piece ++ left) (st : ChunkState) (hfits : st.Fits)
      (hword : ctx.chunkSize = st.word) (hnet : [] ∉ net) (pieces : List Bytes)
      (h : Pending tail st (ctx.buffer ++ net.flatten) left pieces)
      (htrailer : pieces.foldl addTrailerLine ctx.trailer = final) :
      ReadAnswer tail payload final (ctx, net, some piece)
  /-- The end. -/
  | done {ctx : KDechunkContext} {net : List Bytes} (hpayload : payload = [])
      (hword : ctx.chunkSize = chunkIsEnd) (hnet : [] ∉ net)
      (htail : ctx.buffer ++ net.flatten = tail) (htrailer : ctx.trailer = final) :
      ReadAnswer tail payload final (ctx, net, some [])

/-- The loop over a size line takes no byte back. -/
theorem dechunkSizeLoop_rest (w : BitVec 32) (buf : Bytes) :
    (dechunkSizeLoop w buf).1.rest.length ≤ buf.length := by
  induction buf generalizing w with
  | nil => exact Nat.le_refl _
  | cons ch buf ih =>
    unfold dechunkSizeLoop
    split
    · exact Nat.le_succ _
    · split
      · exact Nat.le_succ_of_le (ih _)
      · split
        · dsimp only
          split
          · exact Nat.le_refl _
          · exact Nat.le_succ_of_le (ih _)
        · exact Nat.le_succ_of_le (ih _)

/-- A trailer line that is read is taken. -/
theorem dechunkLast_rest {buf piece : Bytes} (h : (dechunkLast buf).result = .trailer piece) :
    (dechunkLast buf).rest.length < buf.length := by
  unfold dechunkLast at h ⊢
  cases hline : memchr 10 buf with
  | none =>
    rw [hline] at h
    cases h
  | some r =>
    obtain ⟨line, rest⟩ := r
    obtain ⟨-, hbuf⟩ := memchr_eq_some hline
    have hrest : rest.length < buf.length := by
      rw [hbuf, List.length_append, List.length_cons]
      omega
    dsimp only
    split <;> exact hrest

/-- Bytes of a chunk are no trailer line. -/
theorem dechunkData_ne_trailer (w : BitVec 32) (buf : Bytes) (length : ℕ) (piece : Bytes) :
    (dechunkData w buf length).result ≠ .trailer piece := by
  unfold dechunkData
  dsimp only
  split <;> nofun

/-- A trailer line behind a size line is taken. -/
theorem dechunkSize_rest {w : BitVec 32} {buf piece : Bytes} {length : ℕ}
    (h : (dechunkSize w buf length).result = .trailer piece) :
    (dechunkSize w buf length).rest.length < buf.length := by
  have hloop := dechunkSizeLoop_rest w buf
  have hnext : (dechunkSizeLoop w buf).2 = false →
      (dechunkSizeLoop w buf).1.result ≠ .trailer piece := by
    clear h hloop
    induction buf generalizing w with
    | nil => nofun
    | cons ch buf ih =>
      unfold dechunkSizeLoop
      split
      · nofun
      · split
        · exact ih
        · split
          · dsimp only
            split
            · nofun
            · exact ih
          · exact ih
  unfold dechunkSize at h ⊢
  generalize dechunkSizeLoop w buf = r at h hloop hnext ⊢
  obtain ⟨out, done⟩ := r
  split
  · rename_i hcond
    rw [if_pos hcond] at h
    cases done with
    | false => exact absurd h (hnext rfl)
    | true =>
      dsimp only at h hloop ⊢
      split
      · rename_i hzero
        rw [if_pos hzero] at h
        exact Nat.lt_of_lt_of_le (dechunkLast_rest h) hloop
      · rename_i hzero
        rw [if_neg hzero] at h
        exact absurd h (dechunkData_ne_trailer _ _ _ _)
  · rename_i hcond
    rw [if_neg hcond] at h
    exact absurd h (dechunkData_ne_trailer _ _ _ _)

/-- A call that reads a trailer line takes it. -/
theorem dechunk_rest {w : BitVec 32} {buf piece : Bytes} {length : ℕ}
    (h : (dechunk w buf length).result = .trailer piece) :
    (dechunk w buf length).rest.length < buf.length := by
  unfold dechunk at h ⊢
  by_cases hfailed : w = chunkIsFailed
  · rw [if_pos hfailed] at h
    cases h
  by_cases hend : w = chunkIsEnd
  · rw [if_neg hfailed, if_pos hend] at h
    cases h
  rw [if_neg hfailed, if_neg hend] at h ⊢
  by_cases hlast : w = chunkReadLast
  · rw [if_pos hlast] at h ⊢
    exact dechunkLast_rest h
  rw [if_neg hlast] at h ⊢
  by_cases hreadEnd : w = chunkReadEnd
  · rw [if_pos hreadEnd] at h ⊢
    cases hline : memchr 10 buf with
    | none =>
      rw [hline] at h
      cases h
    | some r =>
      obtain ⟨line, rest⟩ := r
      obtain ⟨-, hbuf⟩ := memchr_eq_some hline
      rw [hline] at h
      have hrest : rest.length < buf.length := by
        rw [hbuf, List.length_append, List.length_cons]
        omega
      exact Nat.lt_trans (dechunkSize_rest h) hrest
  · rw [if_neg hreadEnd] at h ⊢
    exact dechunkSize_rest h

/-- What the calls of the engine in one round of `read` may answer. -/
inductive RoundAnswer (tail rest payload : Bytes) (final : List (Bytes × Bytes)) :
    KDechunkContext × KDechunkResult → Prop
  /-- The network is asked, which has more. -/
  | more {ctx : KDechunkContext} (st : ChunkState) (hfits : st.Fits)
      (hword : ctx.chunkSize = st.word) (pieces : List Bytes)
      (h : Pending tail st (ctx.buffer ++ rest) payload pieces)
      (htrailer : pieces.foldl addTrailerLine ctx.trailer = final)
      (hneed : ctx.buffer = [] ∨ st = .last ∧ 10 ∉ ctx.buffer) :
      RoundAnswer tail rest payload final (ctx, .continue)
  /-- Bytes of the payload. -/
  | piece {ctx : KDechunkContext} (piece left : Bytes) (hne : piece ≠ [])
      (hpayload : payload = piece ++ left) (st : ChunkState) (hfits : st.Fits)
      (hword : ctx.chunkSize = st.word) (pieces : List Bytes)
      (h : Pending tail st (ctx.buffer ++ rest) left pieces)
      (htrailer : pieces.foldl addTrailerLine ctx.trailer = final) :
      RoundAnswer tail rest payload final (ctx, .success piece)
  /-- The end. -/
  | done {ctx : KDechunkContext} (hpayload : payload = []) (hword : ctx.chunkSize = chunkIsEnd)
      (htail : ctx.buffer ++ rest = tail) (htrailer : ctx.trailer = final) :
      RoundAnswer tail rest payload final (ctx, .end)

namespace KDechunkContext

variable {tail payload : Bytes} {final : List (Bytes × Bytes)} {ctx : KDechunkContext}
  {st : ChunkState} {length : ℕ} {pieces : List Bytes}

/-- The calls of the engine in one round of `read`. -/
theorem dechunkLoop_pending {rest : Bytes} (hfits : st.Fits) (hword : ctx.chunkSize = st.word)
    (hlength : 0 < length) {fuel : ℕ} (hfuel : ctx.buffer.length < fuel)
    (h : Pending tail st (ctx.buffer ++ rest) payload pieces)
    (htrailer : pieces.foldl addTrailerLine ctx.trailer = final) :
    RoundAnswer tail rest payload final (ctx.dechunkLoop length fuel) := by
  induction fuel generalizing ctx st pieces with
  | zero => exact absurd hfuel (Nat.not_lt_zero _)
  | succ fuel ih =>
    have hanswer := dechunk_pending hfits hlength h
    rw [← hword] at hanswer
    unfold dechunkLoop
    dsimp only
    cases hanswer with
    | more st' hfits' hword' hresult h' hneed =>
      rw [hresult]
      exact .more st' hfits' hword' pieces h' htrailer hneed
    | piece piece left hne hpayload st' hfits' hword' hresult h' =>
      rw [hresult]
      exact .piece piece left hne hpayload st' hfits' hword' pieces h' htrailer
    | trailer piece left hpieces hword' hresult h' =>
      have hless := Nat.lt_of_lt_of_le (dechunk_rest hresult) (Nat.le_of_lt_succ hfuel)
      rw [hresult]
      subst hpieces
      have hlast : ChunkState.last.Fits := trivial
      exact ih hlast hword' hless h' htrailer
    | done hpayload hpieces hword' hresult htail =>
      rw [hresult]
      subst hpieces
      exact .done hpayload hword' htail htrailer

/-- One round of `read`. -/
theorem readRound_pending {rest : Bytes} (hfits : st.Fits) (hword : ctx.chunkSize = st.word)
    (hlength : 0 < length) (h : Pending tail st (ctx.buffer ++ rest) payload pieces)
    (htrailer : pieces.foldl addTrailerLine ctx.trailer = final) :
    RoundAnswer tail rest payload final (ctx.readRound length) := by
  unfold readRound
  split
  · rename_i hnil
    exact .more st hfits hword pieces h htrailer (Or.inl hnil)
  · exact dechunkLoop_pending hfits hword hlength (Nat.lt_succ_self _) h htrailer

/-- What is pending holds a line end where the trailers are read. -/
theorem newline_of_pending {input : Bytes} (h : Pending tail .last input payload pieces) :
    10 ∈ input := by
  cases h <;> simp

/-- A call of `read` answers with what is pending, for any cuts of the input. -/
theorem read_pending {net : List Bytes} (hfits : st.Fits) (hword : ctx.chunkSize = st.word)
    (hlength : 0 < length) (hnet : [] ∉ net)
    (h : Pending tail st (ctx.buffer ++ net.flatten) payload pieces)
    (htrailer : pieces.foldl addTrailerLine ctx.trailer = final) :
    ReadAnswer tail payload final (ctx.read length net) := by
  induction net generalizing ctx st pieces with
  | nil =>
    have hround := readRound_pending hfits hword hlength h htrailer
    unfold read
    generalize ctx.readRound length = r at hround
    cases hround with
    | more st' hfits' hword' pieces' h' htrailer' hneed =>
      rw [List.flatten_nil, List.append_nil] at h'
      rcases hneed with hneed | ⟨hlast, hneed⟩
      · exact absurd hneed h'.input_ne
      · subst hlast
        exact absurd (newline_of_pending h') hneed
    | piece piece left hne hpayload st' hfits' hword' pieces' h' htrailer' =>
      exact .piece piece left hne hpayload st' hfits' hword' hnet pieces' h' htrailer'
    | done hpayload hword' htail htrailer' => exact .done hpayload hword' hnet htail htrailer'
  | cons got net ih =>
    have hround := readRound_pending hfits hword hlength h htrailer
    unfold read
    generalize ctx.readRound length = r at hround
    cases hround with
    | @more ctx' st' hfits' hword' pieces' h' htrailer' hneed =>
      have hgot : got ≠ [] := fun hgot => hnet (hgot ▸ List.mem_cons_self)
      dsimp only
      rw [if_neg hgot]
      rw [List.flatten_cons, ← List.append_assoc] at h'
      have hgotWord : ({ ctx' with buffer := ctx'.buffer ++ got } : KDechunkContext).chunkSize =
          st'.word := hword'
      exact ih hfits' hgotWord (fun hmem => hnet (List.mem_cons_of_mem _ hmem)) h' htrailer'
    | piece piece left hne hpayload st' hfits' hword' pieces' h' htrailer' =>
      exact .piece piece left hne hpayload st' hfits' hword' hnet pieces' h' htrailer'
    | done hpayload hword' htail htrailer' => exact .done hpayload hword' hnet htail htrailer'

/-- All calls of `read` up to the end of the body. -/
theorem reads_pending {net : List Bytes} (hfits : st.Fits) (hword : ctx.chunkSize = st.word)
    {length : ℕ → ℕ} (hlength : ∀ i, 0 < length i) (hnet : [] ∉ net)
    (h : Pending tail st (ctx.buffer ++ net.flatten) payload pieces)
    (htrailer : pieces.foldl addTrailerLine ctx.trailer = final) :
    ∃ out : List Bytes, [] ∉ out ∧ out.flatten = payload ∧
      ∃ ctx' net', reads length (out.length + 1) ctx net = (out.map some ++ [some []], ctx', net') ∧
        ctx'.trailer = final ∧ ctx'.buffer ++ net'.flatten = tail := by
  obtain ⟨n, hn⟩ : ∃ n, payload.length ≤ n := ⟨_, Nat.le_refl _⟩
  induction n generalizing ctx st payload pieces net length with
  | zero =>
    have hread := read_pending hfits hword (hlength 0) hnet h htrailer
    have hnil : payload = [] := List.eq_nil_of_length_eq_zero (Nat.le_zero.mp hn)
    generalize hr : ctx.read (length 0) net = r at hread
    cases hread with
    | piece piece left hne hpayload =>
      exact absurd (List.append_eq_nil_iff.mp (hpayload.symm.trans hnil)).1 hne
    | @done ctx' net' hpayload _ _ htail htrailer' =>
      refine ⟨[], List.not_mem_nil, hnil.symm, ctx', net', ?_, htrailer', htail⟩
      rw [List.length_nil, reads, hr]
      rfl
  | succ n ih =>
    have hread := read_pending hfits hword (hlength 0) hnet h htrailer
    generalize hr : ctx.read (length 0) net = r at hread
    cases hread with
    | @piece ctx1 net1 piece left hne hpayload st' hfits' hword' hnet' pieces' h' htrailer' =>
      have hleft : left.length ≤ n := by
        have hpos := List.length_pos_iff.mpr hne
        rw [hpayload, List.length_append] at hn
        omega
      obtain ⟨out, hout, hflat, ctx', net', hreads, htr, htail⟩ :=
        ih hfits' hword' (fun i => hlength (i + 1)) hnet' h' htrailer' hleft
      refine ⟨piece :: out, ?_, ?_, ctx', net', ?_, htr, htail⟩
      · intro hmem
        rcases List.mem_cons.mp hmem with hmem | hmem
        · exact hne hmem.symm
        · exact hout hmem
      · rw [List.flatten_cons, hflat, hpayload]
      · rw [List.length_cons, reads, hr]
        dsimp only
        rw [hreads]
        rfl
    | @done ctx' net' hpayload _ _ htail htrailer' =>
      refine ⟨[], List.not_mem_nil, hpayload.symm, ctx', net', ?_, htrailer', htail⟩
      rw [List.length_nil, reads, hr]
      rfl

end KDechunkContext

/-! ## What a sender puts on the wire -/

/-- The digits of a size line make the number that follows them larger. -/
theorem le_foldl_hex (digits : Bytes) (value : ℕ) :
    value ≤ digits.foldl (fun value ch => value * 16 + (hexDigit ch).getD 0) value := by
  induction digits generalizing value with
  | nil => exact Nat.le_refl _
  | cons ch digits ih =>
    have hstep := ih (value * 16 + (hexDigit ch).getD 0)
    rw [List.foldl_cons]
    omega

/-- Digits are pending where what follows them is. -/
theorem Pending.digits {tail input payload digits : Bytes} {pieces : List Bytes} {value : ℕ}
    (hhex : ∀ ch ∈ digits, (hexDigit ch).isSome)
    (hmax : digits.foldl (fun value ch => value * 16 + (hexDigit ch).getD 0) value ≤
      maxChunkSize.toNat)
    (h : Pending tail (.size
      (digits.foldl (fun value ch => value * 16 + (hexDigit ch).getD 0) value))
      input payload pieces) : Pending tail (.size value) (digits ++ input) payload pieces := by
  induction digits generalizing value with
  | nil => exact h
  | cons ch digits ih =>
    obtain ⟨digit, hdigit⟩ := Option.isSome_iff_exists.mp (hhex ch List.mem_cons_self)
    rw [List.foldl_cons] at hmax h
    have hrest := ih (fun ch' hch' => hhex ch' (List.mem_cons_of_mem _ hch')) hmax h
    have hvalue : value * 16 + (hexDigit ch).getD 0 = value * 16 + digit := by
      rw [hdigit, Option.getD_some]
    rw [hvalue] at hrest
    have hfits : value * 16 + digit ≤ maxChunkSize.toNat := by
      rw [← hvalue]
      exact (le_foldl_hex digits _).trans hmax
    exact .digit hdigit hfits hrest

/-- The rest of a size line is pending where what follows it is. -/
theorem Pending.line {tail input payload : Bytes} {pieces : List Bytes} {value : ℕ} (l : SizeLine)
    (h : Pending tail (.ext value) (10 :: input) payload pieces) :
    Pending tail (.size value) (l.ext ++ crlf ++ input) payload pieces := by
  have hskip : ∀ {ext : Bytes}, 10 ∉ ext →
      Pending tail (.ext value) (ext ++ (13 :: 10 :: input)) payload pieces := by
    intro ext hext
    induction ext with
    | nil => exact .ext (by decide) h
    | cons ch ext ih =>
      exact .ext (fun hch => hext (hch ▸ List.mem_cons_self))
        (ih fun hmem => hext (List.mem_cons_of_mem _ hmem))
  have hline := l.ext_line
  have hhead := l.ext_head
  rw [List.append_assoc]
  cases hext : l.ext with
  | nil => exact .extHead (by decide) (by decide) h
  | cons ch ext =>
    rw [hext] at hline hhead
    exact .extHead (fun hch => hline (hch ▸ List.mem_cons_self)) (hhead ch rfl)
      (hskip fun hmem => hline (List.mem_cons_of_mem _ hmem))

/-- A size line is pending where what follows it is. -/
theorem Pending.sizeLine {tail input payload : Bytes} {pieces : List Bytes} (l : SizeLine)
    (hmax : hexValue l.digits ≤ maxChunkSize.toNat)
    (h : Pending tail (.ext (hexValue l.digits)) (10 :: input) payload pieces) :
    Pending tail .start (l.encode ++ input) payload pieces := by
  have hline := Pending.line l h
  have hhex := l.digits_hex
  unfold SizeLine.encode
  unfold hexValue at hmax hline
  cases hdigits : l.digits with
  | nil => exact absurd hdigits l.digits_ne
  | cons ch digits =>
    rw [hdigits] at hhex hmax hline
    obtain ⟨digit, hdigit⟩ := Option.isSome_iff_exists.mp (hhex ch List.mem_cons_self)
    have hvalue : 0 * 16 + (hexDigit ch).getD 0 = digit := by
      rw [hdigit, Option.getD_some, Nat.zero_mul, Nat.zero_add]
    rw [List.foldl_cons, hvalue] at hmax hline
    have hrest := Pending.digits (fun ch' hch' => hhex ch' (List.mem_cons_of_mem _ hch')) hmax hline
    simp only [List.cons_append, List.append_assoc] at hrest ⊢
    exact .start hdigit hrest

/-- The bytes of a chunk are pending where what follows them is. -/
theorem Pending.bytes {tail input payload data : Bytes} {pieces : List Bytes} (hne : data ≠ [])
    (h : Pending tail .dataEnd input payload pieces) :
    Pending tail (.data data.length) (data ++ input) (data ++ payload) pieces := by
  induction data with
  | nil => exact absurd rfl hne
  | cons ch data ih =>
    by_cases hdata : data = []
    · subst hdata
      exact .dataLast h
    · exact .data (List.length_pos_iff.mpr hdata) (ih hdata)

/-- A chunk is pending where what follows it is. -/
theorem Pending.chunk {tail input payload : Bytes} {pieces : List Bytes} (c : Chunk)
    (h : Pending tail .start input payload pieces) :
    Pending tail .start (c.encode ++ input) (c.data ++ payload) pieces := by
  have hend : Pending tail .dataEnd (crlf ++ input) payload pieces :=
    .dataEnd (by decide) (.nextSize h)
  have hdata := Pending.bytes c.data_ne hend
  have hpos : 0 < c.data.length := List.length_pos_iff.mpr c.data_ne
  have hsize : Pending tail (.ext (hexValue c.size.digits)) (10 :: (c.data ++ (crlf ++ input)))
      (c.data ++ payload) pieces := by
    rw [c.size_value]
    exact .sizeEnd hpos hdata
  have hmax : hexValue c.size.digits ≤ maxChunkSize.toNat := by
    rw [c.size_value]
    exact c.data_length
  rw [Chunk.encode, List.append_assoc, List.append_assoc]
  exact .sizeLine c.size hmax hsize

namespace TrailerLine

/-- What the engine hands over for the line. -/
def piece (t : TrailerLine) : Bytes :=
  ((t.text ++ [13]).dropWhile isSpace).rdropWhile isSpace

/-- Spaces at the end are trimmed. -/
theorem rdropWhile_replicate (text : Bytes) (n : ℕ) :
    (text ++ List.replicate n 32).rdropWhile isSpace = text.rdropWhile isSpace := by
  induction n with
  | zero => rw [List.replicate_zero, List.append_nil]
  | succ n ih =>
    rw [List.replicate_succ', ← List.append_assoc, List.rdropWhile_concat_pos _ _ _ (by decide)]
    exact ih

/-- The trim leaves the name and the colon, and the value with its spaces if there is one. -/
theorem piece_eq (t : TrailerLine) :
    t.piece = if t.value = [] then t.name ++ [58] else t.text := by
  have hhead := t.name_head
  have hne := t.name_ne
  have hleft : (t.text ++ [13]).dropWhile isSpace = t.text ++ [13] := by
    unfold text
    cases hname : t.name with
    | nil => exact absurd hname hne
    | cons ch name =>
      rw [hname] at hhead
      rw [List.cons_append, List.cons_append, List.dropWhile_cons_of_neg]
      rw [hhead ch rfl]
      exact Bool.false_ne_true
  unfold piece
  rw [hleft, List.rdropWhile_concat_pos _ _ _ (by decide)]
  split
  · rename_i hvalue
    have htext : t.text = (t.name ++ [58]) ++ List.replicate t.spaces 32 := by
      rw [text, hvalue, List.append_nil, List.append_assoc]
      rfl
    rw [htext, rdropWhile_replicate, List.rdropWhile_concat_neg _ _ _ (by decide)]
  · rename_i hvalue
    obtain ⟨front, last, hlast⟩ := (List.eq_nil_or_concat' t.value).resolve_left hvalue
    have hspace : isSpace last = false := by
      apply t.value_last
      rw [hlast, List.getLast?_concat]
      rfl
    have htext : t.text = (t.name ++ 58 :: (List.replicate t.spaces 32 ++ front)) ++ [last] := by
      rw [text, hlast]
      simp only [List.append_assoc, List.cons_append]
    rw [htext, List.rdropWhile_concat_neg _ _ _ (by rw [hspace]; exact Bool.false_ne_true)]

/-- More than one byte of the line is visible. -/
theorem one_lt_piece (t : TrailerLine) : 1 < t.piece.length := by
  have hpos := List.length_pos_iff.mpr t.name_ne
  rw [piece_eq]
  split
  · rw [List.length_append, List.length_singleton]
    omega
  · rw [text, List.length_append, List.length_cons]
    omega

/-- Spaces before a value are skipped. -/
theorem dropWhile_replicate (t : TrailerLine) :
    (List.replicate t.spaces 32 ++ t.value).dropWhile khttpIsSpace = t.value := by
  have hhead := t.value_head
  induction t.spaces with
  | zero =>
    rw [List.replicate_zero, List.nil_append]
    cases hvalue : t.value with
    | nil => rfl
    | cons ch value =>
      rw [hvalue] at hhead
      rw [List.dropWhile_cons_of_neg]
      rw [hhead ch rfl]
      exact Bool.false_ne_true
  | succ n ih =>
    rw [List.replicate_succ, List.cons_append, List.dropWhile_cons_of_pos (by decide)]
    exact ih

/-- What is kept of the line. -/
theorem addTrailerLine_piece (t : TrailerLine) (trailer : List (Bytes × Bytes)) :
    addTrailerLine trailer t.piece = addTrailerField trailer (hlen t.name) (hlen t.value) := by
  rw [piece_eq, addTrailerLine]
  by_cases hvalue : t.value = []
  · rw [if_pos hvalue, memchr_append t.name_colon, hvalue]
    rfl
  · rw [if_neg hvalue, text, memchr_append t.name_colon]
    dsimp only
    rw [t.dropWhile_replicate]

/-- A line within the size limit is kept as it is. -/
theorem addTrailerLine_fits {t : TrailerLine} (h : t.Fits) (trailer : List (Bytes × Bytes)) :
    addTrailerLine trailer t.piece = trailer ++ [t.field] := by
  have hcut : ∀ {str : Bytes}, str.length ≤ maxHeaderAttrValSize → hlen str = str := by
    intro str hstr
    unfold maxHeaderAttrValSize at hstr
    rw [hlen, Nat.mod_eq_of_lt (by omega), List.take_length]
  rw [addTrailerLine_piece, hcut h.1, hcut h.2, addTrailerField,
    if_neg (not_or.mpr ⟨Nat.not_lt.mpr h.1, Nat.not_lt.mpr h.2⟩)]
  rfl

end TrailerLine

/-- Trailers are pending where the blank line is. -/
theorem Pending.trailers (tail : Bytes) (trailers : List TrailerLine) :
    Pending tail .last (trailers.flatMap TrailerLine.encode ++ (crlf ++ tail)) []
      (trailers.map TrailerLine.piece) := by
  induction trailers with
  | nil => exact .blank
  | cons t trailers ih =>
    have hline : 10 ∉ t.text ++ [13] := by
      have hname := t.name_line
      have hvalue := t.value_line
      simp [TrailerLine.text, hname, hvalue]
    have hinput : (t :: trailers).flatMap TrailerLine.encode ++ (crlf ++ tail) =
        (t.text ++ [13]) ++ 10 :: (trailers.flatMap TrailerLine.encode ++ (crlf ++ tail)) := by
      simp [TrailerLine.encode, crlf]
    rw [hinput]
    exact .trailer hline t.one_lt_piece ih

/-- A body on the wire is pending. -/
theorem ChunkedBody.pending (b : ChunkedBody) (tail : Bytes) :
    Pending tail .start (b.encode ++ tail) b.payload (b.trailers.map TrailerLine.piece) := by
  have hlast : Pending tail .start
      (b.last.encode ++ (b.trailers.flatMap TrailerLine.encode ++ (crlf ++ tail))) []
      (b.trailers.map TrailerLine.piece) := by
    refine .sizeLine b.last (by rw [b.last_zero]; decide) ?_
    rw [b.last_zero]
    exact .lastEnd (.trailers tail b.trailers)
  unfold encode payload
  simp only [List.append_assoc]
  induction b.chunks with
  | nil => exact hlast
  | cons c chunks ih =>
    rw [List.flatMap_cons, List.flatMap_cons, List.append_assoc]
    exact .chunk c ih

/-! ## Dechunking -/

/-- Whatever the cuts of the input, the room of the caller and the bytes after the body: the calls
of `read` return the payload in pieces, then 0, with the trailers recorded in order and the bytes
after the body left. -/
def ChunkedBody.Undone (b : ChunkedBody) : Prop :=
  ∀ (buf tail : Bytes) (net : List Bytes) (length : ℕ → ℕ),
    buf ++ net.flatten = b.encode ++ tail → [] ∉ net → (∀ i, 0 < length i) →
    ∃ out : List Bytes, [] ∉ out ∧ out.flatten = b.payload ∧
      ∃ ctx net', KDechunkContext.reads length (out.length + 1) (.init buf) net =
          (out.map some ++ [some []], ctx, net') ∧
        ctx.trailer = b.trailers.map TrailerLine.field ∧ ctx.buffer ++ net'.flatten = tail

/-- The calls of `read` on a body, whatever its trailers are. -/
theorem ChunkedBody.reads_encode (b : ChunkedBody) {buf tail : Bytes} {net : List Bytes}
    (hinput : buf ++ net.flatten = b.encode ++ tail) (hnet : [] ∉ net) {length : ℕ → ℕ}
    (hlength : ∀ i, 0 < length i) :
    ∃ out : List Bytes, [] ∉ out ∧ out.flatten = b.payload ∧
      ∃ ctx net', KDechunkContext.reads length (out.length + 1) (.init buf) net =
          (out.map some ++ [some []], ctx, net') ∧
        ctx.trailer = (b.trailers.map TrailerLine.piece).foldl addTrailerLine [] ∧
        ctx.buffer ++ net'.flatten = tail := by
  have hpending := b.pending tail
  rw [← hinput] at hpending
  have hstart : ChunkState.start.Fits := trivial
  exact KDechunkContext.reads_pending hstart rfl hlength hnet hpending rfl

/-- Dechunking undoes chunking where every trailer is within the size limit of a header. -/
theorem ChunkedBody.undone_of_fits (b : ChunkedBody) (hfits : ∀ t ∈ b.trailers, t.Fits) :
    b.Undone := by
  intro buf tail net length hinput hnet hlength
  obtain ⟨out, hne, hflat, ctx, net', hreads, htrailer, htail⟩ :=
    b.reads_encode hinput hnet hlength
  refine ⟨out, hne, hflat, ctx, net', hreads, ?_, htail⟩
  rw [htrailer]
  clear hreads htrailer hinput
  have hkept : ∀ (trailers : List TrailerLine) (kept : List (Bytes × Bytes)),
      (∀ t ∈ trailers, t.Fits) →
      (trailers.map TrailerLine.piece).foldl addTrailerLine kept =
        kept ++ trailers.map TrailerLine.field := by
    intro trailers
    induction trailers with
    | nil => exact fun kept _ => (List.append_nil kept).symm
    | cons t trailers ih =>
      intro kept hall
      rw [List.map_cons, List.foldl_cons,
        TrailerLine.addTrailerLine_fits (hall t List.mem_cons_self),
        ih _ fun t' ht' => hall t' (List.mem_cons_of_mem _ ht'), List.append_assoc]
      rfl
  exact hkept b.trailers [] hfits

/-- A size line of one digit. -/
def oneDigit (ch : Byte) (h : (hexDigit ch).isSome) : SizeLine where
  digits := [ch]
  ext := []
  digits_ne := List.cons_ne_nil _ _
  digits_hex := fun _ hch => List.mem_singleton.mp hch ▸ h
  ext_line := List.not_mem_nil
  ext_head := nofun

/-- The body `5\r\nhello\r\n0\r\nab: cd\r\n\r\n`. -/
def helloBody : ChunkedBody where
  chunks := [⟨oneDigit 53 (by decide), kglString "hello", by decide, by decide, by decide⟩]
  last := oneDigit 48 (by decide)
  trailers := [⟨kglString "ab", 1, kglString "cd", by decide, by decide, by decide,
    fun ch hch => by cases hch; decide, by decide, fun ch hch => by cases hch; decide,
    fun ch hch => by cases hch; decide⟩]
  last_zero := by decide

/-- The result for a body with a chunk and a trailer. -/
theorem helloBody_undone : helloBody.Undone :=
  helloBody.undone_of_fits (by decide)

/-- A trailer line whose name is `n + 1` bytes long. -/
def longTrailer (n : ℕ) : TrailerLine where
  name := List.replicate (n + 1) 97
  spaces := 1
  value := [98]
  name_ne := List.ne_nil_of_length_pos (by rw [List.length_replicate]; exact Nat.succ_pos n)
  name_line := fun h => absurd (List.eq_of_mem_replicate h) (by decide)
  name_colon := fun h => absurd (List.eq_of_mem_replicate h) (by decide)
  name_head := by
    intro ch hch
    rw [List.replicate_succ, List.head?_cons] at hch
    cases hch
    decide
  value_line := by decide
  value_head := fun ch hch => by cases hch; decide
  value_last := fun ch hch => by cases hch; decide

/-- A body without chunks whose trailer has a name of 65501 bytes. -/
def longTrailerBody : ChunkedBody where
  chunks := []
  last := oneDigit 48 (by decide)
  trailers := [longTrailer maxHeaderAttrValSize]
  last_zero := by decide

/-- The trailer with the long name is not recorded. -/
theorem longTrailerBody_not_undone : ¬longTrailerBody.Undone := by
  intro h
  have hinput : longTrailerBody.encode ++ ([] : List Bytes).flatten =
      longTrailerBody.encode ++ [] := rfl
  have hlength : ∀ i : ℕ, 0 < (fun _ => 1 : ℕ → ℕ) i := fun _ => Nat.one_pos
  have hnil : ∀ {out : List Bytes}, [] ∉ out → out.flatten =
    longTrailerBody.payload → out = [] := by
    intro out hne hflat
    refine List.eq_nil_iff_forall_not_mem.mpr fun piece hpiece => hne ?_
    have hall := List.flatten_eq_nil_iff.mp hflat
    rw [← hall piece hpiece]
    exact hpiece
  obtain ⟨out, hne, hflat, ctx, net, hreads, htrailer, -⟩ :=
    h _ _ _ _ hinput List.not_mem_nil hlength
  obtain ⟨out', hne', hflat', ctx', net', hreads', htrailer', -⟩ :=
    longTrailerBody.reads_encode hinput List.not_mem_nil hlength
  rw [hnil hne hflat] at hreads
  rw [hnil hne' hflat', hreads] at hreads'
  have hctx : ctx = ctx' := congrArg (fun r => r.2.1) hreads'
  have hlong : (hlen (longTrailer maxHeaderAttrValSize).name).length =
    maxHeaderAttrValSize + 1 := by
    have hname : (longTrailer maxHeaderAttrValSize).name.length = maxHeaderAttrValSize + 1 :=
      List.length_replicate
    rw [hlen, hname, List.length_take, hname]
    decide
  have hdropped : addTrailerLine [] (longTrailer maxHeaderAttrValSize).piece = [] := by
    rw [TrailerLine.addTrailerLine_piece, addTrailerField, if_pos]
    exact Or.inl (by rw [hlong]; exact Nat.lt_succ_self _)
  have htrailers : longTrailerBody.trailers = [longTrailer maxHeaderAttrValSize] := rfl
  rw [htrailers, List.map_singleton] at htrailer htrailer'
  rw [List.foldl_cons, List.foldl_nil, hdropped, ← hctx, htrailer] at htrailer'
  exact List.cons_ne_nil _ _ htrailer'

end Khttpd
