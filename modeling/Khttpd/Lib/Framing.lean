import Mathlib.Algebra.Order.Ring.Int

/-!
# HTTP/2 framing

The wire format of RFC 7540, section 4.1: a frame is a nine-byte header (24-bit length, type,
flags, 31-bit stream identifier) and a payload. `encode` writes a frame, `parseAll` reads a
whole byte string as frames, and `HeaderGroup` says when frames carry one header block
(section 6.2 and 6.10).
-/

set_option autoImplicit false

namespace Framing

/-! ## Big-endian words -/

/-- The four bytes of a 32-bit word. -/
def be32 (n : ℕ) : List UInt8 :=
  [UInt8.ofNat (n / 2 ^ 24), UInt8.ofNat (n / 2 ^ 16), UInt8.ofNat (n / 2 ^ 8), UInt8.ofNat n]

/-- The word that the first four bytes spell. -/
def readBe32 (b : List UInt8) : ℕ :=
  (b.getD 0 0).toNat * 2 ^ 24 + (b.getD 1 0).toNat * 2 ^ 16 +
    (b.getD 2 0).toNat * 2 ^ 8 + (b.getD 3 0).toNat

/-- A word is four bytes long. -/
@[simp] theorem length_be32 (n : ℕ) : (be32 n).length = 4 := rfl

/-- Reading a word back loses what is above 32 bits. -/
theorem readBe32_be32 (n : ℕ) (rest : List UInt8) : readBe32 (be32 n ++ rest) = n % 2 ^ 32 := by
  simp only [readBe32, be32, List.cons_append, List.getD_cons_zero, List.getD_cons_succ,
    List.nil_append, UInt8.toNat_ofNat']
  omega

/-! ## Frames -/

/-- A frame. -/
structure Frame where
  type : ℕ
  flags : UInt8
  sid : ℕ
  payload : List UInt8
  deriving DecidableEq, Repr

/-- The fields of a frame fit their widths. -/
structure Frame.Valid (f : Frame) : Prop where
  length : f.payload.length < 2 ^ 24
  type : f.type < 2 ^ 8
  sid : f.sid < 2 ^ 31

/-- The bytes of a frame. -/
def Frame.encode (f : Frame) : List UInt8 :=
  be32 (f.payload.length * 2 ^ 8 + f.type) ++ f.flags :: be32 f.sid ++ f.payload

/-- The header of a frame takes nine bytes. -/
theorem Frame.length_encode (f : Frame) : f.encode.length = 9 + f.payload.length := by
  simp [Frame.encode, be32]
  omega

/-- Read one frame off the head of a byte string. -/
def parseOne (b : List UInt8) : Option (Frame × List UInt8) :=
  let length := readBe32 b / 2 ^ 8
  if b.length < 9 + length then none
  else
    some (⟨readBe32 b % 2 ^ 8, b.getD 4 0, readBe32 (b.drop 5) % 2 ^ 31,
      (b.drop 9).take length⟩, b.drop (9 + length))

/-- Read a byte string as frames, with room for `fuel` of them. -/
def parseLoop : ℕ → List UInt8 → Option (List Frame)
  | _, [] => some []
  | 0, _ :: _ => none
  | fuel + 1, b :: bs =>
    (parseOne (b :: bs)).bind fun (f, rest) => (parseLoop fuel rest).map fun fs => f :: fs

/-- Read a byte string as frames. -/
def parseAll (b : List UInt8) : Option (List Frame) := parseLoop b.length b

/-- One frame is read back as it was written. -/
theorem parseOne_encode (f : Frame) (hf : f.Valid) (rest : List UInt8) :
    parseOne (f.encode ++ rest) = some (f, rest) := by
  obtain ⟨hlen, htype, hsid⟩ := hf
  have hword : readBe32 (f.encode ++ rest) = f.payload.length * 2 ^ 8 + f.type := by
    rw [Frame.encode, List.append_assoc, List.append_assoc, readBe32_be32]
    omega
  have hlength : readBe32 (f.encode ++ rest) / 2 ^ 8 = f.payload.length := by omega
  have hdrop : (f.encode ++ rest).drop 5 = be32 f.sid ++ (f.payload ++ rest) := by
    simp [Frame.encode, be32]
  have hsid' : readBe32 ((f.encode ++ rest).drop 5) % 2 ^ 31 = f.sid := by
    rw [hdrop, readBe32_be32]
    omega
  have hflags : (f.encode ++ rest).getD 4 0 = f.flags := by simp [Frame.encode, be32]
  have hpayload : (f.encode ++ rest).drop 9 = f.payload ++ rest := by simp [Frame.encode, be32]
  have hrest : (f.encode ++ rest).drop (9 + f.payload.length) = rest := by
    rw [← List.drop_drop, hpayload, List.drop_left]
  have htaken : ((f.encode ++ rest).drop 9).take f.payload.length = f.payload := by
    rw [hpayload, List.take_left]
  have henough : ¬(f.encode ++ rest).length < 9 + f.payload.length := by
    simp [Frame.length_encode]
  simp only [parseOne, hlength, if_neg henough, htaken, hrest, hflags, hsid']
  have hmod : readBe32 (f.encode ++ rest) % 2 ^ 8 = f.type := by omega
  rw [hmod]

/-- What `parseOne` takes off is a header and a payload. -/
theorem length_of_parseOne {b rest : List UInt8} {f : Frame} (h : parseOne b = some (f, rest)) :
    b.length = 9 + f.payload.length + rest.length := by
  by_cases hlen : b.length < 9 + readBe32 b / 2 ^ 8
  · simp only [parseOne, if_pos hlen, reduceCtorEq] at h
  · simp only [parseOne, if_neg hlen, Option.some.injEq, Prod.mk.injEq] at h
    obtain ⟨hf, hrest⟩ := h
    have hpayload : f.payload = (b.drop 9).take (readBe32 b / 2 ^ 8) := by rw [← hf]
    rw [hpayload, ← hrest]
    simp only [List.length_take, List.length_drop]
    omega

/-- No frame has a longer payload than its length field can say. -/
theorem length_payload_of_parseOne {b rest : List UInt8} {f : Frame}
    (h : parseOne b = some (f, rest)) : f.payload.length < 2 ^ 24 := by
  by_cases hlen : b.length < 9 + readBe32 b / 2 ^ 8
  · simp only [parseOne, if_pos hlen, reduceCtorEq] at h
  · simp only [parseOne, if_neg hlen, Option.some.injEq, Prod.mk.injEq] at h
    obtain ⟨hf, _⟩ := h
    have hpayload : f.payload = (b.drop 9).take (readBe32 b / 2 ^ 8) := by rw [← hf]
    have hword : readBe32 b < 2 ^ 32 := by
      have h0 := (b.getD 0 0).toNat_lt
      have h1 := (b.getD 1 0).toNat_lt
      have h2 := (b.getD 2 0).toNat_lt
      have h3 := (b.getD 3 0).toNat_lt
      simp only [readBe32]
      omega
    rw [hpayload, List.length_take]
    omega

/-- A string of frames is as long as its headers and payloads. -/
theorem length_of_parseLoop {fuel : ℕ} {b : List UInt8} {fs : List Frame}
    (h : parseLoop fuel b = some fs) :
    b.length = 9 * fs.length + (fs.flatMap Frame.payload).length := by
  induction fuel generalizing b fs with
  | zero =>
    cases b with
    | nil =>
      cases h
      rfl
    | cons b bs => cases h
  | succ fuel ih =>
    cases b with
    | nil =>
      cases h
      rfl
    | cons b bs =>
      simp only [parseLoop, Option.bind_eq_some_iff, Option.map_eq_some_iff, Prod.exists] at h
      obtain ⟨f, rest, hone, fs', hfs', rfl⟩ := h
      have hlen := length_of_parseOne hone
      have hrest := ih hfs'
      simp only [List.length_cons, List.flatMap_cons, List.length_append] at hlen ⊢
      omega

/-- A single frame is read back. -/
theorem parseAll_encode (f : Frame) (hf : f.Valid) : parseAll f.encode = some [f] := by
  have hone := parseOne_encode f hf []
  rw [List.append_nil] at hone
  have hlen := f.length_encode
  unfold parseAll
  obtain ⟨b, bs, hb⟩ : ∃ b bs, f.encode = b :: bs := by
    cases h : f.encode with
    | nil =>
      rw [h, List.length_nil] at hlen
      omega
    | cons b bs => exact ⟨b, bs, rfl⟩
  rw [hb] at hone ⊢
  simp only [List.length_cons, parseLoop, hone, Option.bind_some, Option.map_some]

/-- The first frame of a string that is read as frames. -/
theorem head_of_parseAll {b : List UInt8} {f : Frame} {fs : List Frame}
    (h : parseAll b = some (f :: fs)) : ∃ rest, parseOne b = some (f, rest) := by
  unfold parseAll at h
  cases b with
  | nil => cases h
  | cons b bs =>
    simp only [List.length_cons, parseLoop, Option.bind_eq_some_iff, Option.map_eq_some_iff,
      Prod.exists, List.cons.injEq] at h
    obtain ⟨g, rest, hone, _, _, rfl, _⟩ := h
    exact ⟨rest, hone⟩

/-! ## Header blocks -/

/-- The type of a HEADERS and of a CONTINUATION frame, and the flags END_STREAM and
END_HEADERS. -/
def headersType : ℕ := 1
@[inherit_doc headersType] def continuationType : ℕ := 9
@[inherit_doc headersType] def endStream : UInt8 := 1
@[inherit_doc headersType] def endHeaders : UInt8 := 4

/-- The frames `fs` carry `block` on stream `sid` as a HEADERS frame and CONTINUATION frames of at
most `maxLength` bytes: END_STREAM is set on the first one when `fin`, END_HEADERS on the last
one, and no other flag. -/
structure HeaderGroup (sid : ℕ) (fin : Bool) (maxLength : ℕ) (block : List UInt8)
    (fs : List Frame) : Prop where
  nonempty : fs ≠ []
  types : ∀ i (h : i < fs.length),
    (fs[i]).type = if i = 0 then headersType else continuationType
  flags : ∀ i (h : i < fs.length), (fs[i]).flags =
    (if i = 0 ∧ fin then endStream else 0) ||| (if i + 1 = fs.length then endHeaders else 0)
  sids : ∀ f ∈ fs, f.sid = sid
  lengths : ∀ f ∈ fs, f.payload.length ≤ maxLength
  payloads : fs.flatMap Frame.payload = block

/-- A block that fits goes into one frame. -/
theorem headerGroup_singleton {sid maxLength : ℕ} {fin : Bool} {block : List UInt8}
    (h : block.length ≤ maxLength) :
    HeaderGroup sid fin maxLength block
      [⟨headersType, (if fin then endStream else 0) ||| endHeaders, sid, block⟩] where
  nonempty := by simp
  types := by
    intro i hi
    obtain rfl : i = 0 := by simpa using hi
    rfl
  flags := by
    intro i hi
    obtain rfl : i = 0 := by simpa using hi
    simp
  sids := by simp
  lengths := by simpa using h
  payloads := by simp

end Framing
