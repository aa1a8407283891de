import Khttpd.Analysis.Chunked

/-!
# Chunked messages

The chunked transfer coding of RFC 7230, section 4.1: chunks, a last chunk of size zero, trailer
fields and an empty line. A size line ends its digits with an extension or the line end, so the
bytes say where each part stops.
-/

set_option autoImplicit false

namespace Khttpd

/-! ## Header fields -/

/-- `tchar`. -/
def isTchar (ch : Byte) : Bool :=
  ch == 33 || (35 ≤ ch && ch ≤ 39) || ch == 42 || ch == 43 || ch == 45 || ch == 46 ||
    (48 ≤ ch && ch ≤ 57) || (65 ≤ ch && ch ≤ 90) || (94 ≤ ch && ch ≤ 122) || ch == 124 || ch == 126

/-- White space in a line. -/
def isOws (ch : Byte) : Bool := ch == 32 || ch == 9

/-- A byte of a field value. -/
def isFieldByte (ch : Byte) : Bool := ch == 9 || (32 ≤ ch && ch != 127)

/-- A header field: a token, and a value without white space around it. -/
structure IsField (name value : Bytes) : Prop where
  name_ne : name ≠ []
  token : ∀ ch ∈ name, isTchar ch
  text : ∀ ch ∈ value, isFieldByte ch
  head : ∀ ch ∈ value.head?, isOws ch = false
  last : ∀ ch ∈ value.getLast?, isOws ch = false

/-- A header field on a line. -/
structure FieldLine where
  name : Bytes
  value : Bytes
  before : Bytes
  after : Bytes
  isField : IsField name value
  before_ows : ∀ ch ∈ before, isOws ch
  after_ows : ∀ ch ∈ after, isOws ch

/-- A field line on the wire. -/
def FieldLine.encode (f : FieldLine) : Bytes :=
    f.name ++ 58 :: (f.before ++ f.value ++ f.after) ++ crlf

/-! ## Messages -/

/-- A size line: digits, and an extension behind a semicolon. -/
structure ChunkSizeLine where
  digits : Bytes
  ext : Bytes
  digits_ne : digits ≠ []
  digits_hex : ∀ ch ∈ digits, (hexDigit ch).isSome
  ext_head : ∀ ch ∈ ext.head?, ch = 59
  ext_text : ∀ ch ∈ ext, isFieldByte ch

/-- A size line on the wire. -/
def ChunkSizeLine.encode (l : ChunkSizeLine) : Bytes := l.digits ++ l.ext ++ crlf

/-- A chunk with bytes, as many as its size line says. -/
structure MessageChunk where
  size : ChunkSizeLine
  data : Bytes
  data_ne : data ≠ []
  size_value : hexValue size.digits = data.length

/-- A chunk on the wire. -/
def MessageChunk.encode (c : MessageChunk) : Bytes := c.size.encode ++ (c.data ++ crlf)

/-- The parts of a chunk, and what follows it. -/
theorem MessageChunk.encode_append (c : MessageChunk) (rest : Bytes) :
    c.encode ++ rest = c.size.encode ++ (c.data ++ (crlf ++ rest)) := by
  rw [encode, List.append_assoc, List.append_assoc]

/-- A message: chunks, the size line of the last chunk, and trailer fields. -/
structure ChunkedMessage where
  chunks : List MessageChunk
  last : ChunkSizeLine
  trailers : List FieldLine
  last_zero : hexValue last.digits = 0

namespace ChunkedMessage

/-- The bytes that the message stands for. -/
def payload (m : ChunkedMessage) : Bytes := m.chunks.flatMap MessageChunk.data

/-- The trailer fields, names and values. -/
def fields (m : ChunkedMessage) : List (Bytes × Bytes) := m.trailers.map fun f => (f.name, f.value)

/-- A message on the wire. -/
def encode (m : ChunkedMessage) : Bytes :=
  m.chunks.flatMap MessageChunk.encode ++
    (m.last.encode ++ (m.trailers.flatMap FieldLine.encode ++ crlf))

end ChunkedMessage

/-! ## Where a part stops -/

/-- Where two strings agree up to the first byte that is not of a kind, the bytes before are
equal. -/
theorem split_of_kind {p : Byte → Bool} {front front' back back' : Bytes}
    (hfront : ∀ ch ∈ front, p ch) (hfront' : ∀ ch ∈ front', p ch)
    (hback : ∃ ch rest, back = ch :: rest ∧ p ch = false)
    (hback' : ∃ ch rest, back' = ch :: rest ∧ p ch = false) (h : front ++ back = front' ++ back') :
    front = front' ∧ back = back' := by
  have hstop : ∀ {front back : Bytes}, (∀ ch ∈ front, p ch) →
      (∃ ch rest, back = ch :: rest ∧ p ch = false) → (front ++ back).takeWhile p = front := by
    rintro front back hall ⟨ch, rest, rfl, hch⟩
    rw [List.takeWhile_append_of_pos hall, List.takeWhile_cons_of_neg, List.append_nil]
    rw [hch]
    exact Bool.false_ne_true
  have heq : front = front' := by
    rw [← hstop hfront hback, ← hstop hfront' hback', h]
  rw [heq] at h
  exact ⟨heq, List.append_cancel_left h⟩

/-- No digit ends a size line or its digits. -/
theorem ChunkSizeLine.behind_digits (l : ChunkSizeLine) (rest : Bytes) :
    ∃ ch more, l.ext ++ (crlf ++ rest) = ch :: more ∧ (hexDigit ch).isSome = false := by
  have hhead := l.ext_head
  cases hext : l.ext with
  | nil => exact ⟨13, 10 :: rest, rfl, by decide⟩
  | cons ch ext =>
    rw [hext] at hhead
    refine ⟨ch, ext ++ (crlf ++ rest), rfl, ?_⟩
    rw [hhead ch rfl]
    decide

/-- A byte of a field is not that of a line end. -/
theorem isFieldByte_ne {ch : Byte} (h : isFieldByte ch) : (ch != 13) = true := by
  rw [bne_iff_ne]
  rintro rfl
  exact absurd h (by decide)

/-- The bytes say where a size line stops. -/
theorem ChunkSizeLine.encode_inj {l l' : ChunkSizeLine} {rest rest' : Bytes}
    (h : l.encode ++ rest = l'.encode ++ rest') : l.digits = l'.digits ∧ rest = rest' := by
  unfold encode at h
  rw [List.append_assoc, List.append_assoc, List.append_assoc, List.append_assoc] at h
  obtain ⟨hdigits, hback⟩ := split_of_kind (p := fun ch => (hexDigit ch).isSome) l.digits_hex
    l'.digits_hex (l.behind_digits rest) (l'.behind_digits rest') h
  obtain ⟨-, hrest⟩ := split_of_kind (p := fun ch => ch != 13)
    (fun ch hch => isFieldByte_ne (l.ext_text ch hch))
    (fun ch hch => isFieldByte_ne (l'.ext_text ch hch)) ⟨13, 10 :: rest, rfl, rfl⟩
    ⟨13, 10 :: rest', rfl, rfl⟩ hback
  have hline : crlf ++ rest = crlf ++ rest' := hrest
  exact ⟨hdigits, List.append_cancel_left hline⟩

/-- A size line starts with a digit. -/
theorem ChunkSizeLine.head_encode (l : ChunkSizeLine) (rest : Bytes) :
    ∃ ch more, l.encode ++ rest = ch :: more ∧ (hexDigit ch).isSome := by
  have hhex := l.digits_hex
  unfold encode
  cases hdigits : l.digits with
  | nil => exact absurd hdigits l.digits_ne
  | cons ch digits =>
    rw [hdigits] at hhex
    exact ⟨ch, digits ++ l.ext ++ crlf ++ rest, rfl, hhex ch List.mem_cons_self⟩

namespace ChunkedMessage

/-- A message starts with a digit. -/
theorem head_encode (m : ChunkedMessage) :
    ∃ ch more, m.encode = ch :: more ∧ (hexDigit ch).isSome := by
  unfold encode
  cases m.chunks with
  | nil => exact m.last.head_encode _
  | cons c chunks =>
    rw [List.flatMap_cons, List.append_assoc, MessageChunk.encode_append]
    exact c.size.head_encode _

/-- Behind chunks a message goes on as a message. -/
theorem split (cs : List MessageChunk) {m : ChunkedMessage} {rest : Bytes}
    (h : cs.flatMap MessageChunk.encode ++ rest = m.encode) :
    ∃ m' : ChunkedMessage, rest = m'.encode ∧
      m.payload = cs.flatMap MessageChunk.data ++ m'.payload ∧ m.fields = m'.fields := by
  induction cs generalizing m with
  | nil => exact ⟨m, h, rfl, rfl⟩
  | cons c cs ih =>
    obtain ⟨chunks, last, trailers, hzero⟩ := m
    rw [List.flatMap_cons, List.append_assoc, MessageChunk.encode_append] at h
    unfold encode at h
    cases chunks with
    | nil =>
      obtain ⟨hdigits, -⟩ := ChunkSizeLine.encode_inj h
      have hlength := c.size_value
      rw [hdigits, hzero] at hlength
      exact absurd hlength.symm (Nat.ne_of_gt (List.length_pos_iff.mpr c.data_ne))
    | cons c' chunks =>
      dsimp only at h
      rw [List.flatMap_cons, List.append_assoc, MessageChunk.encode_append] at h
      obtain ⟨hdigits, hrest⟩ := ChunkSizeLine.encode_inj h
      have hlength : c.data.length = c'.data.length := by
        rw [← c.size_value, ← c'.size_value, hdigits]
      obtain ⟨hdata, hmore⟩ := List.append_inj hrest hlength
      obtain ⟨m', hm', hpayload, hfields⟩ :=
        ih (m := ⟨chunks, last, trailers, hzero⟩) (List.append_cancel_left hmore)
      refine ⟨m', hm', ?_, hfields⟩
      unfold payload at hpayload ⊢
      rw [List.flatMap_cons, List.flatMap_cons, hpayload, hdata, List.append_assoc]

/-- Behind a size line of value zero come the trailers. -/
theorem split_last {l : ChunkSizeLine} (hzero : hexValue l.digits = 0) {m : ChunkedMessage}
    {rest : Bytes} (h : l.encode ++ rest = m.encode) :
    rest = m.trailers.flatMap FieldLine.encode ++ crlf := by
  unfold encode at h
  cases hchunks : m.chunks with
  | nil =>
    rw [hchunks] at h
    exact (ChunkSizeLine.encode_inj h).2
  | cons c chunks =>
    rw [hchunks, List.flatMap_cons, List.append_assoc, MessageChunk.encode_append] at h
    obtain ⟨hdigits, -⟩ := ChunkSizeLine.encode_inj h
    have hlength := c.size_value
    rw [← hdigits, hzero] at hlength
    exact absurd hlength.symm (Nat.ne_of_gt (List.length_pos_iff.mpr c.data_ne))

/-- An empty line behind the size line of value zero ends the message. -/
theorem split_end {l : ChunkSizeLine} (hzero : hexValue l.digits = 0) {m : ChunkedMessage}
    {rest : Bytes} (h : l.encode ++ (crlf ++ rest) = m.encode) : rest = [] := by
  have htrailers := split_last hzero h
  cases hfields : m.trailers with
  | nil =>
    rw [hfields, List.flatMap_nil, List.nil_append] at htrailers
    exact List.append_right_eq_self.mp htrailers
  | cons f fields =>
    rw [hfields, List.flatMap_cons, FieldLine.encode] at htrailers
    have hname := f.isField.name_ne
    have htoken := f.isField.token
    cases hcons : f.name with
    | nil => exact absurd hcons hname
    | cons ch name =>
      rw [hcons] at htrailers htoken
      have hch : 13 = ch := (List.cons_eq_cons.mp htrailers).1
      have htchar := htoken ch List.mem_cons_self
      rw [← hch] at htchar
      exact absurd htchar (by decide)

end ChunkedMessage

end Khttpd
