import Khttpd.Lib.MemoryProgram
import Khttpd.Model.Text

/-!
# Header lines in the memory of the buffer

`khttp_parse` and `khttp_parse_header` of `KHttpParser.h` with their pointers: what they read and
write, byte by byte. A pointer is an address; the parser works on `[*start, end)` and puts its
terminators there. `add_header` of `KHttpHeaderManager` keeps the pointers of a line, and
`get_read_buffer` of `KHttpSink` moves the buffer under them.
-/

set_option autoImplicit false

namespace Khttpd

namespace InPlace

open MemoryProgram

/-- A program on the memory of the process. -/
abbrev CProg (α : Type) : Type := Prog ℕ Byte α

/-! ## Lines -/

/-- `khttp_parser`. -/
structure KHttpParser where
  headerLen : ℕ
  started : Bool
  finished : Bool
  firstSame : Bool
  deriving DecidableEq, Repr

/-- `khttp_parse_result`. -/
structure KHttpParseResult where
  attr : ℕ
  attrLen : ℕ
  val : ℕ
  valLen : ℕ
  isFirst : Bool
  requestLine : Bool
  deriving DecidableEq, Repr

/-- `kgl_parse_result` of `khttp_parse`. -/
inductive KglParseResult
  | success (rs : KHttpParseResult)
  | finished
  | continue
  deriving DecidableEq, Repr

/-- What `khttp_parse` leaves in its arguments, and its result. -/
structure KHttpParseOut where
  parser : KHttpParser
  start : ℕ
  result : KglParseResult
  deriving DecidableEq, Repr

/-- `memchr(s, c, n)`. -/
def memchr (s : ℕ) (c : Byte) : ℕ → CProg (Option ℕ)
  | 0 => pure none
  | n + 1 => do
    let b ← load s
    if b = c then pure (some s) else memchr (s + 1) c n

/-- A loop that goes on while the byte is no terminator and `more` holds, with at most `fuel` of
them. -/
def scanWhile (more : Byte → Bool) : ℕ → ℕ → CProg ℕ
  | 0, p => pure p
  | fuel + 1, p => do
    let b ← load p
    if b ≠ 0 ∧ more b then scanWhile more fuel (p + 1) else pure p

/-- The loop over the space in front of a value. -/
def skipSpaces (fuel val : ℕ) : CProg ℕ := scanWhile (fun b => b == 32) fuel val

/-- The loop that looks for the end of a name. -/
def findHeaderEnd (fuel headerEnd : ℕ) : CProg ℕ := scanWhile (fun b => b != 32) fuel headerEnd

/-- `khttp_parse_header`. Both loops stop at a terminator at the latest: the one at `end`, and the
one behind the name. -/
def khttpParseHeader (parser : KHttpParser) (isFirst : Bool) (header endp : ℕ) :
    CProg KglParseResult := do
  let requestLine := isFirst && !parser.firstSame
  let found ← memchr header (if requestLine then 32 else 58) (endp - header)
  match found with
  | none => pure .continue
  | some sep => do
    store sep 0
    let val ← skipSpaces (endp - sep) (sep + 1)
    let headerEnd ← findHeaderEnd (sep - header + 1) header
    store headerEnd 0
    pure (.success ⟨header, headerEnd - header, val, endp - val, isFirst, requestLine⟩)

/-- The first `\r` of what was checked becomes a space. -/
def spaceCr (start checked : ℕ) : CProg Unit := do
  let pr ← memchr start 13 checked
  match pr with
  | none => pure ()
  | some pr => store pr 32

/-- The loop over folded lines from the line end at `pn` on, with at most `fuel` of them: the last
line end, or `none` where a folded line is not complete. -/
def foldLines (start endp : ℕ) : ℕ → ℕ → CProg (Option ℕ)
  | 0, pn => pure (some pn)
  | fuel + 1, pn => do
    let b ← load (pn + 1)
    if b = 32 ∨ b = 9 then do
      store pn 32
      spaceCr start (pn + 1 - start)
      let next ← memchr pn 10 (endp - pn)
      match next with
      | none => pure none
      | some pn => foldLines start endp fuel pn
    else pure (some pn)

/-- Whether a `\r` comes before the line end at `pn`, which is looked at in lines of more than three
bytes. -/
def crBefore (pn checked : ℕ) : CProg Bool :=
  if checked > 3 then do
    let b ← load (pn - 1)
    pure (b == 13)
  else pure false

/-- The end of `khttp_parse`: the line from `start` to the line end at `pn`. -/
def takeLine (parser : KHttpParser) (start pn : ℕ) : CProg KHttpParseOut := do
  let checked := pn + 1 - start
  let cr ← crBefore pn checked
  let pn := if cr then pn - 1 else pn
  store pn 0
  let parser' := { parser with headerLen := parser.headerLen + checked, started := true }
  let result ← khttpParseHeader parser' (!parser.started) start pn
  pure ⟨parser', start + checked, result⟩

/-- `khttp_parse`, with at most `fuel` blank lines before the first line. -/
def khttpParse (endp : ℕ) : ℕ → KHttpParser → ℕ → CProg KHttpParseOut
  | 0, parser, start => pure ⟨parser, start, .continue⟩
  | fuel + 1, parser, start =>
    if start = endp then pure ⟨parser, start, .continue⟩
    else do
      let found ← memchr start 10 (endp - start)
      match found with
      | none => pure ⟨parser, start, .continue⟩
      | some pn => do
        let first ← load start
        if first = 10 ∨ first = 13 then
          let checked := pn + 1 - start
          let parser' := { parser with headerLen := parser.headerLen + checked }
          if parser.started then
            pure ⟨{ parser' with finished := true }, start + checked, .finished⟩
          else khttpParse endp fuel parser' (start + checked)
        else if parser.started then
          if pn = endp - 1 then pure ⟨parser, start, .continue⟩
          else do
            let folded ← foldLines start endp (endp - pn) pn
            match folded with
            | none => pure ⟨parser, start, .continue⟩
            | some pn => takeLine parser start pn
        else takeLine parser start pn

/-- A call of `khttp_parse`: each blank line has at least one byte. -/
def parse (parser : KHttpParser) (start endp : ℕ) : CProg KHttpParseOut :=
  khttpParse endp (endp - start + 1) parser start

/-! ## Stored headers -/

/-- `KHttpHeader`: the pointer to the name, and three fields of 16 bits. -/
structure KHttpHeader where
  buf : ℕ
  nameLen : ℕ
  valOffset : ℕ
  valLen : ℕ
  bufReoffset : Bool
  deriving DecidableEq, Repr

/-- The bytes that are read back as the name. -/
def KHttpHeader.name (av : KHttpHeader) (m : ℕ → Byte) : Bytes := memRead m av.buf av.nameLen

/-- The bytes that are read back as the value. -/
def KHttpHeader.value (av : KHttpHeader) (m : ℕ → Byte) : Bytes :=
  memRead m (av.buf + av.valOffset) av.valLen

/-- `(uint16_t)n`. -/
def toUint16 (n : ℤ) : ℕ := (n % 2 ^ 16).toNat

/-- `add_header(kgl_pool_t *, char *, int, char *, int)`; `none` is the null pointer of a header
that is rejected. -/
def addHeader (attr : ℕ) (attrLen : ℤ) (val : ℕ) (valLen : ℤ) : Option KHttpHeader :=
  if valLen < 0 then none
  else if attrLen > maxHeaderAttrValSize ∨ valLen > maxHeaderAttrValSize then none
  else some {
    buf := attr
    nameLen := toUint16 attrLen
    valOffset := toUint16 (val - attr)
    valLen := toUint16 valLen
    bufReoffset := true }

/-- The buffer of `KHttpSink` and the list of its headers; `used` bytes from `buf` on were received.
-/
structure SinkBuffer where
  mem : ℕ → Byte
  buf : ℕ
  used : ℕ
  bufSize : ℕ
  parserdHot : ℕ
  header : List KHttpHeader

/-- `adjust_buffer_offset`. -/
def adjustBufferOffset (offset : ℤ) (header : List KHttpHeader) : List KHttpHeader :=
  header.map fun av => if av.bufReoffset then { av with buf := (av.buf + offset).toNat } else av

/-- `get_read_buffer`, where `xmalloc` returns `nb`. A buffer of twice the size has room. -/
def SinkBuffer.getReadBuffer (nb : ℕ) (s : SinkBuffer) : SinkBuffer :=
  if s.used < s.bufSize then s
  else
    let deltaPoint : ℤ := (nb : ℤ) - s.buf
    { s with
      mem := fun a => if nb ≤ a ∧ a < nb + s.used then s.mem (s.buf + (a - nb)) else s.mem a
      buf := nb
      bufSize := s.bufSize * 2
      parserdHot := (s.parserdHot + deltaPoint).toNat
      header := adjustBufferOffset deltaPoint s.header }

/-- What happens to the buffer between two lines: it is asked for room, or bytes are received. -/
inductive BufferEvent
  | getReadBuffer (nb : ℕ)
  | received (data : Bytes)
  deriving DecidableEq, Repr

/-- One event; no more is received than there is room for. -/
def SinkBuffer.step (s : SinkBuffer) : BufferEvent → SinkBuffer
  | .getReadBuffer nb => s.getReadBuffer nb
  | .received data =>
    if s.used + data.length ≤ s.bufSize then
      { s with mem := memWrite s.mem (s.buf + s.used) data, used := s.used + data.length }
    else s

/-- A number of events. -/
def SinkBuffer.run (s : SinkBuffer) (events : List BufferEvent) : SinkBuffer :=
  events.foldl SinkBuffer.step s

end InPlace

end Khttpd
