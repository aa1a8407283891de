import Khttpd.Model.Sink

/-!
# Parsing header sections

`khttp_parse` over the bytes from `*start` on, and `KHttpSink::parse` over the buffer of a
connection. A folded line is joined in the buffer itself, and the look for the next one can
read the byte behind the bytes that were received: `beyond` is what the memory holds there.
-/

set_option autoImplicit false

namespace Khttpd

/-! ## Lines -/

/-- `khttp_parser`. -/
structure KHttpParser where
  headerLen : ℕ
  started : Bool
  deriving DecidableEq, Repr

/-- The parser before a request. -/
def KHttpParser.init : KHttpParser := ⟨0, false⟩

/-- `khttp_parse_result`. -/
structure KHttpParseResult where
  attr : Bytes
  val : Bytes
  isFirst : Bool
  deriving DecidableEq, Repr

/-- `kgl_parse_result` of `khttp_parse`. -/
inductive KglLineResult
  | success (rs : KHttpParseResult)
  | finished
  | continue
  deriving DecidableEq, Repr

/-- What `khttp_parse` leaves: the parser, the bytes from `*start` on, and its result. -/
structure KHttpParseOut where
  parser : KHttpParser
  rest : Bytes
  result : KglLineResult
  deriving DecidableEq, Repr

/-- The byte between the name and the value of a line. -/
def headerSeparator (isFirst : Bool) : Byte := if isFirst then 32 else 58

/-- `khttp_parse_header` on a line without its line end. -/
def khttpParseHeader (isFirst : Bool) (header : Bytes) : KglLineResult :=
  match memchr (headerSeparator isFirst) header with
  | none => .continue
  | some (attr, val) =>
    .success ⟨attr.takeWhile fun ch => ch ≠
      0 && !khttpIsSpace ch, val.dropWhile khttpIsSpace, isFirst⟩

/-- A line that starts with this byte belongs to the line before. -/
def isFold (ch : Byte) : Bool := ch == 32 || ch == 9

/-- The first `\r` becomes a space. -/
def spaceFirstCr (line : Bytes) : Bytes :=
  match memchr 13 line with
  | none => line
  | some (head, tail) => head ++ 32 :: tail

/-- The loop of `khttp_parse` over folded lines, with at most `fuel` of them: the joined line and
what follows it, or the whole buffer and nothing where the last one is not complete. -/
def joinFolded (beyond : Byte) : ℕ → Bytes → Bytes → Bytes × Option Bytes
  | 0, line, rest => (line, some rest)
  | fuel + 1, line, rest =>
    if isFold (rest.headD beyond) then
      let line := spaceFirstCr (line ++ [32])
      match memchr 10 rest with
      | none => (line ++ rest, none)
      | some (more, rest) => joinFolded beyond fuel (line ++ more) rest
    else (line, some rest)

/-- The line without a `\r` at its end; a line of up to two bytes keeps it. -/
def stripCr (line : Bytes) : Bytes :=
  if line.length + 1 > 3 ∧ line.getLast? = some 13 then line.dropLast else line

/-- The end of `khttp_parse`: a line with its end behind it. -/
def takeLine (p : KHttpParser) (line rest : Bytes) : KHttpParseOut :=
  ⟨⟨p.headerLen + (line.length + 1), true⟩, rest, khttpParseHeader (!p.started) (stripCr line)⟩

/-- The line starts with `\r` or is empty. -/
def isBlankLine (line : Bytes) : Bool := line.isEmpty || line.head? == some 13

/-- `khttp_parse`, with at most `fuel` blank lines before the request line. -/
def khttpParse (beyond : Byte) : ℕ → KHttpParser → Bytes → KHttpParseOut
  | 0, p, buf => ⟨p, buf, .continue⟩
  | fuel + 1, p, buf =>
    match memchr 10 buf with
    | none => ⟨p, buf, .continue⟩
    | some (line, rest) =>
      if isBlankLine line then
        let p := { p with headerLen := p.headerLen + (line.length + 1) }
        if p.started then ⟨p, rest, .finished⟩ else khttpParse beyond fuel p rest
      else if p.started then
        -- the byte that tells whether the next line is folded
        if rest = [] then ⟨p, buf, .continue⟩
        else
          match joinFolded beyond (rest.length + 1) line rest with
          | (buf, none) => ⟨p, buf, .continue⟩
          | (line, some rest) => takeLine p line rest
      else takeLine p line rest

/-! ## Header sections -/

/-- `METH_UNSET`. -/
def methUnset : ℕ := 0

/-- `METH_PRI`. -/
def methPri : ℕ := 33

/-- The constructor of `KRequestData`. -/
def KRequestData.idle : KRequestData :=
  { meth := methUnset, httpVersion := 0, hasHost := false, haveExpect := false,
    hasKeepConnection := false, hasConnectionUpgrade := false, connectionUpgrade := false,
    connectionClose := false, header := [], inputChunked := false, hasContentLen := false,
    leftRead := 0 }

/-- `MAX_HTTP_HEAD_SIZE`. -/
def maxHttpHeadSize : ℕ := 4194304

/-- `kgl_parse_result` of `KHttpSink::parse`. -/
inductive KglParseResult
  | continue
  | finished
  | error
  deriving DecidableEq, Repr

/-- What `KHttpSink::parse` leaves; `lines` are the lines that it hands to `parse_header`. -/
structure KglParseOut where
  lines : List KHttpParseResult
  parser : KHttpParser
  sink : KHttpSink
  result : KglParseResult
  deriving DecidableEq, Repr

/-- The time limit and the size limit, which `KHttpSink::parse` checks where it has to wait. -/
def checkContinue (late : Bool) (p : KHttpParser) : KglParseResult :=
  if late ∨ p.headerLen > maxHttpHeadSize then .error else .continue

namespace KHttpSink

/-- The loop of `KHttpSink::parse`, with at most `fuel` lines. `h2` says that the server speaks
HTTP/2, to which the request line `PRI` switches; `late` that a minute has gone by. -/
def parseLoop (P : RequestParser) (h2 late : Bool) (beyond : Byte) :
    ℕ → KHttpParser → KHttpSink → KglParseOut
  | 0, p, s => ⟨[], p, s, .continue⟩
  | fuel + 1, p, s =>
    let out := khttpParse beyond (s.buffer.length + 1) p s.buffer
    let s := { s with buffer := out.rest }
    match out.result with
    | .continue => ⟨[], out.parser, s, checkContinue late out.parser⟩
    | .finished => ⟨[], out.parser, s.headerFinished, .finished⟩
    | .success rs =>
      match s.data.parseHeader P rs.attr rs.val rs.isFirst with
      | none => ⟨[rs], out.parser, s, .error⟩
      | some data =>
        let s := { s with data := data }
        if rs.isFirst ∧ data.meth = methPri ∧ h2 then ⟨[rs], out.parser, s, .error⟩
        else
          let r := parseLoop P h2 late beyond fuel out.parser s
          { r with lines := rs :: r.lines }

/-- `KHttpSink::parse`. -/
def parse (P : RequestParser) (h2 late : Bool) (beyond : Byte) (p : KHttpParser) (s : KHttpSink) :
    KglParseOut :=
  s.parseLoop P h2 late beyond (s.buffer.length + 1) p

end KHttpSink

/-- How the reads of a header section end. -/
inductive HeaderOutcome
  /-- The last read was not enough. -/
  | waiting
  /-- The bytes behind the header section. -/
  | finished (body : Bytes)
  | error
  deriving DecidableEq, Repr

/-- A read: the bytes that it got, and the byte that the buffer holds behind them. -/
structure HeaderRead where
  got : Bytes
  beyond : Byte
  deriving DecidableEq, Repr

namespace KHttpSink

/-- The reads of a header section, each behind the bytes that are left, within the time limit: the
lines for `parse_header`, and how it ends. -/
def feed (P : RequestParser) (h2 : Bool) :
    KHttpParser → KHttpSink → List HeaderRead → List KHttpParseResult × HeaderOutcome
  | _, _, [] => ([], .waiting)
  | p, s, read :: reads =>
    let r := { s with buffer := s.buffer ++ read.got }.parse P h2 false read.beyond p
    match r.result with
    | .continue =>
      let next := feed P h2 r.parser r.sink reads
      (r.lines ++ next.1, next.2)
    | .finished => (r.lines, .finished (r.sink.buffer ++ reads.flatMap HeaderRead.got))
    | .error => (r.lines, .error)

end KHttpSink

end Khttpd
