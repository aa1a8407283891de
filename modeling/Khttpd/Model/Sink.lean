import Khttpd.Model.Dechunk

/-!
# Requests over HTTP/1

What `KSink::parse_header` keeps of a request, and how `KSink::read` reads its body from the
connection. How methods and URLs are read is a parameter: the branches of `parse_header` that read
them touch neither `left_read` nor the flag `RQ_INPUT_CHUNKED`.
-/

set_option autoImplicit false

namespace Khttpd

/-! ## Field values -/

/-- The places where `KHttpFieldValue::next` stops: behind each comma and the spaces after it. -/
def nextFields : Bytes → List Bytes
  | [] => []
  | ch :: val => if ch = 44 then val.dropWhile isSpace :: nextFields val else nextFields val

/-- The places where a loop over a `KHttpFieldValue` looks. -/
def fieldValues (val : Bytes) : List Bytes := val :: nextFields val

/-- `KHttpFieldValue::is`: a prefix. -/
def fieldIs (val field : Bytes) : Bool := memCaseSame (val.take field.length) field

/-- `string2int`: the digits at the head of a C string, in a signed 64-bit word. -/
def string2int (val : Bytes) : ℤ := (kglAtol (val.takeWhile (· ≠ 0)) : ℤ).bmod (2 ^ 64)

/-! ## The request -/

/-- The fields of `KRequestData` that say nothing about the length of the body. `hasHost` is
`raw_url.host != NULL`, and `header` the list of the header manager. -/
structure KRequestHead where
  meth : ℕ
  httpVersion : ℕ
  hasHost : Bool
  haveExpect : Bool
  hasKeepConnection : Bool
  hasConnectionUpgrade : Bool
  connectionUpgrade : Bool
  connectionClose : Bool
  header : List (Bytes × Bytes)
  deriving DecidableEq, Repr

/-- `KRequestData` with `RQ_INPUT_CHUNKED`, `RQ_HAS_CONTENT_LEN` and `left_read`. -/
structure KRequestData extends KRequestHead where
  inputChunked : Bool
  hasContentLen : Bool
  leftRead : ℤ
  deriving DecidableEq, Repr

/-- What a request line says; the version is missing where `parse_header` returns before it is
read. -/
structure RequestLine where
  meth : ℕ
  httpVersion : Option ℕ
  hasHost : Bool
  deriving DecidableEq, Repr

/-- The parts of `parse_header` that read methods and URLs: `parse_method`, `parse_url` and
`parse_http_version` on a request line, `parse_url_host`, and the pseudo header fields. -/
structure RequestParser where
  requestLine : Bytes → Bytes → Option RequestLine
  urlHost : Bytes → Bool
  pseudoHeader : KRequestHead → Bytes → Bytes → Option KRequestHead

namespace KRequestHead

/-- `add_header` of the header manager; a field above the size limit is refused. -/
def addHeader (d : KRequestHead) (attr val : Bytes) : Option KRequestHead :=
  if attr.length > maxHeaderAttrValSize ∨ val.length > maxHeaderAttrValSize then none
  else some { d with header := d.header ++ [(attr, val)] }

/-- The loop over the values of `Connection`. -/
def connection (d : KRequestHead) (val : Bytes) : KRequestHead :=
  (fieldValues val).foldl (fun d field =>
    if fieldIs field (kglString "keep-alive") then { d with hasKeepConnection := true }
    else if fieldIs field (kglString "upgrade") then { d with hasConnectionUpgrade := true }
    else if fieldIs field (kglString "close") then { d with hasKeepConnection := false }
    else d) d

/-- `parse_header` of a request line. -/
def parseRequestLine (P : RequestParser) (d : KRequestHead) (attr val : Bytes) :
    Option KRequestHead :=
  (P.requestLine attr val).map fun line =>
    let d := { d with meth := line.meth, hasHost := d.hasHost || line.hasHost }
    match line.httpVersion with
    | none => d
    | some version =>
      { d with
        httpVersion := version
        hasKeepConnection := d.hasKeepConnection || version > 0x100 }

/-- `parse_header` of a header field other than `Content-length` and `Transfer-Encoding`. -/
def parseOther (P : RequestParser) (d : KRequestHead) (attr val : Bytes) : Option KRequestHead :=
  let same (name : String) : Bool := memCaseSame attr (kglString name)
  if same "Connection" then (d.connection val).addHeader attr val
  else if same "Expect" then
    if memStr val (kglString "100-continue") then { d with haveExpect := true }.addHeader attr val
    else some d
  else if same "Host" then
    if d.hasHost then some d
    else if P.urlHost val then some { d with hasHost := true }
    else none
  else if same "If-Range" || same "If-Modified-Since" || same "If-None-Match" ||
      same "X-Forwarded-Proto" then some d
  else if same "Range" && val.length > 6 && fieldIs val (kglString "bytes=") then some d
  else d.addHeader attr val

end KRequestHead

/-- The field is `Content-length`. -/
def isContentLength (attr : Bytes) : Bool := memCaseSame attr (kglString "Content-length")

/-- The field is `Transfer-Encoding`. -/
def isTransferEncoding (attr : Bytes) : Bool := memCaseSame attr (kglString "Transfer-Encoding")

namespace KRequestData

/-- `KSink::parse_header`; `none` is `return false`. -/
def parseHeader (P : RequestParser) (d : KRequestData) (attr val : Bytes) (isFirst : Bool) :
    Option KRequestData :=
  if d.httpVersion > 0x100 ∧ attr.head? = some 58 then
    (P.pseudoHeader d.toKRequestHead attr val).map fun head => { d with toKRequestHead := head }
  else if isFirst ∧ d.httpVersion < 0x200 then
    (d.toKRequestHead.parseRequestLine P attr val).map fun head => { d with toKRequestHead := head }
  else if isContentLength attr then
    some { d with leftRead := string2int val, hasContentLen := true }
  else if isTransferEncoding attr then
    some (if memCaseSame val (kglString "chunked") then
        { d with inputChunked := true, leftRead := -1 }
      else d)
  else (d.toKRequestHead.parseOther P attr val).map fun head => { d with toKRequestHead := head }

/-- The header fields behind the request line, one after the other. -/
def parseHeaders (P : RequestParser) (d : KRequestData) (lines : List (Bytes × Bytes)) :
    Option KRequestData :=
  lines.foldlM (fun d line => d.parseHeader P line.1 line.2 false) d

end KRequestData

/-! ## Reading the body -/

/-- `kfiber_net_read(cn, buf, len)`. -/
def kfiberNetRead (len : ℕ) : List Bytes → List Bytes × Option Bytes
  | [] => ([], none)
  | got :: net => (if got.length ≤ len then net else got.drop len :: net, some (got.take len))

/-- `KHttpSink`; `buffer` is what the header parser left from `parserd_hot` on. -/
structure KHttpSink where
  data : KRequestData
  buffer : Bytes
  dechunk : Option KDechunkContext
  deriving DecidableEq, Repr

namespace KHttpSink

/-- What `KHttpSink::parse` does where the header section ends. -/
def headerFinished (s : KHttpSink) : KHttpSink :=
  if s.data.inputChunked then { s with dechunk := some (.init s.buffer) } else s

/-- `KHttpSink::internal_read`. -/
def internalRead (len : ℕ) (s : KHttpSink) (net : List Bytes) :
    KHttpSink × List Bytes × Option Bytes :=
  match s.dechunk with
  | some ctx =>
    let r := ctx.read len net
    ({ s with dechunk := some r.1 }, r.2)
  | none =>
    if s.buffer ≠ [] then ({ s with buffer := s.buffer.drop len }, net, some (s.buffer.take len))
    else (s, kfiberNetRead len net)

/-- The room that `KSink::read` gives to `internal_read`. -/
def readLimit (d : KRequestData) (len : ℕ) : ℕ :=
  if 0 ≤ d.leftRead ∧ !d.connectionUpgrade then min len d.leftRead.toNat else len

/-- What `KSink::read` leaves in `left_read` after it got bytes. -/
def leftAfter (d : KRequestData) (got : Bytes) : ℤ :=
  if got = [] then if d.leftRead = -1 ∧ !d.connectionUpgrade then 0 else d.leftRead
  else if 0 < d.leftRead then d.leftRead - got.length
  else d.leftRead

/-- `KSink::read`; the answer to `Expect` that it sends before is not seen here. -/
def read (len : ℕ) (s : KHttpSink) (net : List Bytes) : KHttpSink × List Bytes × Option Bytes :=
  let s := { s with data := { s.data with haveExpect := false } }
  let r := s.internalRead (readLimit s.data len) net
  match r.2.2 with
  | none => r
  | some got => ({ r.1 with data := { r.1.data with leftRead := leftAfter r.1.data got } }, r.2)

/-- The first `n` calls of `read`, with room for `length i` bytes at call `i`. -/
def reads (length : ℕ → ℕ) :
    ℕ → KHttpSink → List Bytes → List (Option Bytes) × KHttpSink × List Bytes
  | 0, s, net => ([], s, net)
  | n + 1, s, net =>
    let r := s.read (length 0) net
    let rest := reads (fun i => length (i + 1)) n r.1 r.2.1
    (r.2.2 :: rest.1, rest.2)

end KHttpSink

end Khttpd
