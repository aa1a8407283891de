import Mathlib.Data.Nat.Digits.Defs
import Khttpd.Model.Dechunk
import Khttpd.Model.Http3Sink

/-!
# Responses over HTTP/1

The output of `KHttpSink`: pending headers, chunks, trailers and the end of a response. The socket
is the list of the bytes that were sent, and the number of bytes that it still takes; a call that
sends all it is given succeeds. An `int` is an integer: sums that leave its range are undefined.
-/

set_option autoImplicit false

namespace Khttpd

/-! ## The socket -/

/-- What was sent, and how much more is taken before a call fails, if any does. -/
structure Socket where
  sent : Bytes
  room : Option ℕ
  deriving DecidableEq, Repr

namespace Socket

/-- A call that sends bytes, and how many of them. -/
def write (cn : Socket) (bytes : Bytes) : Socket × ℕ :=
  match cn.room with
  | none => (⟨cn.sent ++ bytes, none⟩, bytes.length)
  | some room => (⟨cn.sent ++ bytes.take room, some (room - bytes.length)⟩, min room bytes.length)

/-- `kfiber_net_write_full`, `kfiber_net_writev_full` or `kfiber_sendfile_full`, with the number of
bytes left; the call fails unless it is 0. -/
def writeFull (cn : Socket) (bytes : Bytes) : Socket × ℕ :=
  let r := cn.write bytes
  (r.1, bytes.length - r.2)

/-- The loop of `kangle::write_buf` over a chain of buffers, with at most `fuel` calls; `length`
counts what is not sent, and `bufLength` what is not handed over. `none` is a read through a null
`buf`. -/
def writeBufLoop (suffix : Option Bytes) :
    ℕ → List Bytes → Socket → ℤ → ℤ → Option (Socket × ℤ)
  | 0, _, cn, _, length => some (cn, length)
  | fuel + 1, buf, cn, bufLength, length =>
    if 0 < bufLength then
      (KHttp3Sink.prepareLoop (rqWriteBufCount - 1) buf bufLength).bind
        fun (iovecBuf, bufLength, buf) =>
          let iovecBuf := if bufLength = 0 then iovecBuf ++ suffix.toList else iovecBuf
          let r := cn.write iovecBuf.flatten
          let length := length - r.2
          if r.2 < iovecBuf.flatten.length then some (r.1, length)
          else writeBufLoop suffix fuel buf r.1 bufLength length
    else some (cn, length)

/-- `kangle::write_buf`: a round takes at least one buffer off the chain. -/
def writeBuf (cn : Socket) (buf : List Bytes) (length : ℤ) (suffix : Option Bytes) :
    Option (Socket × ℤ) :=
  writeBufLoop suffix (buf.length + 1) buf cn length (length + (suffix.getD []).length)

end Socket

/-! ## Chunk headers -/

/-- A digit of `%x`. -/
def hexChar (digit : ℕ) : Byte := UInt8.ofNat (if digit < 10 then 48 + digit else 87 + digit)

/-- `sprintf(header, "%x", n)`. -/
def sprintfX (n : ℕ) : Bytes := if n = 0 then [48] else ((Nat.digits 16 n).reverse).map hexChar

/-- `"\r\n"`. -/
def crlfText : Bytes := [13, 10]

/-- `sprintf(header, "%x\r\n", len)`. -/
def chunkHeader (len : ℕ) : Bytes := sprintfX len ++ crlfText

/-! ## The sink -/

/-- The fields of `KSingleConnectionSink` and `KHttpSink` that a response works with: `cn`,
`response_left`, `data.send_size`, the buffers of `rc`, and the flags `RQ_TE_CHUNKED`,
`RQ_HAS_SEND_CHUNK_0` and `RQ_CONNECTION_CLOSE`. -/
structure KHttpResponse where
  cn : Socket
  responseLeft : ℤ
  sendSize : ℤ
  rc : List Bytes
  teChunked : Bool
  hasSendChunk0 : Bool
  connectionClose : Bool
  deriving DecidableEq, Repr

namespace KHttpResponse

/-- `rc.get_len()`. -/
def rcLen (s : KHttpResponse) : ℤ := s.rc.flatten.length

/-- `KSingleConnectionSink::write_buf`; the statistics of `add_down_flow` are left out. -/
def writeBuf (s : KHttpResponse) (buf : List Bytes) (length : ℤ) (suffix : Option Bytes) :
    Option (KHttpResponse × ℤ) :=
  (s.cn.writeBuf buf length suffix).map fun r => ({ s with cn := r.1 }, r.2)

/-- `on_success_response`. -/
def onSuccessResponse (s : KHttpResponse) (len : ℤ) : KHttpResponse :=
  if 0 < len then
    { s with
        sendSize := s.sendSize + len
        responseLeft :=
          if 0 ≤ s.responseLeft then max 0 (s.responseLeft - len) else s.responseLeft }
  else s

/-- `internal_write`. -/
def internalWrite (s : KHttpResponse) (buf : List Bytes) (len : ℤ) (suffix : Option Bytes) :
    Option (KHttpResponse × ℤ) :=
  if s.rc ≠ [] then
    (s.writeBuf (s.rc ++ buf) (s.rcLen + len) suffix).map fun r =>
      ({ r.1 with rc := [] }.onSuccessResponse (len - r.2), r.2)
  else (s.writeBuf buf len suffix).map fun r => (r.1.onSuccessResponse (len - r.2), r.2)

/-- `KSingleConnectionSink::write_all(const char *, int)`, whose loop ends where `kfiber_net_write`
sends nothing. -/
def connectionWriteAll (s : KHttpResponse) (str : Bytes) : KHttpResponse × ℤ :=
  let r := s.cn.write str
  ({ s with cn := r.1 }.onSuccessResponse r.2, str.length - r.2)

/-- `write_all(const kbuf *, int)`. -/
def writeAllBuf (s : KHttpResponse) (buf : List Bytes) (len : ℕ) : Option (KHttpResponse × ℤ) :=
  if s.teChunked then
    s.internalWrite (chunkHeader len :: buf) (len + (chunkHeader len).length) (some crlfText)
  else s.internalWrite buf len none

/-- `write_all(const char *, int)`. -/
def writeAll (s : KHttpResponse) (str : Bytes) : Option (KHttpResponse × ℤ) :=
  if s.teChunked then
    s.internalWrite [chunkHeader str.length, str] (str.length + (chunkHeader str.length).length)
      (some crlfText)
  else if s.rc ≠ [] then s.internalWrite [str] str.length none
  else some (s.connectionWriteAll str)

/-- `sendfile` of a file whose next `len` bytes are `content`. The line end behind a chunk is
`sizeof("\r\n")` bytes long, and so has the null byte of the literal. -/
def sendfile (s : KHttpResponse) (content : Bytes) : Option (KHttpResponse × ℤ) :=
  (if s.rc ≠ [] then
      (s.writeBuf s.rc s.rcLen none).map fun r => ({ r.1 with rc := [] }, r.2)
    else some (s, 0)).map fun r =>
      let s := r.1
      if r.2 ≠ 0 then (s, 0)
      else if !s.teChunked then
        let r := s.cn.write content
        ({ s with cn := r.1 }.onSuccessResponse r.2, r.2)
      else
        let size := s.cn.writeFull (chunkHeader content.length)
        let s := { s with cn := size.1 }
        if size.2 ≠ 0 then (s, -1)
        else
          let size2 := s.cn.writeFull content
          let s := { s with cn := size2.1 }
          if size2.2 ≠ 0 then (s, -1)
          else
            let size2 := s.cn.writeFull (crlfText ++ [0])
            let s := { s with cn := size2.1 }
            if size2.2 ≠ 0 then (s, -1)
            else (s.onSuccessResponse (content.length + size.2 + 2), content.length)

/-- `response_trailer`. -/
def responseTrailer (s : KHttpResponse) (name val : Bytes) : KHttpResponse × Bool :=
  if !s.teChunked then (s, true)
  else
    let first := if s.hasSendChunk0 then [] else kglString "0" ++ crlfText
    let r := s.cn.writeFull (first ++ name ++ kglString ": " ++ val ++ crlfText)
    ({ s with cn := r.1, hasSendChunk0 := true }, r.2 = 0)

/-- The end of the chunks in `end_request`. -/
def endChunks (s : KHttpResponse) : KHttpResponse :=
  if s.teChunked ∧ s.responseLeft = -1 then
    let bufs := if s.hasSendChunk0 then crlfText else kglString "0" ++ crlfText ++ crlfText
    let r := s.cn.writeFull bufs
    { s with
        cn := r.1
        hasSendChunk0 := true
        connectionClose := if r.2 ≠ 0 then true else s.connectionClose }
  else s

/-- `end_request`. -/
def endRequest (s : KHttpResponse) : Option KHttpResponse :=
  (if s.rc ≠ [] then s.writeBuf s.rc s.rcLen none else some (s, 0)).map fun r =>
    if r.2 ≠ 0 then { r.1 with connectionClose := true }
    else if 0 < r.1.responseLeft then { r.1 with connectionClose := true }
    else { r.1 with rc := [] }.endChunks

/-! ## A response -/

/-- What a handler writes: a string, the first `len` bytes of a chain, or the next bytes of a
file. -/
inductive BodyPart
  | str (text : Bytes)
  | buf (chain : List Bytes) (len : ℕ) (henough : len ≤ chain.flatten.length)
  | file (content : Bytes)

/-- The bytes of a part. -/
def BodyPart.bytes : BodyPart → Bytes
  | .str text => text
  | .buf chain len _ => chain.flatten.take len
  | .file content => content

/-- One part is written. -/
def writePart (s : KHttpResponse) : BodyPart → Option (KHttpResponse × ℤ)
  | .str text => s.writeAll text
  | .buf chain len _ => s.writeAllBuf chain len
  | .file content => s.sendfile content

/-- The parts of a body. -/
def writeParts : KHttpResponse → List BodyPart → Option KHttpResponse
  | s, [] => some s
  | s, part :: parts => (s.writePart part).bind fun r => writeParts r.1 parts

/-- The trailers, names and values. -/
def responseTrailers (s : KHttpResponse) (trailers : List (Bytes × Bytes)) : KHttpResponse :=
  trailers.foldl (fun s t => (s.responseTrailer t.1 t.2).1) s

/-- A response from its first part to its end. -/
def respond (s : KHttpResponse) (parts : List BodyPart) (trailers : List (Bytes × Bytes)) :
    Option KHttpResponse :=
  (s.writeParts parts).bind fun s => (s.responseTrailers trailers).endRequest

end KHttpResponse

end Khttpd
