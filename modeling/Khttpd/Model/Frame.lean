import Mathlib.Algebra.Order.Ring.Int

/-!
# Bytes, constants and frame headers of the HTTP/2 connection

The numeric constants of `KHttp2.h`, the big-endian readers `kgl_http_v2_parse_*`, and the
nine-byte `http2_frame_header` that every queued frame starts with. Sizes and identifiers are
natural numbers; the fields that are cut to a machine width in the source are cut here by an
explicit `%`.
-/

set_option autoImplicit false

namespace Khttpd

/-- A `u_char`. -/
abbrev Byte : Type := UInt8

/-- The bytes between two `u_char *` of the source. -/
abbrev Bytes : Type := List UInt8

/-- `kgl_string`: the bytes of a C string literal. -/
def kglString (s : String) : Bytes :=
  s.toList.map fun c => UInt8.ofNat c.toNat

/-! ## Sizes -/

/-- `KGL_HTTP_V2_STATE_BUFFER_SIZE`: the most bytes `state_save` keeps. -/
def stateBufferSize : ℕ := 16

/-- `sizeof(state.buffer)`: the room `get_read_buffer` offers to one read. -/
def readBufferSize : ℕ := 8192

/-- `KGL_HTTP_V2_MAX_FRAME_SIZE`. -/
def maxFrameSize : ℕ := 2 ^ 24 - 1

/-- `KGL_HTTP_V2_INT_OCTETS`: the most octets `parse_int` reads. -/
def intOctets : ℕ := 4

/-- `KGL_HTTP_V2_FRAME_HEADER_SIZE`, also `sizeof(http2_frame_header)`. -/
def frameHeaderSize : ℕ := 9

/-- `KGL_HTTP_V2_DEFAULT_FRAME_SIZE`. -/
def defaultFrameSize : ℕ := 2 ^ 14

/-- `KGL_HTTP_V2_DEFAULT_MAX_STREAM`. -/
def defaultMaxStream : ℕ := 64

/-- `KGL_HTTP_V2_MAX_WINDOW`. -/
def maxWindow : ℕ := 2 ^ 31 - 1

/-- `KGL_HTTP_V2_DEFAULT_WINDOW`. -/
def defaultWindow : ℕ := 65535

/-- `KGL_HTTP_V2_STREAM_RECV_WINDOW`. -/
def streamRecvWindow : ℕ := 262143

/-- `KGL_HTTP_V2_CONNECTION_RECV_WINDOW`. -/
def connectionRecvWindow : ℕ := maxWindow

/-- `KGL_HEADER_FRAME_CHUNK_SIZE`. -/
def headerFrameChunkSize : ℕ := 4096

/-- `kgl_http_v2_index_size()`: the number of buckets of `streams_index`. -/
def indexSize : ℕ := 16

/-- `kgl_http_v2_index(sid)`: the bucket of a stream identifier. -/
def streamIndex (sid : ℕ) : ℕ := sid / 2 % 16

/-! ## Frame types, flags and error codes -/

/-- `KGL_HTTP_V2_DATA_FRAME` and the other frame types. -/
def dataFrame : ℕ := 0x0
@[inherit_doc dataFrame] def headersFrame : ℕ := 0x1
@[inherit_doc dataFrame] def rstStreamFrame : ℕ := 0x3
@[inherit_doc dataFrame] def settingsFrame : ℕ := 0x4
@[inherit_doc dataFrame] def pingFrame : ℕ := 0x6
@[inherit_doc dataFrame] def goawayFrame : ℕ := 0x7
@[inherit_doc dataFrame] def windowUpdateFrame : ℕ := 0x8
@[inherit_doc dataFrame] def continuationFrame : ℕ := 0x9
@[inherit_doc dataFrame] def altsvcFrame : ℕ := 0xa

/-- `KGL_HTTP_V2_FRAME_STATES`: the number of frame types with a handler. -/
def frameStates : ℕ := 11

/-- `KGL_HTTP_V2_ACK_FLAG` and the other frame flags. -/
def ackFlag : UInt8 := 0x01
@[inherit_doc ackFlag] def endStreamFlag : UInt8 := 0x01
@[inherit_doc ackFlag] def endHeadersFlag : UInt8 := 0x04
@[inherit_doc ackFlag] def paddedFlag : UInt8 := 0x08
@[inherit_doc ackFlag] def priorityFlag : UInt8 := 0x20

/-- The test `flags & mask`. -/
def hasFlag (flags mask : UInt8) : Bool := (flags &&& mask) != 0

/-- `KGL_HTTP_V2_NO_ERROR` and the other error codes. -/
def noError : ℕ := 0x0
@[inherit_doc noError] def protocolError : ℕ := 0x1
@[inherit_doc noError] def internalError : ℕ := 0x2
@[inherit_doc noError] def flowCtrlError : ℕ := 0x3
@[inherit_doc noError] def streamClosed : ℕ := 0x5
@[inherit_doc noError] def sizeError : ℕ := 0x6
@[inherit_doc noError] def cancel : ℕ := 0x8
@[inherit_doc noError] def compError : ℕ := 0x9
@[inherit_doc noError] def connectError : ℕ := 0xa
@[inherit_doc noError] def enhanceYourCalm : ℕ := 0xb

/-! ## Big-endian numbers -/

/-- `kgl_http_v2_parse_uint16(p)`. -/
def parseUint16 (p : Bytes) : ℕ :=
  (p.getD 0 0).toNat * 2 ^ 8 + (p.getD 1 0).toNat

/-- `kgl_http_v2_parse_uint32(p)`. -/
def parseUint32 (p : Bytes) : ℕ :=
  (p.getD 0 0).toNat * 2 ^ 24 + (p.getD 1 0).toNat * 2 ^ 16 +
    (p.getD 2 0).toNat * 2 ^ 8 + (p.getD 3 0).toNat

/-- `kgl_http_v2_parse_length(head)`. -/
def parseLength (head : ℕ) : ℕ := head / 2 ^ 8

/-- `kgl_http_v2_parse_type(head)`. -/
def parseType (head : ℕ) : ℕ := head % 2 ^ 8

/-- `kgl_http_v2_parse_sid(p)`, also `kgl_http_v2_parse_window(p)`: the top bit is dropped. -/
def parseSid (p : Bytes) : ℕ := parseUint32 p % 2 ^ 31

/-- `htons`: the two bytes of a `uint16_t`. -/
def htons (n : ℕ) : Bytes :=
  [UInt8.ofNat (n / 2 ^ 8), UInt8.ofNat n]

/-- `htonl`: the four bytes of a `uint32_t`. -/
def htonl (n : ℕ) : Bytes :=
  [UInt8.ofNat (n / 2 ^ 24), UInt8.ofNat (n / 2 ^ 16), UInt8.ofNat (n / 2 ^ 8), UInt8.ofNat n]

/-- `http2_frame_header`: the field `length_type` as it is stored, the flags and the stream
identifier in host order. -/
structure Http2FrameHeader where
  lengthType : ℕ
  flags : UInt8
  streamId : ℕ
  deriving DecidableEq, Repr

/-- A header that `memset` has cleared. -/
def Http2FrameHeader.zero : Http2FrameHeader := ⟨0, 0, 0⟩

/-- `set_length_type`: the length is shifted over the type inside a 32-bit `int`. -/
def Http2FrameHeader.setLengthType (h : Http2FrameHeader) (length type : ℕ) : Http2FrameHeader :=
  { h with lengthType := (length * 2 ^ 8 + type) % 2 ^ 32 }

/-- The nine packed bytes of a header. -/
def Http2FrameHeader.bytes (h : Http2FrameHeader) : Bytes :=
  htonl h.lengthType ++ h.flags :: htonl h.streamId

end Khttpd
