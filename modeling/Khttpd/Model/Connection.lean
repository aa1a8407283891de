import Mathlib.Data.Int.Notation
import Khttpd.Model.HpackTable
import Khttpd.Model.WriteBuffer

/-!
# The data of an HTTP/2 connection

`KHttp2`, its streams `KHttp2Context` and the parser state `kgl_http_v2_state_t`. A pointer to
a stream is a number (`CtxId`), a pointer to a `KHttp2Node` is the identifier stored in the
node. Besides the fields of the source a connection carries its environment (the clock, the
server configuration, which streams are held by a fiber, which by an idle upstream) and the
`trace` of what it did to its peers: calls to the sinks, frames queued, fibers started and woken.
-/

set_option autoImplicit false

namespace Khttpd

/-- A `KHttp2Context *`. -/
abbrev CtxId : Type := ℕ

/-- The handlers `KHttp2::state_*`. -/
inductive Handler
  | statePreface | statePrefaceEnd | stateHead
  | stateData | stateReadData
  | stateHeaders | stateHeaderBlock | stateProcessHeader | stateHeaderComplete
  | stateFieldLen | stateFieldHuff | stateFieldRaw | stateFieldSkip
  | statePriority | stateRstStream | stateSettings | stateSettingsParams
  | statePushPromise | statePing | stateGoaway | stateWindowUpdate
  | stateContinuation | stateAltsvc
  | stateSkip | stateComplete
  deriving DecidableEq, Repr

/-- `kgl_http_v2_header_t`: a name and a value, `none` for a NULL `data`. -/
structure Header where
  name : Option Bytes
  value : Option Bytes
  deriving DecidableEq, Repr

/-- The `len` of a `kgl_str_t`. -/
def strLen (s : Option Bytes) : ℕ := (s.getD []).length

/-- `kgl_http_v2_state_t`. `field` is the text from `field_start` to `field_end` (`none` before
the first string), `buffer` the `buffer_used` bytes kept for the next read, and `pool` the
stream whose request owns the pool. The flag `incomplete` is never read and left out. -/
structure ParserState where
  sid : ℕ
  length : ℕ
  padding : ℕ
  flags : UInt8
  parseName : Bool
  parseValue : Bool
  index : Bool
  keepPool : Bool
  fieldState : Byte
  fieldRest : ℕ
  field : Option Bytes
  pool : Option CtxId
  header : Header
  headerLength : ℕ
  buffer : Bytes
  handler : Handler
  stream : Option CtxId

/-- What a suspended writer hands over: a chain of memory buffers or a file. -/
inductive WaitBuf
  | mem (chain : List Bytes)
  | file (file : ℕ)
  deriving DecidableEq, Repr

/-- `kgl_http2_event` as `write_wait`. -/
structure WriteEvent where
  buf : Option WaitBuf
  bufLen : ℕ
  len : ℤ
  deriving DecidableEq, Repr

/-- `IS_WRITE_WAIT_FOR_WINDOW`. -/
def WriteEvent.forWindow (e : WriteEvent) : Bool := e.len < 0 && e.buf.isSome

/-- `IS_WRITE_WAIT_FOR_HUP`. -/
def WriteEvent.forHup (e : WriteEvent) : Bool := e.buf.isNone

/-- `IS_WRITE_WAIT_FOR_WRITING`. -/
def WriteEvent.forWriting (e : WriteEvent) : Bool := 0 ≤ e.len && e.buf.isSome

/-- `kgl_http2_event` as `read_wait`: whether a fiber waits, whether it holds a header callback
rather than a buffer, and the size of the buffer. -/
structure ReadEvent where
  fiber : Bool
  header : Bool
  bufLen : ℕ
  deriving DecidableEq, Repr

/-- `KHttp2Context`. `haveExpect` is `RQ_HAVE_EXPECT` of the request that owns the stream, and
`readBuffer` the unread bytes of its `KSendBuffer`. -/
structure KHttp2Context where
  node : Option ℕ
  cookies : Option (List Bytes)
  contentLeft : ℤ
  activeMsec : ℕ
  tmoLeft : ℕ
  tmo : ℕ
  inClosed : Bool
  outClosed : Bool
  rst : Bool
  is100Continue : Bool
  parsedHeader : Bool
  writeTrailer : Bool
  adminStream : Bool
  destroyByHttp2 : Bool
  hasUpgrade : Bool
  hasExpect : Bool
  sendfile : Bool
  sendWindow : ℤ
  recvWindow : ℕ
  sendHeader : Option KHttp2HeaderFrame
  writeWait : Option WriteEvent
  readWait : Option ReadEvent
  readBuffer : Option Bytes
  trailer : List (Bytes × Bytes)
  haveExpect : Bool

/-- `KHttp2Context::Init(send_window)`. -/
def KHttp2Context.init (sendWindow : ℤ) : KHttp2Context where
  node := none
  cookies := none
  contentLeft := 0
  activeMsec := 0
  tmoLeft := 0
  tmo := 0
  inClosed := false
  outClosed := false
  rst := false
  is100Continue := false
  parsedHeader := false
  writeTrailer := false
  adminStream := false
  destroyByHttp2 := false
  hasUpgrade := false
  hasExpect := false
  sendfile := false
  sendWindow := sendWindow
  recvWindow := streamRecvWindow
  sendHeader := none
  writeWait := none
  readWait := none
  readBuffer := none
  trailer := []
  haveExpect := false

/-- `is_available`. -/
def KHttp2Context.isAvailable (ctx : KHttp2Context) : Bool :=
  !ctx.rst && !ctx.destroyByHttp2

/-- `set_content_length`. -/
def KHttp2Context.setContentLength (ctx : KHttp2Context) (contentLength : ℤ) : KHttp2Context :=
  { ctx with contentLeft := if 0 ≤ contentLength then contentLength else -1 }

/-- The writer of the stream waits for window. -/
def KHttp2Context.waitsForWindow (ctx : KHttp2Context) : Bool :=
  ctx.writeWait.any WriteEvent.forWindow

/-- `KHttp2Node`; the chain pointer `index` is the order of the bucket. `stream` is never NULL
between two statements: where `get_node` allocates a node the assignment follows. -/
structure KHttp2Node where
  id : ℕ
  stream : CtxId
  deriving DecidableEq, Repr

/-- The header of a queued frame, and the stream it was queued for. -/
structure QueuedFrame where
  type : ℕ
  flags : UInt8
  sid : ℕ
  length : ℕ
  stream : Option CtxId
  deriving DecidableEq, Repr

/-- What a connection does to its surroundings, in the order it happens. -/
inductive Ev
  /-- `state_head` took nine bytes for a frame header. -/
  | frameHead (sid length type : ℕ) (flags : UInt8)
  /-- A pair is given to `parse_header` of the sink or the upstream. -/
  | parseHeader (c : CtxId) (name value : Bytes)
  /-- A cookie value is kept by `add_cookie`. -/
  | addCookie (c : CtxId) (value : Bytes)
  /-- The joined cookies are given to `parse_header` by `construct_cookie_header`. -/
  | cookieHeader (c : CtxId) (value : Bytes)
  /-- The header callback of a waiting upstream is called outside `parse_header`. -/
  | headerCallback (c : CtxId) (name value : Bytes)
  /-- A pair is given to the insertion in the HPACK dynamic table. -/
  | addHeader (name value : Bytes)
  /-- `on_header_success` of an available stream. -/
  | headerSuccess (c : CtxId)
  /-- A node is made for a stream. -/
  | openNode (c : CtxId) (sid : ℕ)
  /-- `kfiber_create` for the request of a stream. -/
  | startFiber (c : CtxId) (sid : ℕ)
  /-- DATA bytes are taken for a stream. -/
  | data (c : CtxId) (bytes : Bytes)
  /-- END_STREAM of a DATA or HEADERS frame closes a stream for reading. -/
  | endStream (c : CtxId)
  /-- A stream is reset by its peer, by `terminate_stream` or by `close`. -/
  | reset (c : CtxId)
  /-- Bytes are copied to the reader of a stream. -/
  | copied (c : CtxId) (bytes : Bytes)
  /-- A call of `read` returns at once. -/
  | readReturns (c : CtxId) (got : ℤ)
  /-- The reader of a stream is resumed with a result; `header` is set where it waits for a header.
  -/
  | wakeRead (c : CtxId) (header : Bool) (got : ℤ)
  /-- A fiber is suspended in `write` or `sendfile`. -/
  | waitWrite (c : CtxId)
  /-- The writer of a stream is resumed with a result. -/
  | wakeWrite (c : CtxId) (got : ℤ)
  /-- The callback of `readhup` is called. -/
  | readhup (c : CtxId) (got : ℤ)
  /-- A frame is queued. -/
  | queued (frame : QueuedFrame)
  /-- A WINDOW_UPDATE for a stream, or for the connection, is queued. -/
  | windowUpdateSent (c : Option CtxId) (increment : ℕ)
  /-- A WINDOW_UPDATE was added to the window of a stream, or of the connection. -/
  | windowUpdate (c : Option CtxId) (increment : ℕ)
  /-- A SETTINGS parameter was accepted. -/
  | setting (id value : ℕ)
  /-- A stream was handed to `release_admin`. -/
  | releaseAdmin (c : CtxId)
  /-- `destroy_node` was called for a stream, on a node (`none` is NULL) that was linked or
  not. -/
  | destroyNode (c : CtxId) (node : Option ℕ) (linked : Bool)
  /-- `close` with a status. -/
  | close (status : ℕ)
  deriving DecidableEq, Repr

/-- `KHttp2`. The fields from `deleted` on are not in the source: whether the object was
deleted, whether it did something undefined (a NULL pointer followed, an object deleted inside
its own destructor), its environment and its trace, latest event first. -/
structure KHttp2 where
  writeBuffer : KHttp2WriteBuffer
  activeQueue : List CtxId
  streamsIndex : ℕ → List KHttp2Node
  ctx : CtxId → KHttp2Context
  nextCtx : ℕ
  state : ParserState
  hpack : Hpack
  lastStreamMsec : ℕ
  lastPeerSid : ℕ
  lastSelfSid : ℕ
  processing : ℤ
  sendWindow : ℕ
  recvWindow : ℕ
  initWindow : ℕ
  frameSize : ℕ
  maxStream : ℕ
  enableConnect : Bool
  writeProcessing : Bool
  readProcessing : Bool
  peerGoaway : Bool
  selfGoaway : Bool
  closed : Bool
  pinged : Bool
  clientModel : Bool
  hasAdminStream : Bool
  deleted : Bool
  fault : Bool
  now : ℕ
  timeOut : ℕ
  junk : ℕ → Http2FrameHeader
  owners : List CtxId
  pooled : List CtxId
  trace : List Ev

namespace KHttp2

/-! ## Small updates -/

/-- Assign to fields of a stream. -/
def modify (s : KHttp2) (c : CtxId) (f : KHttp2Context → KHttp2Context) : KHttp2 :=
  { s with ctx := Function.update s.ctx c (f (s.ctx c)) }

/-- Assign to fields of the parser state. -/
def setState (s : KHttp2) (f : ParserState → ParserState) : KHttp2 :=
  { s with state := f s.state }

/-- Record an event. -/
def log (s : KHttp2) (e : Ev) : KHttp2 :=
  { s with trace := e :: s.trace }

/-- Record DATA bytes; the pieces of one frame are recorded as one event. -/
def logData (s : KHttp2) (c : CtxId) (bytes : Bytes) : KHttp2 :=
  match s.trace with
  | .data c' old :: trace =>
    if c = c' then { s with trace := .data c (old ++ bytes) :: trace }
    else s.log (.data c bytes)
  | _ => s.log (.data c bytes)

/-- Undefined behaviour. -/
def setFault (s : KHttp2) : KHttp2 := { s with fault := true }

/-! ## Nodes -/

/-- The nodes of all buckets in the order the loops over `streams_index` visit them. -/
def allNodes (s : KHttp2) : List KHttp2Node :=
  (List.range indexSize).flatMap s.streamsIndex

/-- `get_node(sid, false)`. -/
def getNode (s : KHttp2) (sid : ℕ) : Option KHttp2Node :=
  (s.streamsIndex (streamIndex sid)).find? fun n => n.id = sid

/-- `get_node(sid, true)` where the node is new, with the assignment `node->stream = ctx` that
follows each such call. -/
def newNode (s : KHttp2) (sid : ℕ) (c : CtxId) : KHttp2 :=
  let index := streamIndex sid
  let bucket := ⟨sid, c⟩ :: s.streamsIndex index
  { s.log (.openNode c sid) with streamsIndex := Function.update s.streamsIndex index bucket }

/-- `destroy_node`: unlink the node from its bucket. -/
def destroyNode (s : KHttp2) (c : CtxId) (node : Option ℕ) : KHttp2 :=
  match node with
  | none => (s.log (.destroyNode c none false)).setFault
  | some id =>
    let index := streamIndex id
    let linked := (s.streamsIndex index).any fun n => n.id = id
    let bucket := (s.streamsIndex index).eraseP fun n => n.id = id
    { s.log (.destroyNode c node linked) with
      streamsIndex := Function.update s.streamsIndex index bucket }

/-! ## The queue of waiting streams -/

/-- `RemoveQueue`. -/
def removeQueue (s : KHttp2) (c : CtxId) : KHttp2 :=
  { s with activeQueue := s.activeQueue.erase c }

/-- `KHttp2::AddQueue`. -/
def addQueue (s : KHttp2) (c : CtxId) : KHttp2 :=
  let s := s.removeQueue c
  let s := s.modify c fun ctx => { ctx with tmoLeft := ctx.tmo, activeMsec := s.now }
  { s with activeQueue := s.activeQueue ++ [c] }

/-- `KHttp2::FlushQueue`. -/
def flushQueue (s : KHttp2) (c : CtxId) : KHttp2 :=
  let s := s.removeQueue c
  if (s.ctx c).readWait.isSome || (s.ctx c).waitsForWindow then s.addQueue c else s

/-! ## Queueing frames -/

/-- `start_write`. -/
def startWrite (s : KHttp2) : KHttp2 :=
  if s.writeProcessing || s.closed || s.writeBuffer.left = 0 then s
  else { s with writeProcessing := true }

/-- `write_buffer.push` of the buffers of one frame. -/
def pushFrame (s : KHttp2) (frame : QueuedFrame) (bufs : List Http2Buff) : KHttp2 :=
  ({ s with writeBuffer := s.writeBuffer.push bufs }).log (.queued frame)

/-- Queue a frame made by `get_frame`. -/
def pushGetFrame (s : KHttp2) (c : Option CtxId) (sid : ℕ) (payload : Bytes) (type : ℕ)
    (flags : UInt8) (nodelay : Bool) : KHttp2 :=
  s.pushFrame ⟨type, flags, sid, payload.length, c⟩
    [{ getFrame sid payload type flags with tcpNodelay := nodelay }]

/-- `send_rst_stream`. -/
def sendRstStream (s : KHttp2) (c : Option CtxId) (sid status : ℕ) : KHttp2 :=
  (s.pushGetFrame c sid (htonl status) rstStreamFrame 0 true).startWrite

/-- `send_window_update`; the second component is what it returns. -/
def sendWindowUpdate (s : KHttp2) (c : Option CtxId) (sid window : ℕ) : KHttp2 × Bool :=
  if window = 0 then (s, false)
  else
    ((s.log (.windowUpdateSent c window)).pushGetFrame c sid (htonl window)
      windowUpdateFrame 0 true,
      true)

/-- `send_settings_ack`. -/
def sendSettingsAck (s : KHttp2) : KHttp2 :=
  (s.pushGetFrame none 0 [] settingsFrame ackFlag false).startWrite

/-- `send_settings`: the stream limit, the stream window, the frame size and extended
CONNECT. -/
def sendSettings (s : KHttp2) : KHttp2 :=
  let payload := htons 3 ++ htonl s.maxStream ++ (htons 4 ++ htonl streamRecvWindow) ++
    (htons 5 ++ htonl maxFrameSize) ++ (htons 8 ++ htonl 1)
  (s.pushGetFrame none 0 payload settingsFrame 0 false).startWrite

/-- `goaway`. -/
def goaway (s : KHttp2) (errorCode : ℕ) : KHttp2 :=
  let s := { s with selfGoaway := true }
  (s.pushGetFrame none 0 (htonl s.lastPeerSid ++ htonl errorCode) goawayFrame 0 true).startWrite

/-! ## Resuming fibers -/

/-- `read_wait->on_read(got)` of an event already taken off the stream. -/
def onRead (s : KHttp2) (c : CtxId) (e : Option ReadEvent) (got : ℤ) : KHttp2 :=
  match e with
  | some ⟨true, header, _⟩ => s.log (.wakeRead c header got)
  | _ => s

/-- `write_wait->on_write(got)` of an event already taken off the stream. -/
def onWrite (s : KHttp2) (c : CtxId) (e : Option WriteEvent) (got : ℤ) : KHttp2 :=
  match e with
  | some e => s.log (if e.forHup then .readhup c got else .wakeWrite c got)
  | none => s

end KHttp2

end Khttpd
