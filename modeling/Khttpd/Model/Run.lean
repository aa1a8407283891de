import Khttpd.Model.Receiver

/-!
# Runs of a connection

What starts a connection (`server`, `server_h2c`, `client`), what the selector calls
(`on_read_result`, `NextWrite`, `on_write_result`), and what the fibers of its streams call. A
run is a list of such events, each a step of one thread; an event that cannot happen in the
state at hand changes nothing.
-/

set_option autoImplicit false

namespace Khttpd

/-- How far a handler is from one that takes input: `exec` lowers it or uses up bytes. -/
def Handler.rank : Handler → ℕ
  | .stateHead | .stateHeaderBlock | .stateFieldLen => 0
  | .stateComplete => 1
  | .stateSkip | .stateSettingsParams | .statePreface | .statePrefaceEnd => 2
  | .stateHeaderComplete | .stateReadData | .statePriority | .stateRstStream | .stateSettings
  | .statePushPromise | .statePing | .stateGoaway | .stateWindowUpdate | .stateContinuation
  | .stateAltsvc | .stateHeaders => 3
  | .stateProcessHeader | .stateData => 4
  | .stateFieldHuff | .stateFieldRaw | .stateFieldSkip => 5

/-- The calls that the loop of `on_read_result` can still make. -/
def measure (h : Handler) (p : Bytes) : ℕ := 6 * p.length + h.rank

/-- `memset` of the parser state. -/
def ParserState.init : ParserState where
  sid := 0
  length := 0
  padding := 0
  flags := 0
  parseName := false
  parseValue := false
  index := false
  keepPool := false
  fieldState := 0
  fieldRest := 0
  field := none
  pool := none
  header := ⟨none, none⟩
  headerLength := 0
  buffer := []
  handler := .stateHead
  stream := none

/-- The preface of a client connection. -/
def clientPreface : Bytes := prefaceStart ++ prefaceEnd

namespace KHttp2

/-- The constructor and `init`, at time `now` with the configured time-out. -/
def init (now timeOut : ℕ) (junk : ℕ → Http2FrameHeader) : KHttp2 where
  writeBuffer := .init
  activeQueue := []
  streamsIndex := fun _ => []
  ctx := fun _ => .init 0
  nextCtx := 0
  state := .init
  hpack := .init
  lastStreamMsec := now
  lastPeerSid := 0
  lastSelfSid := 0
  processing := 0
  sendWindow := defaultWindow
  recvWindow := connectionRecvWindow
  initWindow := defaultWindow
  frameSize := defaultFrameSize
  maxStream := defaultMaxStream
  enableConnect := false
  writeProcessing := false
  readProcessing := true
  peerGoaway := false
  selfGoaway := false
  closed := false
  pinged := false
  clientModel := false
  hasAdminStream := false
  deleted := false
  fault := false
  now := now
  timeOut := timeOut
  junk := junk
  owners := []
  pooled := []
  trace := []

/-! ## Reading and writing -/

/-- `start_read`. -/
def startRead (s : KHttp2) : KHttp2 :=
  let idle := s.processing = 0
  let s := if idle && !s.selfGoaway && s.now - s.lastStreamMsec > (s.timeOut + 30) * 1000 then
      s.goaway noError
    else s
  if idle && !s.writeProcessing && s.peerGoaway then s.close true noError else s

/-- The loop of `on_read_result` over `state.buffer` and the bytes that were read. -/
def receive (codes : HuffDecodeCodes) (s : KHttp2) (chunk : Bytes) : KHttp2 × Bool :=
  let p := s.state.buffer ++ chunk
  let handler := s.state.handler
  let s := s.setState fun st => { st with buffer := [] }
  match Resumable.run (exec codes) (measure handler p + 1) handler s p with
  | (s, none) => (s, false)
  | (s, some (h, kept)) => (s.setState fun st => { st with handler := h, buffer := kept }, true)

/-- `on_read_result` with bytes. -/
def onReadResult (codes : HuffDecodeCodes) (s : KHttp2) (chunk : Bytes) : KHttp2 :=
  match receive codes { s with pinged := false } chunk with
  | (s, false) => s
  | (s, true) => s.startRead

/-- `ping`. -/
def ping (s : KHttp2) : KHttp2 :=
  -- an idle connection that said goodbye only shuts its socket down
  if s.selfGoaway && s.processing = 0 && !s.writeProcessing then s
  else
    let s := { s.checkStreamTimeout with pinged := true }
    let payload := (htonl (s.now / 1000)).reverse ++ List.replicate 4 0
    (s.pushGetFrame none 0 payload pingFrame 0 true).startWrite

/-- `on_read_result(ST_ERR_TIME_OUT)`; a second time-out shuts the socket down. -/
def onReadTimeOut (s : KHttp2) : KHttp2 := if s.pinged then s else s.ping

/-- `CloseWrite`. -/
def closeWrite (s : KHttp2) : KHttp2 :=
  if !s.readProcessing && s.processing = 0 then s.close false noError
  else { s with writeProcessing := false }

/-- `try_write`: the socket gets what is queued. -/
def tryWrite (s : KHttp2) : KHttp2 := if 0 < s.writeBuffer.left then s else s.closeWrite

/-- `on_write_result` after the socket took `got` bytes. -/
def onWriteResult (s : KHttp2) (got : ℕ) : KHttp2 :=
  let r := s.writeBuffer.readSuccess got
  ({ s with writeBuffer := r.1 }.removeBuff r.2 false).tryWrite

/-! ## Connection start -/

/-- The SETTINGS and the WINDOW_UPDATE that every connection sends first. -/
def greet (s : KHttp2) : KHttp2 :=
  let r := s.sendSettings.sendWindowUpdate none 0 (connectionRecvWindow - defaultWindow)
  if r.2 then r.1.startWrite else r.1

/-- `server`. -/
def server (now timeOut : ℕ) (junk : ℕ → Http2FrameHeader) : KHttp2 :=
  let s := (init now timeOut junk).setState fun st => { st with handler := .statePreface }
  s.greet.startRead

/-- `init_h2c` and `server_h2c(0)`; the bytes given to `init_h2c` are the first that are read. -/
def serverH2c (now timeOut : ℕ) (junk : ℕ → Http2FrameHeader) : KHttp2 :=
  let s := (init now timeOut junk).setState fun st => { st with handler := .statePrefaceEnd }
  s.greet.startRead

/-- `NewClientStream`. -/
def newClientStream (s : KHttp2) (admin : Bool) : KHttp2 :=
  let r := s.createStream
  { r.1.modify r.2 fun ctx => { ctx with adminStream := admin } with owners := r.2 :: s.owners }

/-- `client`. -/
def client (now timeOut : ℕ) (junk : ℕ → Http2FrameHeader) : KHttp2 :=
  let s := { init now timeOut junk with
    clientModel := true
    hasAdminStream := true
    lastSelfSid := 1
    processing := 1 }
  let s := { s with writeBuffer := s.writeBuffer.push [.ofBytes clientPreface] }
  s.greet.newClientStream true

/-- `connect`; no stream when the connection is closing or full. -/
def connect (s : KHttp2) : KHttp2 :=
  if s.peerGoaway || s.selfGoaway || s.lastSelfSid > 655360 then s
  else if s.processing + 1 ≥ s.maxStream + 1 then s
  else { s with processing := s.processing + 1 }.newClientStream false

/-- `get_admin_stream`. -/
def getAdminStream (s : KHttp2) : KHttp2 :=
  if s.hasAdminStream || s.selfGoaway || s.peerGoaway || !s.clientModel then s
  else { s with hasAdminStream := true, processing := s.processing + 1 }.newClientStream true

/-! ## Calls on a stream -/

/-- Add to the header block of a stream. -/
def addTo (s : KHttp2) (c : CtxId) (f : KHttp2HeaderFrame → KHttp2HeaderFrame) : KHttp2 :=
  s.modify c fun ctx => { ctx with sendHeader := some (f (ctx.sendHeader.getD .init)) }

/-- `KHttp2::add_header` with a name. -/
def addHeader (s : KHttp2) (c : CtxId) (name val : Bytes) : KHttp2 :=
  s.addTo c fun f => f.addHeader (hlen name) (hlen val)

/-- `KHttp2Sink::internal_start_response_body`; the header `Alt-Svc` that it may add is a call of
its own. -/
def startResponseBody (s : KHttp2) (c : CtxId) (bodySize : ℤ) (is100Continue : Bool) : KHttp2 :=
  if is100Continue then s.sendHeader c false
  else
    let s := s.modify c fun ctx => ctx.setContentLength bodySize
    s.sendHeader c ((s.ctx c).contentLeft = 0)

/-- `KSink::read`, whose first call answers `Expect`, and `KHttp2Upstream::read`. -/
def readBody (s : KHttp2) (c : CtxId) (len : ℕ) : KHttp2 :=
  let s := if (s.ctx c).haveExpect then
      let s := s.modify c fun ctx => { ctx with haveExpect := false }
      (s.addTo c fun f => f.addStatus 100).startResponseBody c 0 true
    else s
  (s.read c len).1

/-- `response_trailer` and `send_trailer`. -/
def addTrailer (s : KHttp2) (c : CtxId) (name val : Bytes) : KHttp2 :=
  let s := if (s.ctx c).writeTrailer then s
    else
      let s := if (s.ctx c).sendHeader.isSome then s.sendHeader c false else s
      s.modify c fun ctx => { ctx with writeTrailer := true }
  s.addHeader c name val

/-- `METH_CONNECT`. -/
def methConnect : ℕ := 28

/-- `KHttp2Upstream::send_method_path`. -/
def sendMethodPath (s : KHttp2) (c : CtxId) (meth : ℕ) (path : Bytes) : KHttp2 :=
  let s := s.addTo c fun f => f.addMethod (meth % 2 ^ 8)
  let s := if meth = methConnect then
      s.modify c fun ctx => { ctx with hasUpgrade := true }.setContentLength (-1)
    else s
  s.addHeader c (kglString ":path") path

/-- `KHttp2Upstream::send_header(kgl_header_type, ...)` for `Expect`. -/
def sendExpect (s : KHttp2) (c : CtxId) (val : Bytes) : KHttp2 :=
  (s.modify c fun ctx => { ctx with hasExpect := true }).addHeader c (kglString "Expect") val

/-- `KHttp2Upstream::send_header(kgl_header_type, ...)` for `Upgrade`. -/
def sendUpgrade (s : KHttp2) (c : CtxId) (val : Bytes) : KHttp2 :=
  let name := if (s.ctx c).hasUpgrade then ":protocol" else "Upgrade"
  s.addHeader c (kglString name) val

/-- `KHttp2Upstream::set_header_callback`. -/
def setHeaderCallback (s : KHttp2) (c : CtxId) : KHttp2 :=
  s.modify c fun ctx => { ctx with readWait := some ⟨false, true, 0⟩ }

/-- `KHttp2Upstream::read_header`. -/
def readHeaders (s : KHttp2) (c : CtxId) : KHttp2 :=
  let s := if (s.ctx c).sendHeader.isSome then s.sendHeader c ((s.ctx c).contentLeft = 0) else s
  (s.readHeader c).1

/-- `set_time_out`. -/
def setTimeOut (s : KHttp2) (c : CtxId) (tmo : ℕ) : KHttp2 :=
  s.modify c fun ctx => { ctx with tmo := tmo % 2 ^ 8, tmoLeft := tmo % 2 ^ 8 }

/-- `KHttp2Upstream::gc` of the admin stream: the upstream stays in the pool, where nothing is
sent on it any more. -/
def gc (s : KHttp2) (c : CtxId) : KHttp2 :=
  { s.releaseStream c with owners := s.owners.erase c, pooled := c :: s.pooled }

/-- `KHttp2Upstream::Destroy` of an upstream from the pool. -/
def destroyPooled (s : KHttp2) (c : CtxId) : KHttp2 :=
  { s with pooled := s.pooled.erase c }.release c

/-- The end of a request: `~KHttp2Sink`, or `KHttp2Upstream::Destroy`. -/
def finish (s : KHttp2) (c : CtxId) : KHttp2 :=
  if s.clientModel then s.release c else s.sinkDestroy c

end KHttp2

/-- What the fiber of a stream calls. -/
inductive Op
  | write (buf : List Bytes) (length : ℕ)
  | sendfile (file length : ℕ)
  | read (len : ℕ)
  | addStatus (code : ℕ)
  | addMethod (meth : ℕ)
  | addKnownHeader (name : KglHeaderType) (val : Bytes)
  | addHeader (name val : Bytes)
  | sendMethodPath (meth : ℕ) (path : Bytes)
  | sendExpect (val : Bytes)
  | sendUpgrade (val : Bytes)
  | setContentLength (contentLength : ℤ)
  | startResponseBody (bodySize : ℤ) (is100Continue : Bool)
  | addTrailer (name val : Bytes)
  | writeEnd
  | shutdown
  | readhup
  | removeReadhup
  | setTimeOut (tmo : ℕ)
  | sendAltsvc (val : Bytes)
  | setHeaderCallback
  | readHeaders
  | gc
  | finish
  deriving DecidableEq, Repr

/-- What can happen to a connection. -/
inductive Event
  /-- The selector read bytes. -/
  | read (chunk : Bytes)
  /-- The selector waited too long for bytes. -/
  | readTimeOut
  /-- The socket is closed or broken for reading. -/
  | readError
  /-- `http2_next_write` is called. -/
  | nextWrite
  /-- The socket took `got` bytes. -/
  | written (got : ℕ)
  /-- The socket is broken for writing. -/
  | writeError
  /-- Time passes. -/
  | tick (msec : ℕ)
  /-- A fiber calls on its stream. -/
  | call (c : CtxId) (op : Op)
  /-- A new upstream stream is asked for. -/
  | connect
  /-- The admin stream is asked for. -/
  | getAdminStream
  /-- The pool drops an upstream. -/
  | destroyPooled (c : CtxId)
  deriving DecidableEq, Repr

/-- A fiber waits in `write` or `sendfile`. -/
def KHttp2Context.writeSuspended (ctx : KHttp2Context) : Bool :=
  ctx.writeWait.any fun e => e.buf.isSome

/-- A fiber waits in `read` or `ReadHeader`. -/
def KHttp2Context.readSuspended (ctx : KHttp2Context) : Bool :=
  ctx.readWait.any ReadEvent.fiber

/-- The stream has its node, or its first header waits to be sent. -/
def KHttp2Context.opened (ctx : KHttp2Context) : Bool := ctx.node.isSome || ctx.sendHeader.isSome

/-- Whether a fiber that is running can make a call: one that writes does not wait in another
write, one that reads does not wait in another read, and the one that ends waits in neither.
A body is not sent or read before there is a header. -/
def Op.ready (op : Op) (ctx : KHttp2Context) : Bool :=
  match op with
  | .read _ => !ctx.readSuspended && ctx.node.isSome
  | .setHeaderCallback | .readHeaders => !ctx.readSuspended
  | .finish => !ctx.writeSuspended && !ctx.readSuspended
  | .gc => !ctx.writeSuspended && !ctx.readSuspended && ctx.adminStream
  | .shutdown | .readhup | .removeReadhup | .setTimeOut _ => true
  | .write _ _ | .sendfile _ _ | .writeEnd => !ctx.writeSuspended && ctx.opened
  | .startResponseBody _ _ => !ctx.writeSuspended && ctx.sendHeader.isSome
  | .sendAltsvc _ => !ctx.writeSuspended && ctx.node.isSome
  | _ => !ctx.writeSuspended

namespace KHttp2

/-- A call of a fiber. -/
def call (s : KHttp2) (c : CtxId) (op : Op) : KHttp2 :=
  match op with
  | .write buf length => (s.write c buf length).1
  | .sendfile file length => (s.sendfile c file length).1
  | .read len => s.readBody c len
  | .addStatus code => s.addTo c fun f => f.addStatus (code % 2 ^ 16)
  | .addMethod meth => s.addTo c fun f => f.addMethod (meth % 2 ^ 8)
  | .addKnownHeader name val => s.addTo c fun f => f.addKnownHeader name (hlen val)
  | .addHeader name val => s.addHeader c name val
  | .sendMethodPath meth path => s.sendMethodPath c meth path
  | .sendExpect val => s.sendExpect c val
  | .sendUpgrade val => s.sendUpgrade c val
  | .setContentLength contentLength =>
    s.modify c fun ctx => if ctx.hasUpgrade then ctx else ctx.setContentLength contentLength
  | .startResponseBody bodySize is100Continue => s.startResponseBody c bodySize is100Continue
  | .addTrailer name val => s.addTrailer c name val
  | .writeEnd => s.writeEnd c
  | .shutdown => s.shutdown c
  | .readhup => (s.readhup c).1
  | .removeReadhup => s.removeReadhup c
  | .setTimeOut tmo => s.setTimeOut c tmo
  | .sendAltsvc val => (s.sendAltsvc c val).1
  | .setHeaderCallback => s.setHeaderCallback c
  | .readHeaders => s.readHeaders c
  | .gc => if s.clientModel then s.gc c else s
  | .finish => s.finish c

/-- Whether an event can happen. -/
def enabled (s : KHttp2) (e : Event) : Bool :=
  !s.deleted &&
  match e with
  | .read chunk =>
    s.readProcessing && chunk ≠ [] && s.state.buffer.length + chunk.length ≤ readBufferSize
  | .readTimeOut | .readError => s.readProcessing
  | .nextWrite | .writeError => s.writeProcessing
  | .written got => s.writeProcessing && 0 < got && got ≤ s.writeBuffer.left
  | .tick _ => true
  | .call c op => s.owners.contains c && op.ready (s.ctx c)
  | .connect | .getAdminStream => s.clientModel
  | .destroyPooled c => s.clientModel && s.pooled.contains c

/-- What an event that can happen does. -/
def act (codes : HuffDecodeCodes) (s : KHttp2) (e : Event) : KHttp2 :=
  match e with
  | .read chunk => onReadResult codes s chunk
  | .readTimeOut => s.onReadTimeOut
  | .readError => s.close true connectError
  | .nextWrite => s.tryWrite
  | .written got => s.onWriteResult got
  | .writeError => s.close false connectError
  | .tick msec => { s with now := s.now + msec }
  | .call c op => s.call c op
  | .connect => s.connect
  | .getAdminStream => s.getAdminStream
  | .destroyPooled c => s.destroyPooled c

/-- One step of a connection. -/
def step (codes : HuffDecodeCodes) (s : KHttp2) (e : Event) : KHttp2 :=
  if s.enabled e then act codes s e else s

/-- The state after a run. -/
def run (codes : HuffDecodeCodes) (s : KHttp2) (es : List Event) : KHttp2 :=
  es.foldl (step codes) s

/-- The calls of handlers that the loop of `on_read_result` makes in a step. -/
def stepCalls (codes : HuffDecodeCodes) (s : KHttp2) (e : Event) :
    List (Handler × KHttp2 × Bytes) :=
  match e with
  | .read chunk =>
    if s.enabled e then
      let p := s.state.buffer ++ chunk
      let start := { s with pinged := false }.setState fun st => { st with buffer := [] }
      Resumable.calls (exec codes) (measure s.state.handler p + 1) s.state.handler start p
    else []
  | _ => []

end KHttp2

end Khttpd
