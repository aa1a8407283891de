import Khttpd.Model.Connection
import Khttpd.Model.HeaderBlock

/-!
# Streams: sending, waiting, releasing and closing

The members of `KHttp2` that work on streams rather than on received bytes: the send path with
its two windows, the calls a request or upstream fiber makes on its stream, and the teardown
of streams and of the connection.
-/

set_option autoImplicit false

namespace Khttpd

/-- A 32-bit signed `int`. -/
def toInt32 (n : ℤ) : ℤ := n.bmod (2 ^ 32)

/-- A 32-bit unsigned integer. -/
def toUint32 (n : ℤ) : ℕ := (n % 2 ^ 32).toNat

/-- The memory loop of `build_write_buffer`: cover at most `len` bytes of the chain. -/
def buildChain : List Bytes → ℕ → ℕ → List Http2Buff
  | [], _, _ => []
  | hot :: next, totalBufLen, len =>
    if totalBufLen = 0 ∨ len = 0 then []
    else
      let bufLen := min hot.length totalBufLen
      let used := min len bufLen
      let buf : Http2Buff := { Http2Buff.ofBytes (hot.take used) with skipDataFree := true }
      if used = hot.length then buf :: buildChain next (totalBufLen - used) (len - used)
      else [buf]

/-- The buffers of `build_write_buffer` before the frame header is put in front, and their
total length; the length of a file part is cut to 16 bits. -/
def buildPayload (sendfile : Bool) (e : WriteEvent) (len : ℕ) : List Http2Buff × ℕ :=
  match sendfile, e.buf with
  | true, some (.file file) =>
    let totalLen := min len e.bufLen % 2 ^ 16
    ([⟨[], file, totalLen, true, true, false, none⟩], totalLen)
  | _, some (.mem chain) =>
    let bufs := buildChain chain e.bufLen len
    (bufs, (bufs.map Http2Buff.used).sum)
  | _, _ => ([], 0)

/-- Change the last buffer of a list. -/
def mapLast (f : Http2Buff → Http2Buff) : List Http2Buff → List Http2Buff
  | [] => []
  | [b] => [f b]
  | b :: bs => b :: mapLast f bs

namespace KHttp2

/-! ## Sending -/

/-- `IsWriteClosed`. -/
def isWriteClosed (s : KHttp2) (c : CtxId) : Bool :=
  !s.readProcessing || s.closed || (s.ctx c).outClosed

/-- `KHttp2Context::build_write_buffer` and the push of its result: one DATA frame with at most
`len` bytes of the waiting write. Both windows pay for it. -/
def sendData (s : KHttp2) (c : CtxId) (e : WriteEvent) (len : ℕ) : KHttp2 :=
  let ctx := s.ctx c
  let payload := buildPayload ctx.sendfile e len
  let totalLen := payload.2
  let left := ctx.contentLeft - totalLen
  let fin := 0 < ctx.contentLeft && left ≤ 0
  let bufs := mapLast (fun b => { b with ctx := some c, tcpNodelay := fin }) payload.1
  let h := Http2FrameHeader.zero.setLengthType totalLen dataFrame
  let h := { h with flags := if fin then endStreamFlag else 0, streamId := ctx.node.getD 0 }
  let header : Http2Buff :=
    { Http2Buff.ofBytes h.bytes with ctx := if bufs = [] then some c else none }
  let s := if ctx.node.isNone then s.setFault else s
  let s := s.modify c fun ctx => { ctx with
    writeWait := some { e with len := totalLen }
    contentLeft := if 0 < ctx.contentLeft then left else ctx.contentLeft
    outClosed := ctx.outClosed || fin
    sendWindow := toInt32 (ctx.sendWindow - totalLen) }
  let s := { s with sendWindow := toUint32 (s.sendWindow - totalLen) }
  s.pushFrame ⟨dataFrame, h.flags, ctx.node.getD 0, totalLen, some c⟩ (header :: bufs)

/-- `on_write_window_ready`: send what both windows and the frame size allow, or wait in the
queue. -/
def onWriteWindowReady (s : KHttp2) (c : CtxId) : KHttp2 :=
  match (s.ctx c).writeWait with
  | none => s
  | some e =>
    let len := min (min (toInt32 s.frameSize) (s.ctx c).sendWindow) (toInt32 s.sendWindow)
    if len ≤ 0 then s.addQueue c
    else
      let s := (s.sendData c e len.toNat).flushQueue c
      { s with writeProcessing := true }

/-- `send_header`. -/
def sendHeader (s : KHttp2) (c : CtxId) (bodyEnd : Bool) : KHttp2 :=
  if !s.readProcessing then s
  else
    -- a client stream gets its node with its first header
    let s := if s.clientModel && (s.ctx c).node.isNone then
        let s := { s with lastSelfSid := s.lastSelfSid + 2 }
        (s.newNode s.lastSelfSid c).modify c fun ctx => { ctx with node := some s.lastSelfSid }
      else s
    match (s.ctx c).sendHeader, (s.ctx c).node with
    | some frame, some id =>
      let bufs := frame.create s.junk id bodyEnd s.frameSize
      let s := s.modify c fun ctx => { ctx with
        outClosed := ctx.outClosed || bodyEnd
        sendHeader := none }
      let flags := if bodyEnd then endStreamFlag else 0
      let s := s.pushFrame ⟨headersFrame, flags, id, frame.block.length, some c⟩
        (mapLast (fun b => { b with tcpNodelay := bodyEnd }) bufs)
      s.startWrite
    | _, _ => s.setFault

/-- `CreateWriteWaitWindow` and the wait of `write` and `sendfile`; the call returns `-1` at
once on a stream that is closed for writing. -/
def writeWait (s : KHttp2) (c : CtxId) (sendfile : Bool) (buf : WaitBuf) (length : ℕ) :
    KHttp2 × Option ℤ :=
  let s := s.modify c fun ctx => { ctx with writeWait := none }
  if s.isWriteClosed c then (s, some (-1))
  else
    let s := if (s.ctx c).sendHeader.isSome then
        s.sendHeader c ((s.ctx c).contentLeft = 0)
      else s
    let s := s.modify c fun ctx => { ctx with
      sendfile := sendfile
      writeWait := some ⟨some buf, length, -1⟩ }
    ((s.log (.waitWrite c)).onWriteWindowReady c, none)

/-- `KHttp2::write`. -/
def write (s : KHttp2) (c : CtxId) (buf : List Bytes) (length : ℕ) : KHttp2 × Option ℤ :=
  s.writeWait c false (.mem buf) length

/-- `KHttp2::sendfile`. -/
def sendfile (s : KHttp2) (c : CtxId) (file length : ℕ) : KHttp2 × Option ℤ :=
  s.writeWait c true (.file file) length

/-- An empty DATA frame on the stream. -/
def pushEmptyData (s : KHttp2) (c : CtxId) (flags : UInt8) : KHttp2 :=
  let s := if (s.ctx c).node.isNone then s.setFault else s
  s.pushGetFrame (some c) ((s.ctx c).node.getD 0) [] dataFrame flags true

/-- `write_end`. -/
def writeEnd (s : KHttp2) (c : CtxId) : KHttp2 :=
  if s.isWriteClosed c then s
  else if (s.ctx c).sendHeader.isSome && !(s.ctx c).writeTrailer then
    (s.modify c fun ctx => ctx.setContentLength 0).sendHeader c true
  else
    let trailer := (s.ctx c).sendHeader.isSome
    let s := s.pushEmptyData c (if trailer then 0 else endStreamFlag)
    if trailer then s.sendHeader c true
    else (s.modify c fun ctx => { ctx with outClosed := true }).startWrite

/-! ## Resetting streams -/

/-- The write event that a reset takes off the stream: one that is being written belongs to
its `http2_buff`. -/
def takeWriteEvent (ctx : KHttp2Context) : Option WriteEvent :=
  ctx.writeWait.filter fun e => !e.forWriting

/-- Close both directions of a stream and take its waiting fibers off, as RST_STREAM,
`terminate_stream` and `close` do. -/
def resetStream (s : KHttp2) (c : CtxId) : KHttp2 :=
  ((s.modify c fun ctx => { ctx with
    inClosed := true
    outClosed := true
    rst := true
    readWait := none
    writeWait := ctx.writeWait.filter WriteEvent.forWriting }).log (.reset c)).removeQueue c

/-- Resume the fibers that a reset took off the stream as it was before. -/
def wakeReset (s : KHttp2) (c : CtxId) (ctx : KHttp2Context) : KHttp2 :=
  (s.onRead c ctx.readWait (-1)).onWrite c (takeWriteEvent ctx) (-1)

/-- `terminate_stream`; the second component is whether RST_STREAM was queued. -/
def terminateStream (s : KHttp2) (c : CtxId) (status : ℕ) : KHttp2 × Bool :=
  let ctx := s.ctx c
  let sendFlag := !(ctx.inClosed && ctx.outClosed) && ctx.node.isSome && s.readProcessing
  let s := s.resetStream c
  let s := if sendFlag then s.sendRstStream (some c) (ctx.node.getD 0) status else s
  (s.wakeReset c ctx, sendFlag)

/-- `KHttp2::shutdown`. -/
def shutdown (s : KHttp2) (c : CtxId) : KHttp2 :=
  if (s.ctx c).rst then s else (s.terminateStream c cancel).1

/-- The loop of `check_stream_timeout` over the streams queued when it starts: a stream that
is put back is younger than the limit and ends the loop. -/
def checkStreamTimeoutLoop : List CtxId → KHttp2 → KHttp2
  | [], s => s
  | c :: queue, s =>
    if s.now - (s.ctx c).activeMsec < s.timeOut * 1000 + 2000 then s
    else
      let s := s.removeQueue c
      let s := if (s.ctx c).tmoLeft > 0 then
          let s := s.modify c fun ctx =>
            { ctx with tmoLeft := ctx.tmoLeft - 1, activeMsec := s.now }
          { s with activeQueue := s.activeQueue ++ [c] }
        else s.shutdown c
      checkStreamTimeoutLoop queue s

/-- `check_stream_timeout`. -/
def checkStreamTimeout (s : KHttp2) : KHttp2 := checkStreamTimeoutLoop s.activeQueue s

/-! ## Releasing streams -/

/-- `http2_buff::clean`: the writer that waits for the buffer is resumed. -/
def cleanBuff (fin : Bool) (s : KHttp2) (b : Http2Buff) : KHttp2 :=
  match b.ctx with
  | none => s
  | some c =>
    let e := (s.ctx c).writeWait
    let s := s.modify c fun ctx => { ctx with writeWait := none }
    s.onWrite c e (if fin then -1 else e.elim 0 WriteEvent.len)

/-- `KHttp2WriteBuffer::remove_buff`. -/
def removeBuff (s : KHttp2) (bufs : List Http2Buff) (fin : Bool) : KHttp2 :=
  bufs.foldl (cleanBuff fin) s

/-- `release_stream`. -/
def releaseStream (s : KHttp2) (c : CtxId) : KHttp2 :=
  let ctx := s.ctx c
  let s := { s with lastStreamMsec := s.now }
  let s := s.modify c fun ctx => { ctx with readWait := none, writeWait := none }
  let s := if !ctx.outClosed || !ctx.inClosed then
      let s := (s.modify c fun ctx =>
        { ctx with inClosed := true, outClosed := true, rst := true }).log (.reset c)
      if ctx.node.isSome then s.sendRstStream (some c) (ctx.node.getD 0) internalError else s
    else s
  if ctx.node.isSome then
    (s.destroyNode c ctx.node).modify c fun ctx => { ctx with node := none }
  else s

/-- `release_admin` up to the test whether the connection can go too. -/
def releaseAdminCount (s : KHttp2) (c : CtxId) : KHttp2 :=
  let s := if (s.ctx c).adminStream then { s with hasAdminStream := false } else s
  let s := if s.state.stream = some c then
      s.modify c fun ctx => { ctx with destroyByHttp2 := true }
    else s
  { s.log (.releaseAdmin c) with
    processing := s.processing - 1
    owners := s.owners.erase c }

/-- `can_destroy`. -/
def canDestroy (s : KHttp2) : Bool :=
  s.processing = 0 && !s.writeProcessing && !s.readProcessing

/-- `~KHttp2Sink` up to its call of `release`. -/
def sinkEnd (s : KHttp2) (c : CtxId) : KHttp2 :=
  if 0 < (s.ctx c).contentLeft then s.shutdown c
  else
    let s := if (s.ctx c).haveExpect then s.modify c fun ctx => { ctx with inClosed := true }
      else s
    s.writeEnd c

/-- `ReleaseStateStream`. A stream without a complete header still owns its sink, and the
destructor of the sink releases the stream as for a request that ran. Deleting the connection
from there is a fault: this function is still running on it. -/
def releaseStateStream (s : KHttp2) : KHttp2 :=
  match s.state.stream with
  | none => s
  | some c =>
    let s := if !(s.ctx c).parsedHeader && !s.clientModel then
        let s := ((s.sinkEnd c).releaseStream c).releaseAdminCount c
        let s := if s.canDestroy then s.setFault else s
        s.destroyNode c (s.ctx c).node
      else s
    s.setState fun st => { st with stream := none }

/-- `~KHttp2`. -/
def delete (s : KHttp2) : KHttp2 :=
  let s := s.releaseStateStream
  let taken := s.writeBuffer.clean
  { ({ s with writeBuffer := taken.1 }).removeBuff taken.2 true with deleted := true }

/-- `if (can_destroy()) delete this;`. -/
def tryDelete (s : KHttp2) : KHttp2 := if s.canDestroy then s.delete else s

/-- `release`. -/
def release (s : KHttp2) (c : CtxId) : KHttp2 :=
  ((s.releaseStream c).releaseAdminCount c).tryDelete

/-- `~KHttp2Sink`. -/
def sinkDestroy (s : KHttp2) (c : CtxId) : KHttp2 := (s.sinkEnd c).release c

/-! ## Closing the connection -/

/-- The body of the loop of `close` over the nodes. -/
def closeNode (s : KHttp2) (n : KHttp2Node) : KHttp2 :=
  (s.resetStream n.stream).wakeReset n.stream (s.ctx n.stream)

/-- `close` up to the test whether the connection can go. -/
def closeStreams (s : KHttp2) (read : Bool) (status : ℕ) : KHttp2 :=
  let s := s.log (.close status)
  let taken :=
    if !read && 0 < s.writeBuffer.left then s.writeBuffer.clean else (s.writeBuffer, [])
  let s := { s with writeBuffer := taken.1 }
  let s := s.allNodes.foldl closeNode s
  let s := { s.removeBuff taken.2 true with closed := true }
  if read then { s with readProcessing := false, selfGoaway := true }
  else { s with writeProcessing := false }

/-- `close`. -/
def close (s : KHttp2) (read : Bool) (status : ℕ) : KHttp2 :=
  (s.closeStreams read status).tryDelete

/-! ## Window changes -/

/-- The loops of `check_write_wait`: serve the waiting streams until the connection window is
used up. -/
def checkWriteWaitLoop : List KHttp2Node → KHttp2 → KHttp2
  | [], s => s
  | n :: nodes, s =>
    if s.sendWindow = 0 then s
    else if (s.ctx n.stream).sendWindow ≤ 0 || !(s.ctx n.stream).waitsForWindow then
      checkWriteWaitLoop nodes s
    else checkWriteWaitLoop nodes (s.onWriteWindowReady n.stream)

/-- `check_write_wait`. -/
def checkWriteWait (s : KHttp2) : KHttp2 := checkWriteWaitLoop s.allNodes s

/-- The body of the loop of `adjust_windows`: a window that would pass the maximum is left as
it is. -/
def adjustNode (delta : ℤ) (s : KHttp2) (n : KHttp2Node) : KHttp2 :=
  if 0 < delta ∧ (s.ctx n.stream).sendWindow > toInt32 (maxWindow - delta) then s
  else s.modify n.stream fun ctx => { ctx with sendWindow := toInt32 (ctx.sendWindow + delta) }

/-- `adjust_windows`. -/
def adjustWindows (s : KHttp2) (window : ℕ) : KHttp2 :=
  let delta := toInt32 ((window : ℤ) - s.initWindow)
  let s := { s with initWindow := window }
  (s.allNodes.foldl (adjustNode delta) s).checkWriteWait

/-! ## Reading -/

/-- `check_recv_window`; the second component is whether a WINDOW_UPDATE was queued. -/
def checkRecvWindow (s : KHttp2) (c : CtxId) : KHttp2 × Bool :=
  let ctx := s.ctx c
  if ctx.inClosed then (s, false)
  else if ctx.recvWindow + strLen ctx.readBuffer < streamRecvWindow / 4 then
    let r := s.sendWindowUpdate (some c) (ctx.node.getD 0) (streamRecvWindow - ctx.recvWindow)
    (r.1.modify c fun ctx => { ctx with recvWindow := streamRecvWindow }, r.2)
  else (s, false)

/-- `copy_read_buffer`: how much of the read buffer goes to a reader with room for `length`
bytes. -/
def copyReadBuffer (s : KHttp2) (c : CtxId) (length : ℕ) : KHttp2 × ℕ :=
  let bytes := (s.ctx c).readBuffer.getD []
  ((s.modify c fun ctx => { ctx with readBuffer := some (bytes.drop length) }).log
    (.copied c (bytes.take length)), min bytes.length length)

/-- `KHttp2::read`; `none` is a suspended fiber. -/
def read (s : KHttp2) (c : CtxId) (len : ℕ) : KHttp2 × Option ℤ :=
  let s := s.modify c fun ctx =>
    { ctx with writeWait := ctx.writeWait.filter fun e => !e.forHup }
  let ctx := s.ctx c
  let s := if s.clientModel && !ctx.outClosed && (!ctx.hasUpgrade || ctx.hasExpect) then
      (s.modify c fun ctx => { ctx with outClosed := true }).pushEmptyData c endStreamFlag
    else s
  let r := s.checkRecvWindow c
  let s := if r.2 then r.1.startWrite else r.1
  if strLen (s.ctx c).readBuffer ≠ 0 then
    let r := s.copyReadBuffer c len
    (r.1.log (.readReturns c r.2), some r.2)
  else if (s.ctx c).rst then (s.log (.readReturns c (-1)), some (-1))
  else if (s.ctx c).inClosed then (s.log (.readReturns c 0), some 0)
  else
    ((s.modify c fun ctx => { ctx with readWait := some ⟨true, false, len⟩ }).addQueue c, none)

/-- `ReadHeader`; `none` is a suspended fiber. -/
def readHeader (s : KHttp2) (c : CtxId) : KHttp2 × Option ℤ :=
  if (s.ctx c).rst then (s, some (-1))
  else if (s.ctx c).parsedHeader then (s, some 0)
  else
    ((s.modify c fun ctx =>
      { ctx with readWait := ctx.readWait.map fun e => { e with fiber := true } }).addQueue c, none)

/-- `readhup`; `false` when the stream already waits for something else. -/
def readhup (s : KHttp2) (c : CtxId) : KHttp2 × Bool :=
  let ctx := s.ctx c
  if ctx.writeWait.any (fun e => !e.forHup) || ctx.readWait.isSome then (s, false)
  else
    let e := ctx.writeWait.getD ⟨none, 0, 0⟩
    (s.modify c fun ctx => { ctx with writeWait := some { e with buf := none } }, true)

/-- `remove_readhup`. -/
def removeReadhup (s : KHttp2) (c : CtxId) : KHttp2 :=
  s.modify c fun ctx => { ctx with writeWait := ctx.writeWait.filter fun e => !e.forHup }

/-- `send_altsvc`. -/
def sendAltsvc (s : KHttp2) (c : CtxId) (val : Bytes) : KHttp2 × Bool :=
  if !s.readProcessing then (s, false)
  else ((s.pushGetFrame (some c) ((s.ctx c).node.getD 0) (htons 0 ++ val) altsvcFrame 0
    false).startWrite, true)

end KHttp2

end Khttpd
