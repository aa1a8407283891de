import Mathlib.Logic.Function.Basic
import Khttpd.Model.HpackTable

/-!
# Output buffers

`KHttp2WriteBuffer.h`: the buffers `http2_buff` queued for the socket, the queue
`KHttp2WriteBuffer` and the header block `KHttp2HeaderFrame` with the loop `create` that cuts
it into frames. The cork bits of the queue only choose socket options and are left out.
-/

set_option autoImplicit false

namespace Khttpd

/-- `http2_buff`: memory bytes, or `used` bytes of a file, and the stream (by number) to notify
when it is gone. -/
structure Http2Buff where
  data : Bytes
  file : ℕ
  used : ℕ
  skipDataFree : Bool
  sendfile : Bool
  tcpNodelay : Bool
  ctx : Option ℕ
  deriving DecidableEq, Repr

/-- A buffer that owns its bytes. -/
def Http2Buff.ofBytes (data : Bytes) : Http2Buff :=
  ⟨data, 0, data.length, false, false, false, none⟩

/-- `get_frame`: one buffer that holds a whole frame. -/
def getFrame (sid : ℕ) (payload : Bytes) (type : ℕ) (flags : UInt8) : Http2Buff :=
  let h := (Http2FrameHeader.zero.setLengthType payload.length type)
  .ofBytes ({ h with flags := flags, streamId := sid }.bytes ++ payload)

/-! ## The queue -/

/-- `KHttp2WriteBuffer`: the buffers from `header` on, the offset of `hot` in the first one and
`left`. `fileOffset` is `st.offset` of each file. -/
structure KHttp2WriteBuffer where
  header : List Http2Buff
  hot : ℕ
  left : ℕ
  fileOffset : ℕ → ℕ

/-- The constructor. -/
def KHttp2WriteBuffer.init : KHttp2WriteBuffer := ⟨[], 0, 0, fun _ => 0⟩

/-- `push`: `add` every buffer of a list at the end. -/
def KHttp2WriteBuffer.push (w : KHttp2WriteBuffer) (bufs : List Http2Buff) : KHttp2WriteBuffer :=
  { w with
    header := w.header ++ bufs
    hot := if w.header = [] then 0 else w.hot
    left := w.left + (bufs.map Http2Buff.used).sum }

/-- `clean`: take everything that is queued. -/
def KHttp2WriteBuffer.clean (w : KHttp2WriteBuffer) : KHttp2WriteBuffer × List Http2Buff :=
  ({ w with header := [], hot := 0, left := 0 }, w.header)

/-- The loop of `readSuccess` over the queue: what stays queued, the offset in its first
buffer, the file offsets and the removed buffers, last removed first. -/
def readSuccessLoop : List Http2Buff → ℕ → ℕ → (ℕ → ℕ) → List Http2Buff →
    List Http2Buff × ℕ × (ℕ → ℕ) × List Http2Buff
  | [], hot, _, offset, removed => ([], hot, offset, removed)
  | b :: next, hot, got, offset, removed =>
    if got = 0 then (b :: next, hot, offset, removed)
    else if b.sendfile then
      let offset := Function.update offset b.file (offset b.file + got)
      let thisLen := min got b.used
      let b := { b with used := b.used - thisLen }
      if b.used = 0 then readSuccessLoop next 0 (got - thisLen) offset (b :: removed)
      else (b :: next, hot, offset, removed)
    else
      let thisLen := min got (b.used - hot)
      if b.used = hot + thisLen then readSuccessLoop next 0 (got - thisLen) offset (b :: removed)
      else (b :: next, hot + thisLen, offset, removed)

/-- `readSuccess`: account for `got` bytes that the socket took. -/
def KHttp2WriteBuffer.readSuccess (w : KHttp2WriteBuffer) (got : ℕ) :
    KHttp2WriteBuffer × List Http2Buff :=
  let (header, hot, offset, removed) := readSuccessLoop w.header w.hot got w.fileOffset []
  (⟨header, hot, w.left - got, offset⟩, removed)

/-- What `get_read_buffer` offers to the socket: a range of a file, or the bytes of iovecs. -/
inductive ReadBuffer
  | file (file offset length : ℕ)
  | mem (iovecs : List Bytes)
  deriving DecidableEq, Repr

/-- The loop of `get_read_buffer` over the buffers behind the first one, with room for `bc` iovecs
and `got` bytes to go. -/
def readIovecs : ℕ → List Http2Buff → ℕ → List Bytes
  | 0, _, _ => []
  | _ + 1, [], _ => []
  | bc + 1, tmp :: next, got =>
    if got = 0 ∨ tmp.sendfile then []
    else
      let iovLen := min got tmp.used
      tmp.data.take iovLen :: readIovecs bc next (got - iovLen)

/-- `get_read_buffer`; `none` where the queue is empty. The vector has `maxIovectCount` entries, of
which the first describes the others. -/
def KHttp2WriteBuffer.getReadBuffer (maxIovectCount : ℕ) (w : KHttp2WriteBuffer) :
    Option ReadBuffer :=
  match w.header with
  | [] => none
  | b :: next =>
    if b.sendfile then some (.file b.file (w.fileOffset b.file) b.used)
    else
      let hotLeft := min (b.used - w.hot) w.left
      some (.mem ((b.data.drop w.hot).take hotLeft ::
        readIovecs (maxIovectCount - 2) next (w.left - hotLeft)))

/-! ## Runs of the queue -/

/-- A byte on the wire: a byte of memory, or the byte at a position of a file. -/
inductive WireByte
  | mem (byte : Byte)
  | file (file pos : ℕ)
  deriving DecidableEq, Repr

/-- The bytes that an offer covers. -/
def ReadBuffer.wire : ReadBuffer → List WireByte
  | .file f offset length => (List.range' offset length).map (WireByte.file f)
  | .mem iovecs => iovecs.flatten.map .mem

/-- What is done with a queue. -/
inductive QueueEvent
  | push (bufs : List Http2Buff)
  | getReadBuffer
  | readSuccess (got : ℕ)
  deriving DecidableEq, Repr

/-- A queue, what it offered since the last `readSuccess`, and what happened so far: the buffers
pushed, the bytes that the socket took and the buffers returned, in their order. -/
structure QueueRun where
  w : KHttp2WriteBuffer
  offered : Option ReadBuffer
  pushed : List Http2Buff
  sent : List WireByte
  removed : List Http2Buff

namespace QueueRun

/-- A new queue; `offset` is where each file stands. -/
def init (offset : ℕ → ℕ) : QueueRun :=
  ⟨{ KHttp2WriteBuffer.init with fileOffset := offset }, none, [], [], []⟩

/-- Whether an event can happen: the last buffer of a list is not empty and memory holds what a
buffer uses; `try_write` asks for a buffer where something is left; the socket takes at most what
it was offered. -/
def enabled (q : QueueRun) : QueueEvent → Bool
  | .push bufs => bufs.getLast?.all (fun b => 0 < b.used) &&
      bufs.all fun b => b.sendfile || b.used ≤ b.data.length
  | .getReadBuffer => 0 < q.w.left
  | .readSuccess got => q.offered.any fun o => got ≤ o.wire.length

/-- What an event does. A remove list has the buffer that was removed last at its head. -/
def act (maxIovectCount : ℕ) (q : QueueRun) : QueueEvent → QueueRun
  | .push bufs => { q with w := q.w.push bufs, pushed := q.pushed ++ bufs }
  | .getReadBuffer => { q with offered := q.w.getReadBuffer maxIovectCount }
  | .readSuccess got =>
    let r := q.w.readSuccess got
    { w := r.1
      offered := none
      pushed := q.pushed
      sent := q.sent ++ (q.offered.elim [] ReadBuffer.wire).take got
      removed := q.removed ++ r.2.reverse }

/-- One step. -/
def step (maxIovectCount : ℕ) (q : QueueRun) (e : QueueEvent) : QueueRun :=
  if q.enabled e then q.act maxIovectCount e else q

/-- The state after a run. -/
def run (maxIovectCount : ℕ) (q : QueueRun) (es : List QueueEvent) : QueueRun :=
  es.foldl (step maxIovectCount) q

end QueueRun

/-! ## Header blocks -/

/-- `KHttp2HeaderFrame`: the used bytes of the chunks from `head` on. `last` is the final chunk
and `hot` the end of its used bytes. -/
structure KHttp2HeaderFrame where
  chunks : List Bytes
  deriving DecidableEq, Repr

/-- `new KHttp2HeaderFrame`. -/
def KHttp2HeaderFrame.init : KHttp2HeaderFrame := ⟨[]⟩

/-- `alloc_buffer` and the copy that follows it: put as many bytes of `str` as fit into the
last chunk, or into a new one, and return the bytes left. -/
def KHttp2HeaderFrame.allocBuffer (f : KHttp2HeaderFrame) (str : Bytes) :
    KHttp2HeaderFrame × Bytes :=
  match f.chunks.getLast? with
  | none => (⟨[str.take headerFrameChunkSize]⟩, str.drop headerFrameChunkSize)
  | some last =>
    if last.length = headerFrameChunkSize then
      (⟨f.chunks ++ [str.take headerFrameChunkSize]⟩, str.drop headerFrameChunkSize)
    else
      let left := headerFrameChunkSize - last.length
      (⟨f.chunks.dropLast ++ [last ++ str.take left]⟩, str.drop left)

/-- The loop of `write`; a round copies at least one byte, so `str.length` rounds are enough. -/
def KHttp2HeaderFrame.writeLoop : ℕ → KHttp2HeaderFrame → Bytes → KHttp2HeaderFrame
  | 0, f, _ => f
  | _ + 1, f, [] => f
  | fuel + 1, f, c :: str =>
    let (f, str) := f.allocBuffer (c :: str)
    KHttp2HeaderFrame.writeLoop fuel f str

/-- `write(const char *, int)`. -/
def KHttp2HeaderFrame.write (f : KHttp2HeaderFrame) (str : Bytes) : KHttp2HeaderFrame :=
  KHttp2HeaderFrame.writeLoop str.length f str

/-- `write_lower_string`: the loop of `write` with `tolower` on each byte. -/
def KHttp2HeaderFrame.writeLowerString (f : KHttp2HeaderFrame) (str : Bytes) :
    KHttp2HeaderFrame :=
  f.write (str.map toLower)

/-- The octets `write_int` puts after a full prefix. -/
def intTail : ℕ → ℕ → Bytes
  | 0, value => [UInt8.ofNat value]
  | fuel + 1, value =>
    if value ≥ 128 then UInt8.ofNat (value % 128 + 128) :: intTail fuel (value / 128)
    else [UInt8.ofNat value]

/-- `write_int`; `value` rounds are more than the loop needs. -/
def KHttp2HeaderFrame.writeInt (f : KHttp2HeaderFrame) (type : UInt8) (pfx value : ℕ) :
    KHttp2HeaderFrame :=
  if value < pfx then f.write [type ||| UInt8.ofNat value]
  else f.write ((type ||| UInt8.ofNat pfx) :: intTail (value - pfx) (value - pfx))

/-- `insert`: put bytes before the block. -/
def KHttp2HeaderFrame.insert (f : KHttp2HeaderFrame) (str : Bytes) : KHttp2HeaderFrame :=
  if f.chunks = [] then f.write str else ⟨str :: f.chunks⟩

/-- The bytes accumulated so far. -/
def KHttp2HeaderFrame.block (f : KHttp2HeaderFrame) : Bytes := f.chunks.flatten

/-- What `create` works on: the memory of the frame headers it allocates (cell `0` is
`buf->data`), the chain built so far, and its locals `h`, `frame_size` and `type`. -/
structure CreateState where
  cells : ℕ → Http2FrameHeader
  chain : List (ℕ ⊕ Bytes)
  h : ℕ
  frameSize : ℕ
  type : ℕ

/-- `h->set_length_type(frame_size, type); h->stream_id = htonl(stream_id)`. -/
def CreateState.closeFrame (c : CreateState) (streamId : ℕ) : CreateState :=
  let h := { (c.cells c.h).setLengthType c.frameSize c.type with streamId := streamId }
  { c with cells := Function.update c.cells c.h h }

/-- One round of the loop of `create`. When the chunk does not fit, the frame is closed and a
header is allocated for a CONTINUATION; the `memset` that follows clears `buf->data`, so the
new header keeps what `malloc` left there. -/
def CreateState.add (streamId maxFrameSize : ℕ) (c : CreateState) (head : Bytes) : CreateState :=
  let c := if c.frameSize + head.length > maxFrameSize then
      let c := c.closeFrame streamId
      { c with
        type := continuationFrame
        frameSize := 0
        cells := Function.update c.cells 0 .zero
        h := c.h + 1
        chain := c.chain ++ [.inl (c.h + 1)] }
    else c
  { c with frameSize := c.frameSize + head.length, chain := c.chain ++ [.inr head] }

/-- `KHttp2HeaderFrame::create`: the chain of buffers that carries the block. `junk` is what
`malloc` leaves in the headers it returns. -/
def KHttp2HeaderFrame.create (junk : ℕ → Http2FrameHeader) (f : KHttp2HeaderFrame)
    (streamId : ℕ) (noBody : Bool) (maxFrameSize : ℕ) : List Http2Buff :=
  let first := { Http2FrameHeader.zero with flags := if noBody then endStreamFlag else 0 }
  let c : CreateState := ⟨Function.update junk 0 first, [.inl 0], 0, 0, headersFrame⟩
  let c := f.chunks.foldl (CreateState.add streamId maxFrameSize) c
  let c := c.closeFrame streamId
  let cells := Function.update c.cells c.h
    { c.cells c.h with flags := (c.cells c.h).flags ||| endHeadersFlag }
  c.chain.map fun
    | .inl cell => .ofBytes (cells cell).bytes
    | .inr chunk => .ofBytes chunk

/-- The bytes of a chain of memory buffers. -/
def chainBytes (bufs : List Http2Buff) : Bytes := bufs.flatMap Http2Buff.data

end Khttpd
