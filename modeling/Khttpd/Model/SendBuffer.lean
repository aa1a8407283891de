import Khttpd.Model.Frame

/-!
# The read buffer of a stream

`KSendBuffer`, a chain of `kbuf`s that is filled at its end and read at `hot`, and the loop of
`KHttp2::copy_read_buffer` over it. A result is `none` where an assertion fails or the code reads
through a NULL.
-/

set_option autoImplicit false

namespace Khttpd

/-- `KSendBuffer`: the bytes of the `kbuf`s from `header` on, the offset of `hot` in the first of
them, and `total_len`. -/
structure KSendBuffer where
  header : List Bytes
  hot : ℕ
  totalLen : ℤ
  deriving DecidableEq, Repr

namespace KSendBuffer

/-- A new buffer, and what `clean` leaves. -/
def init : KSendBuffer := ⟨[], 0, 0⟩

@[inherit_doc init] def clean (_ : KSendBuffer) : KSendBuffer := init

/-- `add`, as `pushEnd` calls it. -/
def add (q : KSendBuffer) (buf : Bytes) : KSendBuffer :=
  match q.header with
  | [] => ⟨[buf], 0, q.totalLen + buf.length⟩
  | header => ⟨header ++ [buf], q.hot, q.totalLen + buf.length⟩

/-- `append(str, len)`; the length is a `uint16_t`. -/
def append (q : KSendBuffer) (str : Bytes) : KSendBuffer := q.add (str.take (str.length % 2 ^ 16))

/-- `pushHead`; nothing of the first `kbuf` may be read yet. -/
def pushHead (q : KSendBuffer) (str : Bytes) : Option KSendBuffer :=
  match q.header with
  | [] => some (q.add str)
  | header => if q.hot ≠ 0 then none else some ⟨str :: header, 0, q.totalLen + str.length⟩

/-- `insert(str, len)`. -/
def insert (q : KSendBuffer) (str : Bytes) : Option KSendBuffer :=
  q.pushHead (str.take (str.length % 2 ^ 16))

/-- `getReadBuffer(buffer, bufferCount)`: at most `bufferCount` iovecs, and at least one. -/
def getReadBuffer (q : KSendBuffer) (bufferCount : ℕ) : Option (List Bytes) :=
  match q.header with
  | [] => none
  | b :: next => some (b.drop q.hot :: next.take (bufferCount - 1))

/-- `getReadBuffer(len)`. -/
def firstReadBuffer (q : KSendBuffer) : Option Bytes := (q.getReadBuffer 1).bind List.head?

/-- The loop of `readSuccess`: the chain that is left and `hot` in it. -/
def readSuccessLoop : List Bytes → ℕ → ℕ → Option (List Bytes × ℕ)
  | header, hot, 0 => some (header, hot)
  | [], _, _ + 1 => none
  | b :: next, hot, got + 1 =>
    let thisLen := min (got + 1) (b.length - hot)
    if b.length = hot + thisLen then
      if next = [] then if got + 1 = thisLen then some ([], 0) else none
      else readSuccessLoop next 0 (got + 1 - thisLen)
    else some (b :: next, hot + thisLen)

/-- `readSuccess`; whether something is left to read. -/
def readSuccess (q : KSendBuffer) (got : ℕ) : Option (KSendBuffer × Bool) := do
  let (header, hot) ← readSuccessLoop q.header q.hot got
  let q := ⟨header, hot, q.totalLen - got⟩
  -- the loop leaves early where it takes the last `kbuf`
  if 0 < got ∧ header = [] then
    if q.totalLen ≠ 0 then none else some (q, false)
  else some (q, true)

/-- The loop of `KHttp2::copy_read_buffer`, with room for `length` bytes and `out` copied so far.
A round that copies something leaves less room, so `length` rounds are enough. -/
def copyLoop : ℕ → KSendBuffer → ℕ → Bytes → Option (KSendBuffer × Bytes)
  | _, q, 0, out => some (q, out)
  | 0, _, _ + 1, _ => none
  | fuel + 1, q, length + 1, out => do
    let data ← q.firstReadBuffer
    let piece := data.take (length + 1)
    let (q, more) ← q.readSuccess piece.length
    if more then copyLoop fuel q (length + 1 - piece.length) (out ++ piece)
    else some (q, out ++ piece)

/-- `KHttp2::copy_read_buffer`: what is copied to a reader with room for `length` bytes. -/
def copyReadBuffer (q : KSendBuffer) (length : ℕ) : Option (KSendBuffer × Bytes) :=
  if q.header = [] then none else copyLoop length q length []

end KSendBuffer

/-! ## Runs -/

/-- What the connection does with the read buffer of a stream. -/
inductive ReadBufferEvent
  /-- `state_read_data` keeps bytes. -/
  | append (str : Bytes)
  /-- A reader with room for `length` bytes is served. -/
  | copy (length : ℕ)
  /-- `state_rst_stream` drops what nobody read. -/
  | clean
  deriving DecidableEq, Repr

/-- A read buffer, and what each reader got so far. -/
structure ReadBufferRun where
  q : KSendBuffer
  copied : List Bytes
  deriving DecidableEq, Repr

namespace ReadBufferRun

/-- What an event does; `none` where an assertion fails. A piece of a frame is not empty and no
longer than the buffer of the parser, and a reader is served where there is a `kbuf`: other events
do not happen. -/
def step (r : ReadBufferRun) : ReadBufferEvent → Option ReadBufferRun
  | .append str =>
    if 0 < str.length ∧ str.length ≤ readBufferSize then some { r with q := r.q.append str }
    else some r
  | .copy length =>
    if r.q.header = [] then some r
    else (r.q.copyReadBuffer length).map fun out => ⟨out.1, r.copied ++ [out.2]⟩
  | .clean => some { r with q := r.q.clean }

/-- A run. -/
def run (r : ReadBufferRun) : List ReadBufferEvent → Option ReadBufferRun
  | [] => some r
  | e :: es => (r.step e).bind fun r => run r es

end ReadBufferRun

end Khttpd
