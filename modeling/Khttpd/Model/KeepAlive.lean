import Khttpd.Model.HeaderParser

/-!
# Connections that are kept alive

`KHttpSink::start` with `start_pipe_line` and `skip_post`. The network is the list of what the next
reads return; where it ends, or returns nothing, a read fails.
-/

set_option autoImplicit false

namespace Khttpd

/-! ## Request handlers -/

/-- What a request handler does that changes how the connection goes on. -/
inductive HandlerStep
  /-- `KSink::read` with room for `len` bytes. -/
  | read (len : ℕ)
  /-- `RQ_CONNECTION_CLOSE` is set. -/
  | closeConnection
  /-- `RQ_CONNECTION_UPGRADE` is set. -/
  | upgradeConnection
  deriving DecidableEq, Repr

namespace KHttpSink

/-- A step of the handler. -/
def handle : HandlerStep → KHttpSink → List Bytes → KHttpSink × List Bytes
  | .read len, s, net =>
    let r := s.read len net
    (r.1, r.2.1)
  | .closeConnection, s, net => ({ s with data := { s.data with connectionClose := true } }, net)
  | .upgradeConnection, s, net =>
    ({ s with data := { s.data with connectionUpgrade := true } }, net)

/-- `khttp_server_new_request`. -/
def newRequest : List HandlerStep → KHttpSink → List Bytes → KHttpSink × List Bytes
  | [], s, net => (s, net)
  | step :: steps, s, net =>
    let r := s.handle step net
    newRequest steps r.1 r.2

/-! ## The rest of the body -/

/-- The loop of `skip_post` over a chunked body, with at most `fuel` calls of `read`. -/
def skipChunked : ℕ → KDechunkContext → List Bytes → Option (KDechunkContext × List Bytes)
  | 0, _, _ => none
  | fuel + 1, ctx, net =>
    let r := ctx.read 4096 net
    match r.2.2 with
    | none => none
    | some got => if got = [] then some (r.1, r.2.1) else skipChunked fuel r.1 r.2.1

/-- The loop of `skip_post` over a body with a length, with at most `fuel` reads. -/
def skipLength : ℕ → KHttpSink → List Bytes → Option (KHttpSink × List Bytes)
  | 0, s, net => if 0 < s.data.leftRead then none else some (s, net)
  | fuel + 1, s, net =>
    if 0 < s.data.leftRead then
      let r := s.internalRead (min 4096 s.data.leftRead.toNat) net
      match r.2.2 with
      | none => none
      | some got =>
        if got = [] then none
        else
          skipLength fuel
            { r.1 with data := { r.1.data with leftRead := r.1.data.leftRead - got.length } } r.2.1
    else some (s, net)

/-- `KHttpSink::skip_post`; `none` is `return false`. -/
def skipPost (s : KHttpSink) (net : List Bytes) : Option (KHttpSink × List Bytes) :=
  match s.dechunk with
  | some ctx =>
    (skipChunked (ctx.buffer.length + net.flatten.length + 1) ctx net).map fun r =>
      ({ s with data := { s.data with leftRead := 0 }, dechunk := some r.1 }, r.2)
  | none => s.skipLength s.data.leftRead.toNat net

/-! ## The next request -/

/-- `reset_pipeline`: the flags and `left_read` are cleared, and the rest is kept. -/
def resetPipeline (d : KRequestData) : KRequestData :=
  { meth := d.meth, httpVersion := d.httpVersion, hasHost := d.hasHost, haveExpect := false,
    hasKeepConnection := false, hasConnectionUpgrade := false, connectionUpgrade := false,
    connectionClose := false, header := d.header, inputChunked := false, hasContentLen := false,
    leftRead := 0 }

/-- `start_pipe_line`; `none` is `return false`. -/
def startPipeLine (s : KHttpSink) (net : List Bytes) : Option (KHttpSink × List Bytes) :=
  if s.data.connectionClose || s.data.connectionUpgrade || !s.data.hasKeepConnection then none
  else
    (if s.data.leftRead ≠ 0 ∧ s.data.haveExpect = false then s.skipPost net else some (s, net)).map
      fun r => ({ r.1 with data := resetPipeline r.1.data }, r.2)

/-- `begin_request`. -/
def beginRequest (d : KRequestData) : KRequestData :=
  { d with meth := methUnset, hasHost := false, header := [] }

/-- The bytes that were received and that nobody has read yet. -/
def received (s : KHttpSink) : Bytes :=
  match s.dechunk with
  | some ctx => ctx.buffer
  | none => s.buffer

/-- The bytes of the connection that nobody has read yet. -/
def unread (s : KHttpSink) (net : List Bytes) : Bytes := s.received ++ net.flatten

/-- What `start` does from `start_pipe_line` to the next `parse`: the bytes that were received for
the next request, or the next read. -/
def nextRequest (s : KHttpSink) (net : List Bytes) : Option (KHttpSink × List Bytes) :=
  if s.received ≠ [] then some (⟨beginRequest s.data, s.received, none⟩, net)
  else
    match net with
    | [] => none
    | got :: net => if got = [] then none else some (⟨beginRequest s.data, got, none⟩, net)

end KHttpSink

/-! ## The loop -/

/-- What the header parser meets beside the bytes: the readers of methods and URLs, whether the
server speaks HTTP/2, and, for each state of the connection, whether the time is over and what the
memory behind the received bytes holds. -/
structure HeaderEnv where
  parser : RequestParser
  h2 : Bool
  late : KHttpSink → List Bytes → Bool
  beyond : KHttpSink → List Bytes → Byte

/-- The calls of `parse` and the reads up to the end of a header section; `none` is `return`. -/
def readHeader (env : HeaderEnv) :
    KHttpParser → KHttpSink → List Bytes → Option (KHttpSink × List Bytes)
  | p, s, [] =>
    let r := s.parse env.parser env.h2 (env.late s []) (env.beyond s []) p
    if r.result = .finished then some (r.sink, []) else none
  | p, s, got :: net =>
    let r := s.parse env.parser env.h2 (env.late s (got :: net)) (env.beyond s (got :: net)) p
    match r.result with
    | .finished => some (r.sink, got :: net)
    | .continue =>
      if got = [] then none
      else readHeader env r.parser { r.sink with buffer := r.sink.buffer ++ got } net
    | .error => none

/-- A request and its response: what `parse_header` left, the bytes behind the header section and
the steps of the handler; the unread bytes where `start_pipe_line` returned true, and those with
which the next request is parsed. -/
structure Exchange where
  data : KRequestData
  unread : Bytes
  steps : List HandlerStep
  piped : Option Bytes
  next : Option Bytes

/-- `KHttpSink::start` from the first `parse` on, with one list of steps for each request. -/
def serve (env : HeaderEnv) : List (List HandlerStep) → KHttpSink → List Bytes → List Exchange
  | [], _, _ => []
  | steps :: handlers, s, net =>
    match readHeader env .init s net with
    | none => []
    | some (s, net) =>
      let r := s.newRequest steps net
      match r.1.startPipeLine r.2 with
      | none => [⟨s.data, s.unread net, steps, none, none⟩]
      | some (s1, net1) =>
        match s1.nextRequest net1 with
        | none => [⟨s.data, s.unread net, steps, some (s1.unread net1), none⟩]
        | some (s2, net2) =>
          ⟨s.data, s.unread net, steps, some (s1.unread net1), some (s2.unread net2)⟩ ::
            serve env handlers s2 net2

/-- `KHttpSink::start`. -/
def start (env : HeaderEnv) (handlers : List (List HandlerStep)) : List Bytes → List Exchange
  | [] => []
  | got :: net => if got = [] then [] else serve env handlers ⟨.idle, got, none⟩ net

end Khttpd
