import Khttpd.Model.SocketPool

/-!
# The upstreams of a client connection and their pool

A request on a client connection ends with `KHttp2Upstream::gc`. It leaves the admin stream of the
connection in the pool, where `NewStream` opens the streams of later requests on it. The model has
one connection, with the fields that these functions read, and any other upstreams of its pool.
-/

set_option autoImplicit false

namespace Khttpd

/-! ## The connection -/

/-- `KHttp2` as its upstreams see it; `client_model` is set. -/
structure KHttp2Client where
  hasAdminStream : Bool
  selfGoaway : Bool
  peerGoaway : Bool
  enableConnect : Bool
  deriving DecidableEq, Repr

namespace KHttp2Client

/-- `get_admin_stream`, and whether it returns a stream. -/
def getAdminStream (h : KHttp2Client) : KHttp2Client × Bool :=
  if h.hasAdminStream || h.selfGoaway || h.peerGoaway then (h, false)
  else ({ h with hasAdminStream := true }, true)

/-- Whether `connect` returns a stream; `room` is set where `last_self_sid` and `processing` are
within their limits. -/
def connect (h : KHttp2Client) (room : Bool) : Bool := !h.peerGoaway && !h.selfGoaway && room

/-- `release_admin` of a stream. -/
def releaseAdmin (h : KHttp2Client) (adminStream : Bool) : KHttp2Client :=
  if adminStream then { h with hasAdminStream := false } else h

end KHttp2Client

/-! ## Upstreams -/

/-- `KHttp2Upstream`: its stream, the storage that `expire_time` and `read_header_time` share, and
whether it has a container. -/
structure KHttp2Upstream where
  ctx : ℕ
  adminStream : Bool
  expireTime : ℤ
  container : Bool
  deriving DecidableEq, Repr

/-- Whose an upstream in the pool is: a stream of the connection, or anything else. -/
inductive PoolOwner
  | http2 (ctx : ℕ) (adminStream : Bool)
  | other (id : ℕ)
  deriving DecidableEq, Repr

namespace PoolOwner

/-- The upstream is a stream of the connection. -/
def isHttp2 : PoolOwner → Bool
  | .http2 _ _ => true
  | .other _ => false

/-- `ctx->admin_stream`. -/
def adminStream : PoolOwner → Bool
  | .http2 _ adminStream => adminStream
  | .other _ => false

end PoolOwner

/-- The upstream as the pool sees it. -/
def KHttp2Upstream.upstream (us : KHttp2Upstream) (enableConnect : Bool) : KUpstream PoolOwner :=
  ⟨.http2 us.ctx us.adminStream, us.expireTime, true, enableConnect⟩

/-- A pool, a client connection and the upstreams of its requests. `dying` are the upstreams that
`SafeDestroyUpstream` has not destroyed yet: on the selector of the connection that is the next
step, on another one a fiber does it later. `lastHeader` is not in the source: the time of the last
`read_header` on the connection. -/
structure UpstreamPool where
  sockets : PoolState PoolOwner
  http2 : KHttp2Client
  nextCtx : ℕ
  streams : List KHttp2Upstream
  dying : List PoolOwner
  lastHeader : Option ℤ

namespace UpstreamPool

/-- `KHttp2::client` on a new connection, whose upstream is bound to the container. -/
def client (now lifeTime : ℕ) : UpstreamPool where
  sockets := ⟨now, .init lifeTime⟩
  http2 := ⟨true, false, false, false⟩
  nextCtx := 1
  streams := [⟨0, true, 0, true⟩]
  dying := []
  lastHeader := none

/-- `Destroy`. -/
def destroy (s : UpstreamPool) (us : KHttp2Upstream) : UpstreamPool :=
  { s with http2 := s.http2.releaseAdmin us.adminStream }

/-- The container after a call. -/
def setPool (s : UpstreamPool) (pool : KPoolableSocketContainer PoolOwner) : UpstreamPool :=
  { s with sockets := { s.sockets with pool := pool } }

/-- `SafeDestroyUpstream` of upstreams that leave the pool. -/
def safeDestroy (s : UpstreamPool) (gone : List (KUpstream PoolOwner)) : UpstreamPool :=
  { s with dying := s.dying ++ (gone.map KUpstream.us).filter PoolOwner.isHttp2 }

/-- `gcSocket` of a stream of the connection. -/
def gcSocket (klistInsert : KUpstream PoolOwner → List (KUpstream PoolOwner) →
    List (KUpstream PoolOwner)) (s : UpstreamPool) (us : KHttp2Upstream) (lifeTime : ℤ) :
    UpstreamPool :=
  let r := s.sockets.pool.gcSocket klistInsert s.sockets.now (us.upstream s.http2.enableConnect)
    lifeTime
  let s := s.setPool r.1
  if r.2.isEmpty then s else s.destroy us

/-- `KHttp2Upstream::gc`. -/
def gc (klistInsert : KUpstream PoolOwner → List (KUpstream PoolOwner) →
    List (KUpstream PoolOwner)) (s : UpstreamPool) (us : KHttp2Upstream) (_lifeTime : ℤ) :
    UpstreamPool :=
  let lifeTime := 30
  if !us.container then s.destroy us
  else if us.adminStream then s.gcSocket klistInsert us lifeTime
  else
    let r := s.http2.getAdminStream
    let s := { s with http2 := r.1 }
    let s := if r.2 then
        -- the constructor of `KUpstream` sets `expire_time` to 0
        { s with nextCtx := s.nextCtx + 1 }.gcSocket klistInsert ⟨s.nextCtx, true, 0, true⟩ lifeTime
      else s
    s.destroy us

/-- `NewStream` of an upstream in the pool. -/
def newStream (s : UpstreamPool) (room : Bool) (other : ℕ → Bool) (st : KUpstream PoolOwner) :
    Bool :=
  match st.us with
  | .http2 _ _ => s.http2.connect room
  | .other id => other id

/-- `get_pool_socket`. -/
def getPoolSocket (s : UpstreamPool) (websocket room : Bool) (other : ℕ → Bool) : UpstreamPool :=
  let r := s.sockets.pool.getPoolSocket s.sockets.now (s.newStream room other) websocket
  let s := (s.setPool r.1).safeDestroy r.2.2
  if r.2.1.any fun socket => socket.entry.us.isHttp2 then
    { s with
        streams := ⟨s.nextCtx, false, s.sockets.now, true⟩ :: s.streams
        nextCtx := s.nextCtx + 1 }
  else s

/-- `refresh`. -/
def refresh (s : UpstreamPool) (nowTime : ℤ) : UpstreamPool :=
  let r := s.sockets.pool.refresh s.sockets.now nowTime
  (s.setPool r.1).safeDestroy r.2

/-- `read_header`. -/
def readHeader (s : UpstreamPool) (us : KHttp2Upstream) : UpstreamPool :=
  { s with
      streams := { us with expireTime := s.sockets.now } :: s.streams.erase us
      lastHeader := some s.sockets.now }

/-- The peer allows extended CONNECT: `support_websocket` returns something else from here on. -/
def setEnableConnect (s : UpstreamPool) (enableConnect : Bool) : UpstreamPool :=
  let set := fun st : KUpstream PoolOwner =>
    if st.us.isHttp2 then { st with supportWebsocket := enableConnect } else st
  let pool := s.sockets.pool
  { s.setPool { pool with imp := pool.imp.map fun imp =>
    { imp with head := imp.head.map set } } with
      http2 := { s.http2 with enableConnect := enableConnect } }

end UpstreamPool

/-! ## Runs -/

/-- What happens to the pool, the connection and its upstreams. -/
inductive UpstreamEvent
  /-- The upstream of a request is put back. -/
  | gc (us : KHttp2Upstream) (lifeTime : ℤ)
  /-- The upstream of a request is destroyed. -/
  | destroy (us : KHttp2Upstream)
  | readHeader (us : KHttp2Upstream)
  | getPoolSocket (websocket room : Bool) (other : ℕ → Bool)
  | refresh (nowTime : ℤ)
  /-- An upstream that left the pool is destroyed. -/
  | nextDestroy (us : PoolOwner)
  /-- An upstream of another connection is put back. -/
  | otherGc (id : ℕ) (readHeaderTime : ℤ) (isMultiStream supportWebsocket : Bool) (lifeTime : ℤ)
  /-- GOAWAY is sent or received. -/
  | goaway (self : Bool)
  | enableConnect (enableConnect : Bool)
  | tick (sec : ℕ)

namespace UpstreamPool

variable (klistInsert : KUpstream PoolOwner → List (KUpstream PoolOwner) →
    List (KUpstream PoolOwner))

/-- A step; a request calls only on an upstream that it has. -/
def step (s : UpstreamPool) : UpstreamEvent → UpstreamPool
  | .gc us lifeTime =>
    if us ∈ s.streams then { s with streams := s.streams.erase us }.gc klistInsert us
      lifeTime else s
  | .destroy us => if us ∈ s.streams then { s with streams := s.streams.erase us }.destroy us else s
  | .readHeader us => if us ∈ s.streams then s.readHeader us else s
  | .getPoolSocket websocket room other => s.getPoolSocket websocket room other
  | .refresh nowTime => s.refresh nowTime
  | .nextDestroy us =>
    if us ∈ s.dying then
      { s with dying := s.dying.erase us, http2 := s.http2.releaseAdmin us.adminStream }
    else s
  | .otherGc id readHeaderTime isMultiStream supportWebsocket lifeTime =>
    s.setPool (s.sockets.pool.gcSocket klistInsert s.sockets.now
      ⟨.other id, readHeaderTime, isMultiStream, supportWebsocket⟩ lifeTime).1
  | .goaway self =>
    { s with http2 :=
        { s.http2 with
          selfGoaway := s.http2.selfGoaway || self
          peerGoaway := s.http2.peerGoaway || !self } }
  | .enableConnect enableConnect => s.setEnableConnect enableConnect
  | .tick sec => { s with sockets := { s.sockets with now := s.sockets.now + sec } }

/-- The state after a run. -/
def run (s : UpstreamPool) (es : List UpstreamEvent) : UpstreamPool :=
  es.foldl (step klistInsert) s

end UpstreamPool

end Khttpd
