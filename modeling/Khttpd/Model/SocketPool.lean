import Mathlib.Data.Int.Notation
import Mathlib.Data.Nat.Notation

/-!
# The pool of upstream connections

`KPoolableSocketContainer` and its list of idle upstreams. The list is written from `head.next` to
`head.prev`. Where `klist_insert(head.next, queue)` puts a new node is a parameter: the lists of the
event library are not part of the repository.
-/

set_option autoImplicit false

namespace Khttpd

/-- `KUpstream` as the pool sees it: its object, the storage that `expire_time` and
`read_header_time` share, and what `IsMultiStream` and `support_websocket` return. -/
structure KUpstream (ι : Type) where
  us : ι
  expireTime : ℤ
  isMultiStream : Bool
  supportWebsocket : Bool
  deriving DecidableEq, Repr

/-- `KPoolableSocketContainerImp`; `head` is the list. -/
structure KPoolableSocketContainerImp (ι : Type) where
  size : ℤ
  head : List (KUpstream ι)
  deriving DecidableEq, Repr

/-- `KPoolableSocketContainer`; `imp` is null before the first use. -/
structure KPoolableSocketContainer (ι : Type) where
  lifeTime : ℕ
  imp : Option (KPoolableSocketContainerImp ι)
  deriving DecidableEq, Repr

/-- An upstream that `get_pool_socket` hands out: the entry as it stood in the list, and whether
the caller gets a new stream of it. -/
structure PoolSocket (ι : Type) where
  entry : KUpstream ι
  newStream : Bool
  deriving DecidableEq, Repr

variable {ι : Type}

/-! ## The list -/

namespace KPoolableSocketContainerImp

/-- The constructor. -/
def init : KPoolableSocketContainerImp ι := ⟨0, []⟩

/-- The loop of `refreshList` over the list from `head.prev` on: what stays, and what is destroyed.
-/
def refreshLoop (now : ℤ) (clean : Bool) :
    List (KUpstream ι) → ℤ → List (KUpstream ι) × ℤ × List (KUpstream ι)
  | [], size => ([], size, [])
  | st :: rest, size =>
    if !clean && st.expireTime > now then (st :: rest, size, [])
    else
      let r := refreshLoop now clean rest (size - 1)
      (r.1, r.2.1, st :: r.2.2)

/-- `refresh`, and the upstreams that it destroys. -/
def refresh (now : ℤ) (clean : Bool) (imp : KPoolableSocketContainerImp ι) :
    KPoolableSocketContainerImp ι × List (KUpstream ι) :=
  let r := refreshLoop now clean imp.head.reverse imp.size
  (⟨r.2.1, r.1.reverse⟩, r.2.2)

/-- The loop of `internalGetPoolSocket` from a node on; `newStream` says whether `NewStream`
returns a stream. The result is the size, the list from that node on, the upstream handed out and
the ones destroyed. -/
def getLoop (websocket : Bool) (newStream : KUpstream ι → Bool) :
    List (KUpstream ι) → ℤ → ℤ × List (KUpstream ι) × Option (PoolSocket ι) × List (KUpstream ι)
  | [], size => (size, [], none, [])
  | socket :: next, size =>
    if websocket && !socket.supportWebsocket then (size, socket :: next, none, [])
    else if socket.isMultiStream then
      if newStream socket then (size, socket :: next, some ⟨socket, true⟩, [])
      else
        let r := getLoop websocket newStream next (size - 1)
        (r.1, r.2.1, r.2.2.1, socket :: r.2.2.2)
    else (size - 1, next, some ⟨socket, false⟩, [])

end KPoolableSocketContainerImp

/-! ## The container -/

namespace KPoolableSocketContainer

/-- A container before its first use. -/
def init (lifeTime : ℕ) : KPoolableSocketContainer ι := ⟨lifeTime, none⟩

/-- The list, created where there is none. -/
def getImp (p : KPoolableSocketContainer ι) : KPoolableSocketContainerImp ι := p.imp.getD .init

/-- `PutPoolSocket`. -/
def putPoolSocket (klistInsert : KUpstream ι → List (KUpstream ι) → List (KUpstream ι))
    (p : KPoolableSocketContainer ι) (st : KUpstream ι) : KPoolableSocketContainer ι :=
  let imp := p.getImp
  { p with imp := some ⟨imp.size + 1, klistInsert st imp.head⟩ }

/-- The life time that `gcSocket` uses. -/
def effectiveLifeTime (p : KPoolableSocketContainer ι) (lifeTime : ℤ) : ℤ :=
  if lifeTime = 0 ∨ lifeTime > p.lifeTime then p.lifeTime else lifeTime

/-- `gcSocket`, and the upstream where it is destroyed. -/
def gcSocket (klistInsert : KUpstream ι → List (KUpstream ι) → List (KUpstream ι)) (now : ℤ)
    (p : KPoolableSocketContainer ι) (st : KUpstream ι) (lifeTime : ℤ) :
    KPoolableSocketContainer ι × List (KUpstream ι) :=
  if p.lifeTime ≤ 0 ∨ lifeTime < 0 then (p, [st])
  -- until here the storage is `read_header_time`
  else if st.expireTime > now then (p, [st])
  else
    let st := { st with expireTime := st.expireTime + p.effectiveLifeTime lifeTime }
    if st.expireTime < now then (p, [st]) else (p.putPoolSocket klistInsert st, [])

/-- `refresh(nowTime)`. -/
def refresh (now : ℤ) (p : KPoolableSocketContainer ι) (nowTime : ℤ) :
    KPoolableSocketContainer ι × List (KUpstream ι) :=
  match p.imp with
  | none => (p, [])
  | some imp =>
    let r := imp.refresh now (nowTime = 0)
    ({ p with imp := some r.1 }, r.2)

/-- `get_pool_socket`; the third component are the upstreams that it destroys. -/
def getPoolSocket (now : ℤ) (newStream : KUpstream ι → Bool) (p : KPoolableSocketContainer ι)
    (websocket : Bool) :
    KPoolableSocketContainer ι × Option (PoolSocket ι) × List (KUpstream ι) :=
  let r := p.getImp.refresh now false
  let r' := KPoolableSocketContainerImp.getLoop websocket newStream r.1.head r.1.size
  ({ p with imp := some ⟨r'.1, r'.2.1⟩ }, r'.2.2.1, r.2 ++ r'.2.2.2)

end KPoolableSocketContainer

/-! ## Runs -/

/-- What happens to a container. `gcSocket` gets an upstream with any `read_header_time`, and
`getPoolSocket` what `NewStream` does on each entry. -/
inductive PoolEvent (ι : Type)
  | gcSocket (st : KUpstream ι) (lifeTime : ℤ)
  | refresh (nowTime : ℤ)
  | getPoolSocket (websocket : Bool) (newStream : KUpstream ι → Bool)
  | tick (sec : ℕ)

/-- A container and `kgl_current_sec`. -/
structure PoolState (ι : Type) where
  now : ℤ
  pool : KPoolableSocketContainer ι

namespace PoolState

/-- A step, and what it hands out. -/
def step (klistInsert : KUpstream ι → List (KUpstream ι) → List (KUpstream ι)) (s : PoolState ι) :
    PoolEvent ι → PoolState ι × Option (PoolSocket ι)
  | .gcSocket st lifeTime =>
    ({ s with pool := (s.pool.gcSocket klistInsert s.now st lifeTime).1 }, none)
  | .refresh nowTime => ({ s with pool := (s.pool.refresh s.now nowTime).1 }, none)
  | .getPoolSocket websocket newStream =>
    let r := s.pool.getPoolSocket s.now newStream websocket
    ({ s with pool := r.1 }, r.2.1)
  | .tick sec => ({ s with now := s.now + sec }, none)

/-- The state after a run. -/
def run (klistInsert : KUpstream ι → List (KUpstream ι) → List (KUpstream ι)) (s : PoolState ι)
    (es : List (PoolEvent ι)) : PoolState ι :=
  es.foldl (fun s e => (s.step klistInsert e).1) s

end PoolState

end Khttpd
