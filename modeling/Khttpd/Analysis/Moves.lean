import Mathlib.Algebra.Order.Ring.Int
import Mathlib.Logic.Relation
import Khttpd.Analysis.Linked

/-!
# What a connection does to its streams and windows

Every step of a connection is a sequence of moves: quiet steps, and the few ways in which streams
are opened, held by the parser, started, released, and in which windows are used and changed.
`Move` lists them with what holds when they are made, so that an invariant of streams and windows
is proved once for each. Some of the moves are slips of the source; a path names the slips it may
contain.
-/

set_option autoImplicit false

namespace Khttpd

/-- The slips of the source that the results on streams and windows are about. -/
inductive Slip
  /-- `ReleaseStateStream` finds a stream whose header block is not complete. -/
  | dropIncomplete
  /-- `state_headers` takes a stream off the queue whose writer waits there for window. -/
  | unqueueWriter
  /-- A client stream is not in the table when the initial window shrinks, and keeps more. -/
  | staleWindow
  /-- `state_headers` opens a stream under the last identifier that the peer has used. -/
  | reuseSid
  deriving DecidableEq, Repr

namespace KHttp2

/-- The stream of the parser belongs to a request whose header block is not complete. -/
def incomplete (s : KHttp2) : Bool :=
  !s.clientModel && s.state.stream.any fun c => !(s.ctx c).parsedHeader

/-- Every waiting writer has a window that is used up. -/
def Parked (s : KHttp2) : Prop :=
  ∀ c, (s.ctx c).waitsForWindow = true → (s.ctx c).sendWindow ≤ 0 ∨ s.sendWindow = 0

/-- A step of a writer: it sends a DATA frame that both windows and the frame size allow. -/
inductive Sending (s : KHttp2) : KHttp2 → Prop
  | quiet {t : KHttp2} (h : Quiet s t) : Sending s t
  | send (c : CtxId) (e : WriteEvent) (len : ℕ) (hnode : (s.ctx c).node.isSome)
      (hopen : (s.ctx c).waitsForWindow = true ∨ (s.ctx c).rst = false) (hpos : 0 < len)
      (hframe : len ≤ s.frameSize) (hstream : (len : ℤ) ≤ (s.ctx c).sendWindow)
      (hconn : len ≤ s.sendWindow) : Sending s (s.sendData c e len)

/-- A change of windows that the peer asks for. -/
inductive WindowChange (s : KHttp2) : KHttp2 → Prop
  | stream (c : CtxId) (window : ℕ) (hnode : (s.ctx c).node.isSome)
      (h : window ≤ toUint32 (maxWindow - (s.ctx c).sendWindow)) :
      WindowChange s ((s.log (.windowUpdate (some c) window)).modify c fun ctx =>
        { ctx with sendWindow := toInt32 (ctx.sendWindow + window) })
  | conn (window : ℕ) (h : window ≤ toUint32 (maxWindow - s.sendWindow)) :
      WindowChange s { s.log (.windowUpdate none window) with
        sendWindow := toUint32 (s.sendWindow + window) }
  | initial (value : ℕ) (h : value ≤ maxWindow) :
      WindowChange s (s.allNodes.foldl (adjustNode (toInt32 ((value : ℤ) - s.initWindow)))
        { s.log (.setting 4 value) with initWindow := value })
  | frame (value : ℕ) (hmin : defaultFrameSize ≤ value) (hmax : value ≤ maxFrameSize) :
      WindowChange s { s.log (.setting 5 value) with frameSize := value }
  | other (id value : ℕ) (hinit : id ≠ 4) (hframe : id ≠ 5) :
      WindowChange s (s.log (.setting id value))

/-- A client stream gets its node. -/
def linkNode (s : KHttp2) (c : CtxId) : KHttp2 :=
  let s := { s with lastSelfSid := s.lastSelfSid + 2 }
  (s.newNode s.lastSelfSid c).modify c fun ctx => { ctx with node := some s.lastSelfSid }

/-- A request is started for the stream of the parser. -/
def startRequest (s : KHttp2) (c : CtxId) : KHttp2 :=
  let s := (s.setState fun st => { st with stream := none }).modify c fun ctx =>
    { ctx with parsedHeader := true }
  { s.log (.startFiber c ((s.ctx c).node.getD 0)) with
    processing := s.processing + 1
    owners := c :: s.owners }

/-- A move of a connection. -/
inductive Move (slips : Slip → Prop) (s : KHttp2) : KHttp2 → Prop
  | sending {t : KHttp2} (h : Sending s t) : Move slips s t
  /-- A HEADERS frame opens a stream on a server. -/
  | openStream (p : Bytes) (hserver : s.clientModel = false) (hnew : s.getNode s.state.sid = none)
      (hlast : slips .reuseSid ∨ s.lastPeerSid < s.state.sid) :
      Move slips s ({ s with lastPeerSid := s.state.sid }.headersNewStream p).1
  /-- The peer uses an identifier. -/
  | peerSid (sid : ℕ) (hserver : s.clientModel = false) (hlast : s.lastPeerSid ≤ sid) :
      Move slips s { s with lastPeerSid := sid }
  /-- A client makes a stream, which gets its node later. -/
  | newClientStream (processing : ℤ) (admin : Bool) (hclient : s.clientModel = true) :
      Move slips s ({ s with processing := processing }.newClientStream admin)
  | linkNode (c : CtxId) (hclient : s.clientModel = true) (hnone : (s.ctx c).node = none)
      (howner : c ∈ s.owners)
      (hslip : slips .staleWindow ∨ (s.ctx c).rst = true ∨ (s.ctx c).sendWindow ≤ s.initWindow) :
        Move slips s (s.linkNode c)
  /-- The parser takes hold of a stream. -/
  | hold (c : CtxId) (hnode : (s.ctx c).node.isSome)
      (hlast : (s.ctx c).parsedHeader = true ∨ s.clientModel = true ∨
        ∃ sid, (s.ctx c).node = some sid ∧ s.lastPeerSid ≤ sid) :
      Move slips s (s.setState fun st => { st with stream := some c })
  /-- The parser lets its stream go. -/
  | letGo : Move slips s (s.setState fun st => { st with stream := none })
  | start (c : CtxId) (hserver : s.clientModel = false) (hstream : s.state.stream = some c)
      (hparsed : (s.ctx c).parsedHeader = false) : Move slips s (s.startRequest c)
  /-- A response header is complete. -/
  | response (c : CtxId) (hclient : s.clientModel = true) :
      Move slips s (s.modify c fun ctx => { ctx with parsedHeader := true })
  /-- A fiber hands its stream back. -/
  | release (c : CtxId) (howner : s.clientModel = true ∨ c ∈ s.owners) :
      Move slips s ((s.releaseStream c).releaseAdminCount c)
  /-- The admin stream is released early. -/
  | gc (c : CtxId) (hclient : s.clientModel = true) : Move slips s (s.gc c)
  /-- A fiber starts to wait for window. -/
  | wait (c : CtxId) (e : WriteEvent) (hnode : (s.ctx c).node.isSome)
      (hopen : (s.ctx c).rst = false)
      (hused : (s.ctx c).sendWindow ≤ 0 ∨ s.sendWindow = 0) :
      Move slips s ((s.modify c fun ctx => { ctx with writeWait := some e }).addQueue c)
  /-- The peer changes a window, and the writers that wait for it go on. -/
  | windows {u t : KHttp2} (hchange : WindowChange s u)
      (hsends : Relation.ReflTransGen Sending u t) (hparked : Parked s → Parked t) :
      Move slips s t
  | delete : Move slips s { s with deleted := true }
  /-- The slip `dropIncomplete`: the stream is released and its node destroyed again. -/
  | drop {t : KHttp2} (c : CtxId) (hslip : slips .dropIncomplete) (hserver : s.clientModel = false)
      (hstream : s.state.stream = some c) (hparsed : (s.ctx c).parsedHeader = false)
      (ht : Quiet ((s.releaseStream c).releaseAdminCount c) t) :
      Move slips s ((t.destroyNode c (t.ctx c).node).setState fun st => { st with stream := none })
  /-- The slip `unqueueWriter`. -/
  | unqueue (c : CtxId) (hslip : slips .unqueueWriter) : Move slips s (s.removeQueue c)

/-- A sequence of moves. -/
abbrev Path (slips : Slip → Prop) : KHttp2 → KHttp2 → Prop := Relation.ReflTransGen (Move slips)

end KHttp2

end Khttpd
