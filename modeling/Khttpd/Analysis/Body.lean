import Khttpd.Model.Run

/-!
# Readers and writers

The part of a connection that its readers and writers depend on. The parser, the header table,
the send windows and the queue of waiting streams do not belong to it.
-/

set_option autoImplicit false

namespace Khttpd

/-- The fields of a stream that its readers and writers depend on. -/
structure Part where
  node : Option ℕ
  inClosed : Bool
  outClosed : Bool
  rst : Bool
  recvWindow : ℕ
  writeWait : Option WriteEvent
  readWait : Option ReadEvent
  readBuffer : Option Bytes

/-- The part of a stream that its readers and writers depend on. -/
def KHttp2Context.part (ctx : KHttp2Context) : Part where
  node := ctx.node
  inClosed := ctx.inClosed
  outClosed := ctx.outClosed
  rst := ctx.rst
  recvWindow := ctx.recvWindow
  writeWait := ctx.writeWait
  readWait := ctx.readWait
  readBuffer := ctx.readBuffer

/-- The events of readers and writers. -/
def Ev.isBody : Ev → Bool
  | .frameHead .. | .openNode .. | .data .. | .endStream _ | .reset _ | .copied .. | .readReturns ..
  | .wakeRead .. | .waitWrite _ | .wakeWrite .. | .queued _ | .windowUpdateSent .. => true
  | _ => false

/-- The fields of a connection that readers and writers depend on. -/
structure Body where
  part : CtxId → Part
  writeBuffer : KHttp2WriteBuffer
  writeProcessing : Bool
  readProcessing : Bool
  recvWindow : ℕ
  processing : ℤ
  clientModel : Bool
  nextCtx : ℕ
  owners : List CtxId
  pooled : List CtxId
  deleted : Bool
  trace : List Ev

namespace KHttp2

/-- The part of a connection that readers and writers depend on. -/
def body (s : KHttp2) : Body where
  part c := (s.ctx c).part
  writeBuffer := s.writeBuffer
  writeProcessing := s.writeProcessing
  readProcessing := s.readProcessing
  recvWindow := s.recvWindow
  processing := s.processing
  clientModel := s.clientModel
  nextCtx := s.nextCtx
  owners := s.owners
  pooled := s.pooled
  deleted := s.deleted
  trace := s.trace.filter Ev.isBody

/-- Moving the parser along leaves it as it is. -/
theorem body_setState (s : KHttp2) (f : ParserState → ParserState) : (s.setState f).body = s.body :=
  rfl

/-- Assigning to a stream leaves it as it is when its part stays. -/
theorem body_modify {s : KHttp2} {c : CtxId} {f : KHttp2Context → KHttp2Context}
    (h : (f (s.ctx c)).part = (s.ctx c).part) : (s.modify c f).body = s.body := by
  have hpart : ∀ c', ((s.modify c f).ctx c').part = (s.ctx c').part := fun c' => by
    by_cases hc : c' = c
    · subst hc
      simpa only [modify, Function.update_self] using h
    · simp only [modify, Function.update_of_ne hc]
  simp only [body, hpart]
  rfl

/-- Recording another event leaves it as it is. -/
theorem body_log (s : KHttp2) {e : Ev} (he : e.isBody = false) : (s.log e).body = s.body := by
  simp [body, log, he]

/-- What the peer may be sent is not part of it. -/
theorem body_limits (s : KHttp2) (window size : ℕ) (connect : Bool) :
    { s with sendWindow := window, frameSize := size, enableConnect := connect }.body = s.body :=
  rfl

/-- The queue of waiting streams is not part of it. -/
theorem body_requeue (s : KHttp2) {c : CtxId} {f : KHttp2Context → KHttp2Context}
    (h : (f (s.ctx c)).part = (s.ctx c).part) (queue : List CtxId) :
    { (s.removeQueue c).modify c f with activeQueue := queue }.body = s.body :=
  (body_modify (s := s) h : (s.modify c f).body = s.body)

theorem body_addQueue (s : KHttp2) (c : CtxId) : (s.addQueue c).body = s.body :=
  s.body_requeue rfl _

theorem body_flushQueue (s : KHttp2) (c : CtxId) : (s.flushQueue c).body = s.body := by
  unfold flushQueue
  extract_lets s1
  split
  · exact s1.body_addQueue c
  · rfl

end KHttp2

end Khttpd
