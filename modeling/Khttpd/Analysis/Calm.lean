import Mathlib.Data.List.Basic
import Khttpd.Model.Run

/-!
# What the operations on streams leave alone

Most members of `KHttp2` queue frames, resume fibers and close streams. `Calm` says once what
such a step cannot do: it moves no window, inserts or removes no node, does not touch the parser
or the HPACK table, records none of the events that are counted below, gives no stream a writer
that waits for window, and takes no such writer off the queue unless its wait is over.
-/

set_option autoImplicit false

namespace Khttpd

/-! ## The fixed part of a state -/

/-- The events of the parser that the results below count. -/
def Ev.isParse : Ev → Bool
  | .frameHead .. | .parseHeader .. | .addCookie .. | .cookieHeader .. | .addHeader ..
  | .headerSuccess _ => true
  | _ => false

/-- The events of streams and windows that the results below count. A DATA frame without payload
needs no window and is not one of them. -/
def Ev.isConn : Ev → Bool
  | .openNode .. | .startFiber .. | .releaseAdmin _ | .destroyNode .. | .windowUpdate ..
    | .setting .. => true
  | .queued frame => frame.type = dataFrame && 0 < frame.length
  | _ => false

/-- The events that the results below count. -/
def Ev.isCore (e : Ev) : Bool := e.isParse || e.isConn

/-- The counted events of a trace. -/
def coreTrace (trace : List Ev) : List Ev := trace.filter Ev.isCore

/-- An event that is not counted leaves the counted events as they are. -/
theorem coreTrace_cons {e : Ev} (he : e.isCore = false) (trace : List Ev) :
    coreTrace (e :: trace) = coreTrace trace := by
  simp [coreTrace, he]

/-- A counted event is the latest of them. -/
theorem coreTrace_cons_core {e : Ev} (he : e.isCore = true) (trace : List Ev) :
    coreTrace (e :: trace) = e :: coreTrace trace := by
  simp [coreTrace, he]

/-- The fields of a connection that a calm step keeps. -/
structure Fixed where
  streamsIndex : ℕ → List KHttp2Node
  nextCtx : ℕ
  state : ParserState
  hpack : Hpack
  lastPeerSid : ℕ
  lastSelfSid : ℕ
  processing : ℤ
  sendWindow : ℕ
  initWindow : ℕ
  frameSize : ℕ
  clientModel : Bool
  owners : List CtxId
  pooled : List CtxId
  deleted : Bool
  core : List Ev

/-- The fixed part of a connection. -/
def KHttp2.fixed (s : KHttp2) : Fixed where
  streamsIndex := s.streamsIndex
  nextCtx := s.nextCtx
  state := s.state
  hpack := s.hpack
  lastPeerSid := s.lastPeerSid
  lastSelfSid := s.lastSelfSid
  processing := s.processing
  sendWindow := s.sendWindow
  initWindow := s.initWindow
  frameSize := s.frameSize
  clientModel := s.clientModel
  owners := s.owners
  pooled := s.pooled
  deleted := s.deleted
  core := coreTrace s.trace

/-- What a calm step can do to one stream. -/
structure CtxCalm (old new : KHttp2Context) : Prop where
  node : new.node = old.node
  parsedHeader : new.parsedHeader = old.parsedHeader
  destroyByHttp2 : new.destroyByHttp2 = old.destroyByHttp2
  sendWindow : new.sendWindow = old.sendWindow
  outClosed : old.outClosed = true → new.outClosed = true
  rst : old.rst = true → new.rst = true
  waits : new.waitsForWindow = true → old.waitsForWindow = true
  running : new.rst = true → old.rst = true ∨ new.waitsForWindow = false
  halted : new.rst = true → old.rst = true ∨ new.outClosed = true

namespace CtxCalm

/-- Nothing happened to the stream. -/
theorem refl (ctx : KHttp2Context) : CtxCalm ctx ctx :=
  ⟨rfl, rfl, rfl, rfl, id, id, id, Or.inl, Or.inl⟩

/-- Two calm steps are calm. -/
theorem trans {a b c : KHttp2Context} (hab : CtxCalm a b) (hbc : CtxCalm b c) : CtxCalm a c where
  node := hbc.node.trans hab.node
  parsedHeader := hbc.parsedHeader.trans hab.parsedHeader
  destroyByHttp2 := hbc.destroyByHttp2.trans hab.destroyByHttp2
  sendWindow := hbc.sendWindow.trans hab.sendWindow
  outClosed h := hbc.outClosed (hab.outClosed h)
  rst h := hbc.rst (hab.rst h)
  waits h := hab.waits (hbc.waits h)
  running h := by
    rcases hbc.running h with hb | hc
    · rcases hab.running hb with ha | hb'
      · exact Or.inl ha
      · refine Or.inr (Bool.eq_false_iff.mpr fun hc => ?_)
        exact Bool.false_ne_true (hb'.symm.trans (hbc.waits hc))
    · exact Or.inr hc
  halted h := by
    rcases hbc.halted h with hb | hc
    · exact (hab.halted hb).imp id hbc.outClosed
    · exact Or.inr hc

end CtxCalm

/-- What a calm step can do to a connection. -/
structure Calm (s t : KHttp2) : Prop where
  fixed : t.fixed = s.fixed
  ctx : ∀ c, CtxCalm (s.ctx c) (t.ctx c)
  queue : ∀ c, (t.ctx c).waitsForWindow = true → (s.ctx c).rst = false →
    c ∈ s.activeQueue → c ∈ t.activeQueue
  reading : t.readProcessing = true → s.readProcessing = true

namespace Calm

variable {s t u : KHttp2}

/-- Doing nothing is calm. -/
theorem refl (s : KHttp2) : Calm s s :=
  ⟨rfl, fun c => .refl (s.ctx c), fun _ _ _ h => h, id⟩

/-- Two calm steps are calm. -/
theorem trans (hst : Calm s t) (htu : Calm t u) : Calm s u where
  fixed := htu.fixed.trans hst.fixed
  ctx c := (hst.ctx c).trans (htu.ctx c)
  queue c hwaits hrst hmem := by
    have hwaits' := (htu.ctx c).waits hwaits
    have hrst' : (t.ctx c).rst = false := by
      refine Bool.eq_false_iff.mpr fun h => ?_
      rcases (hst.ctx c).running h with h | h
      · exact Bool.false_ne_true (hrst.symm.trans h)
      · exact Bool.false_ne_true (h.symm.trans hwaits')
    exact htu.queue c hwaits hrst' (hst.queue c hwaits' hrst hmem)
  reading h := hst.reading (htu.reading h)

/-- A step that changes neither the streams nor the queue is calm when it keeps the fixed
part. -/
theorem of_fields (hfixed : t.fixed = s.fixed) (hctx : t.ctx = s.ctx)
    (hqueue : t.activeQueue = s.activeQueue)
    (hreading : t.readProcessing = true → s.readProcessing = true) : Calm s t where
  fixed := hfixed
  ctx c := by
    rw [hctx]
    exact .refl _
  queue c _ _ h := by
    rw [hqueue]
    exact h
  reading := hreading

theorem streamsIndex (h : Calm s t) : t.streamsIndex = s.streamsIndex :=
  congrArg Fixed.streamsIndex h.fixed

theorem nextCtx (h : Calm s t) : t.nextCtx = s.nextCtx := congrArg Fixed.nextCtx h.fixed

theorem state (h : Calm s t) : t.state = s.state := congrArg Fixed.state h.fixed

theorem hpack (h : Calm s t) : t.hpack = s.hpack := congrArg Fixed.hpack h.fixed

theorem processing (h : Calm s t) : t.processing = s.processing :=
  congrArg Fixed.processing h.fixed

theorem sendWindow (h : Calm s t) : t.sendWindow = s.sendWindow :=
  congrArg Fixed.sendWindow h.fixed

theorem initWindow (h : Calm s t) : t.initWindow = s.initWindow :=
  congrArg Fixed.initWindow h.fixed

theorem frameSize (h : Calm s t) : t.frameSize = s.frameSize :=
  congrArg Fixed.frameSize h.fixed

theorem clientModel (h : Calm s t) : t.clientModel = s.clientModel :=
  congrArg Fixed.clientModel h.fixed

theorem owners (h : Calm s t) : t.owners = s.owners := congrArg Fixed.owners h.fixed

theorem pooled (h : Calm s t) : t.pooled = s.pooled := congrArg Fixed.pooled h.fixed

theorem deleted (h : Calm s t) : t.deleted = s.deleted := congrArg Fixed.deleted h.fixed

theorem core (h : Calm s t) : coreTrace t.trace = coreTrace s.trace :=
  congrArg Fixed.core h.fixed

end Calm

namespace KHttp2

/-! ## Small updates -/

/-- Assigning to a stream is calm when it is calm for the stream. -/
theorem calm_modify {s : KHttp2} {c : CtxId} {f : KHttp2Context → KHttp2Context}
    (h : CtxCalm (s.ctx c) (f (s.ctx c))) : Calm s (s.modify c f) where
  fixed := rfl
  ctx c' := by
    by_cases hc : c' = c
    · subst hc
      simpa [modify] using h
    · simp only [modify, Function.update_of_ne hc]
      exact .refl _
  queue _ _ _ hmem := hmem
  reading := id

/-- Recording an event that is not counted is calm. -/
theorem calm_log (s : KHttp2) {e : Ev} (he : e.isCore = false) : Calm s (s.log e) :=
  .of_fields (by simp only [fixed, log, coreTrace_cons he]) rfl rfl id

/-- A fault is calm. -/
theorem calm_setFault (s : KHttp2) : Calm s s.setFault := .of_fields rfl rfl rfl id

/-- A fold of calm steps is calm. -/
theorem calm_foldl {α : Type} {f : KHttp2 → α → KHttp2} (hf : ∀ s a, Calm s (f s a))
    (l : List α) (s : KHttp2) : Calm s (l.foldl f s) := by
  induction l generalizing s with
  | nil => exact .refl s
  | cons a l ih => exact (hf s a).trans (ih (f s a))

/-- Taking a stream off the queue is calm when no writer of it waits. -/
theorem calm_removeQueue {s : KHttp2} {c : CtxId}
    (hc : (s.ctx c).waitsForWindow = false ∨ (s.ctx c).rst = true) :
    Calm s (s.removeQueue c) where
  fixed := rfl
  ctx c' := .refl _
  queue c' hwaits hrst hmem := by
    have hne : c' ≠ c := by
      rintro rfl
      rcases hc with h | h
      · exact Bool.false_ne_true (h.symm.trans hwaits)
      · exact Bool.false_ne_true (hrst.symm.trans h)
    exact (List.mem_erase_of_ne hne).mpr hmem
  reading := id

/-- Moving a stream to the end of the queue is calm. -/
theorem calm_requeue (s : KHttp2) (c : CtxId) (f : KHttp2Context → KHttp2Context)
    (h : CtxCalm (s.ctx c) (f (s.ctx c))) :
    Calm s { (s.removeQueue c).modify c f with
      activeQueue := (s.removeQueue c).activeQueue ++ [c] } where
  fixed := rfl
  ctx := (calm_modify (s := s) h).ctx
  queue c' _ _ hmem := by
    by_cases hc : c' = c
    · simp [hc]
    · exact List.mem_append_left _ ((List.mem_erase_of_ne hc).mpr hmem)
  reading := id

/-- `AddQueue` is calm. -/
theorem calm_addQueue (s : KHttp2) (c : CtxId) : Calm s (s.addQueue c) :=
  s.calm_requeue c _ ⟨rfl, rfl, rfl, rfl, id, id, id, Or.inl, Or.inl⟩

/-- `FlushQueue` is calm. -/
theorem calm_flushQueue (s : KHttp2) (c : CtxId) : Calm s (s.flushQueue c) := by
  have hctx : (s.removeQueue c).ctx = s.ctx := rfl
  by_cases h : (s.ctx c).readWait.isSome || (s.ctx c).waitsForWindow
  · simp only [flushQueue, hctx, if_pos h]
    have hadd := (s.removeQueue c).calm_addQueue c
    refine ⟨hadd.fixed, hadd.ctx, fun c' hwaits hrst hmem => ?_, id⟩
    by_cases hc : c' = c
    · simp [addQueue, hc]
    · exact hadd.queue c' hwaits hrst ((List.mem_erase_of_ne hc).mpr hmem)
  · simp only [flushQueue, hctx, if_neg h]
    simp only [Bool.or_eq_true, not_or, Bool.not_eq_true] at h
    exact calm_removeQueue (Or.inl h.2)

/-! ## Queueing frames -/

/-- `start_write` is calm. -/
theorem calm_startWrite (s : KHttp2) : Calm s s.startWrite := by
  unfold startWrite
  split
  · exact .refl s
  · exact .of_fields rfl rfl rfl id

/-- Queueing a frame is calm unless it is a DATA frame with payload. -/
theorem calm_pushFrame (s : KHttp2) {frame : QueuedFrame} (bufs : List Http2Buff)
    (h : frame.type ≠ dataFrame ∨ frame.length = 0) : Calm s (s.pushFrame frame bufs) := by
  have hcore : (Ev.queued frame).isCore = false := by
    rcases h with h | h <;> simp [Ev.isCore, Ev.isParse, Ev.isConn, h]
  exact .of_fields (by simp only [fixed, pushFrame, log, coreTrace_cons hcore]) rfl rfl id

/-- Queueing a frame of `get_frame` is calm unless it is a DATA frame with payload. -/
theorem calm_pushGetFrame (s : KHttp2) (c : Option CtxId) (sid : ℕ) {payload : Bytes} {type : ℕ}
    (flags : UInt8) (nodelay : Bool) (h : type ≠ dataFrame ∨ payload = []) :
    Calm s (s.pushGetFrame c sid payload type flags nodelay) :=
  s.calm_pushFrame _ (h.imp id (congrArg List.length))

/-- `send_rst_stream` is calm. -/
theorem calm_sendRstStream (s : KHttp2) (c : Option CtxId) (sid status : ℕ) :
    Calm s (s.sendRstStream c sid status) :=
  (s.calm_pushGetFrame c sid 0 true (Or.inl (by decide))).trans (calm_startWrite _)

/-- `send_window_update` is calm. -/
theorem calm_sendWindowUpdate (s : KHttp2) (c : Option CtxId) (sid window : ℕ) :
    Calm s (s.sendWindowUpdate c sid window).1 := by
  unfold sendWindowUpdate
  split
  · exact .refl s
  · have hlog : Calm s (s.log (.windowUpdateSent c window)) := s.calm_log rfl
    exact hlog.trans (calm_pushGetFrame _ c sid 0 true (Or.inl (by decide)))

/-- `send_settings_ack` is calm. -/
theorem calm_sendSettingsAck (s : KHttp2) : Calm s s.sendSettingsAck :=
  (s.calm_pushGetFrame none 0 ackFlag false (Or.inl (by decide))).trans (calm_startWrite _)

/-- `send_settings` is calm. -/
theorem calm_sendSettings (s : KHttp2) : Calm s s.sendSettings :=
  (s.calm_pushGetFrame none 0 0 false (Or.inl (by decide))).trans (calm_startWrite _)

/-- `goaway` is calm. -/
theorem calm_goaway (s : KHttp2) (errorCode : ℕ) : Calm s (s.goaway errorCode) := by
  have hself : Calm s { s with selfGoaway := true } := .of_fields rfl rfl rfl id
  refine hself.trans (Calm.trans (calm_pushGetFrame _ none 0 0 true (Or.inl ?_))
    (calm_startWrite _))
  decide

/-- An empty DATA frame is calm. -/
theorem calm_pushEmptyData (s : KHttp2) (c : CtxId) (flags : UInt8) :
    Calm s (s.pushEmptyData c flags) := by
  unfold pushEmptyData
  split
  · exact s.calm_setFault.trans (calm_pushGetFrame _ _ _ _ _ (Or.inr rfl))
  · exact calm_pushGetFrame _ _ _ _ _ (Or.inr rfl)

/-! ## Resuming fibers -/

/-- Resuming a reader is calm. -/
theorem calm_onRead (s : KHttp2) (c : CtxId) (e : Option ReadEvent) (got : ℤ) :
    Calm s (s.onRead c e got) := by
  unfold onRead
  split
  · exact s.calm_log rfl
  · exact .refl s

/-- Resuming a writer is calm. -/
theorem calm_onWrite (s : KHttp2) (c : CtxId) (e : Option WriteEvent) (got : ℤ) :
    Calm s (s.onWrite c e got) := by
  unfold onWrite
  split
  · split
    · exact s.calm_log rfl
    · exact s.calm_log rfl
  · exact .refl s

/-! ## Resetting streams -/

/-- An event that is being written does not wait for window. -/
theorem waitsForWindow_filter_forWriting (ctx : KHttp2Context) (e : Option WriteEvent) :
    { ctx with writeWait := e.filter WriteEvent.forWriting }.waitsForWindow = false := by
  cases e with
  | none => rfl
  | some e =>
    by_cases h : e.forWriting
    · have hlen : ¬e.len < 0 := by
        simp only [WriteEvent.forWriting, Bool.and_eq_true, decide_eq_true_eq] at h
        omega
      simp [KHttp2Context.waitsForWindow, Option.filter, h, WriteEvent.forWindow, hlen]
    · simp [KHttp2Context.waitsForWindow, Option.filter, h]

/-- A reset is calm, and leaves no writer that waits for window. -/
theorem calm_resetStream (s : KHttp2) (c : CtxId) :
    Calm s (s.resetStream c) ∧ ((s.resetStream c).ctx c).waitsForWindow = false := by
  have hwaits : ((s.resetStream c).ctx c).waitsForWindow = false := by
    simp only [resetStream, removeQueue, log, modify, Function.update_self]
    exact waitsForWindow_filter_forWriting { s.ctx c with
      inClosed := true, outClosed := true, rst := true, readWait := none } _
  refine ⟨?_, hwaits⟩
  unfold resetStream
  refine Calm.trans (Calm.trans (calm_modify ?_) (calm_log _ rfl)) (calm_removeQueue ?_)
  · have hnone := waitsForWindow_filter_forWriting { s.ctx c with
      inClosed := true, outClosed := true, rst := true, readWait := none } (s.ctx c).writeWait
    refine ⟨rfl, rfl, rfl, rfl, fun _ => rfl, fun _ => rfl, fun h => ?_, fun _ => Or.inr hnone,
      fun _ => Or.inr rfl⟩
    exact absurd (h.symm.trans hnone) Bool.noConfusion
  · exact Or.inl hwaits

/-- Resuming the fibers of a reset stream is calm. -/
theorem calm_wakeReset (s : KHttp2) (c : CtxId) (ctx : KHttp2Context) :
    Calm s (s.wakeReset c ctx) :=
  (s.calm_onRead c _ _).trans (calm_onWrite _ c _ _)

/-- `terminate_stream` is calm. -/
theorem calm_terminateStream (s : KHttp2) (c : CtxId) (status : ℕ) :
    Calm s (s.terminateStream c status).1 := by
  simp only [terminateStream]
  refine (s.calm_resetStream c).1.trans (Calm.trans ?_ (calm_wakeReset _ c _))
  split
  · exact calm_sendRstStream _ _ _ _
  · exact .refl _

/-- `shutdown` is calm. -/
theorem calm_shutdown (s : KHttp2) (c : CtxId) : Calm s (s.shutdown c) := by
  unfold shutdown
  split
  · exact .refl s
  · exact s.calm_terminateStream c cancel

/-- A stream that was shut down has no writer that waits for window unless it was reset
before. -/
theorem waits_shutdown (s : KHttp2) (c : CtxId) :
    ((s.shutdown c).ctx c).waitsForWindow = false ∨ (s.ctx c).rst = true := by
  unfold shutdown
  split
  · exact Or.inr ‹_›
  · refine Or.inl ?_
    simp only [terminateStream]
    have hreset := (s.calm_resetStream c).2
    refine Bool.eq_false_iff.mpr fun h => Bool.false_ne_true (hreset.symm.trans ?_)
    refine CtxCalm.waits ?_ h
    refine Calm.ctx (Calm.trans ?_ (calm_wakeReset _ c _)) c
    split
    · exact calm_sendRstStream _ _ _ _
    · exact .refl _

/-- `check_stream_timeout` is calm. -/
theorem calm_checkStreamTimeoutLoop (queue : List CtxId) (s : KHttp2) :
    Calm s (checkStreamTimeoutLoop queue s) := by
  induction queue generalizing s with
  | nil => exact .refl s
  | cons c queue ih =>
    unfold checkStreamTimeoutLoop
    split
    · exact .refl s
    · refine Calm.trans ?_ (ih _)
      split
      · exact s.calm_requeue c _ ⟨rfl, rfl, rfl, rfl, id, id, id, Or.inl, Or.inl⟩
      · -- off the queue first, but then reset
        have hshut := (s.removeQueue c).calm_shutdown c
        refine ⟨hshut.fixed, hshut.ctx, fun c' hwaits hrst hmem => ?_, hshut.reading⟩
        refine hshut.queue c' hwaits hrst ((List.mem_erase_of_ne ?_).mpr hmem)
        rintro rfl
        rcases (s.removeQueue c').waits_shutdown c' with h | h
        · exact Bool.false_ne_true (h.symm.trans hwaits)
        · exact Bool.false_ne_true (hrst.symm.trans h)

@[inherit_doc calm_checkStreamTimeoutLoop]
theorem calm_checkStreamTimeout (s : KHttp2) : Calm s s.checkStreamTimeout :=
  calm_checkStreamTimeoutLoop _ s

/-! ## Closing -/

/-- Removing a buffer is calm. -/
theorem calm_cleanBuff (fin : Bool) (s : KHttp2) (b : Http2Buff) : Calm s (cleanBuff fin s b) := by
  unfold cleanBuff
  split
  · exact .refl s
  · refine Calm.trans (calm_modify ?_) (calm_onWrite _ _ _ _)
    exact ⟨rfl, rfl, rfl, rfl, id, id, fun h => Bool.noConfusion h,
      fun _ => Or.inr rfl, Or.inl⟩

/-- Removing buffers is calm. -/
theorem calm_removeBuff (s : KHttp2) (bufs : List Http2Buff) (fin : Bool) :
    Calm s (s.removeBuff bufs fin) :=
  calm_foldl (calm_cleanBuff fin) bufs s

/-- Closing the stream of a node is calm. -/
theorem calm_closeNode (s : KHttp2) (n : KHttp2Node) : Calm s (s.closeNode n) :=
  (s.calm_resetStream n.stream).1.trans (calm_wakeReset _ _ _)

/-- `close` is calm up to the test whether the connection can go. -/
theorem calm_closeStreams (s : KHttp2) (read : Bool) (status : ℕ) :
    Calm s (s.closeStreams read status) := by
  unfold closeStreams
  extract_lets s1 taken s2 s3 s4 s5
  have h1 : Calm s s1 := s.calm_log rfl
  have h2 : Calm s1 s2 := .of_fields rfl rfl rfl id
  have h3 : Calm s2 s3 := calm_foldl calm_closeNode _ _
  have h4 : Calm s3 s4 := calm_removeBuff _ _ _
  have h5 : Calm s4 s5 := .of_fields rfl rfl rfl id
  have h : Calm s s5 := h1.trans (h2.trans (h3.trans (h4.trans h5)))
  refine h.trans ?_
  cases read
  · exact .of_fields rfl rfl rfl id
  · exact .of_fields rfl rfl rfl (fun h => Bool.noConfusion h)

/-! ## Reading -/

/-- `check_recv_window` is calm. -/
theorem calm_checkRecvWindow (s : KHttp2) (c : CtxId) : Calm s (s.checkRecvWindow c).1 := by
  simp only [checkRecvWindow]
  split
  · exact .refl s
  · split
    · dsimp only
      refine Calm.trans (s.calm_sendWindowUpdate _ _ _) (calm_modify ?_)
      exact ⟨rfl, rfl, rfl, rfl, id, id, id, Or.inl, Or.inl⟩
    · exact .refl s

/-- `copy_read_buffer` is calm. -/
theorem calm_copyReadBuffer (s : KHttp2) (c : CtxId) (length : ℕ) :
    Calm s (s.copyReadBuffer c length).1 := by
  simp only [copyReadBuffer]
  refine Calm.trans (calm_modify ?_) (calm_log _ rfl)
  exact ⟨rfl, rfl, rfl, rfl, id, id, id, Or.inl, Or.inl⟩

/-- Taking a `readhup` off a stream gives it no writer that waits for window. -/
theorem ctxCalm_filter_writeWait (ctx : KHttp2Context) (p : WriteEvent → Bool) :
    CtxCalm ctx { ctx with writeWait := ctx.writeWait.filter p } := by
  refine ⟨rfl, rfl, rfl, rfl, id, id, fun h => ?_, Or.inl, Or.inl⟩
  cases hw : ctx.writeWait with
  | none => simp [KHttp2Context.waitsForWindow, hw] at h
  | some e =>
    simp only [KHttp2Context.waitsForWindow, hw, Option.filter] at h ⊢
    split at h
    · exact h
    · exact absurd h Bool.false_ne_true

/-- `KHttp2::read` is calm. -/
theorem calm_read (s : KHttp2) (c : CtxId) (len : ℕ) : Calm s (s.read c len).1 := by
  unfold read
  extract_lets s1 ctx s2 r s3
  have h1 : Calm s s1 := calm_modify (ctxCalm_filter_writeWait _ _)
  have h2 : Calm s1 s2 := by
    dsimp only [s2]
    split
    · refine Calm.trans (calm_modify ?_) (calm_pushEmptyData _ _ _)
      exact ⟨rfl, rfl, rfl, rfl, fun _ => rfl, id, id, Or.inl, Or.inl⟩
    · exact .refl s1
  have hr : Calm s2 r.1 := s2.calm_checkRecvWindow c
  have h3 : Calm r.1 s3 := by
    dsimp only [s3]
    split
    · exact calm_startWrite _
    · exact .refl _
  refine (h1.trans (h2.trans (hr.trans h3))).trans ?_
  split
  · exact (s3.calm_copyReadBuffer c len).trans (calm_log _ rfl)
  · split
    · exact s3.calm_log rfl
    · split
      · exact s3.calm_log rfl
      · refine Calm.trans (calm_modify ?_) (calm_addQueue _ c)
        exact ⟨rfl, rfl, rfl, rfl, id, id, id, Or.inl, Or.inl⟩

/-- `ReadHeader` is calm. -/
theorem calm_readHeader (s : KHttp2) (c : CtxId) : Calm s (s.readHeader c).1 := by
  unfold readHeader
  split
  · exact .refl s
  · split
    · exact .refl s
    · refine Calm.trans (calm_modify ?_) (calm_addQueue _ c)
      exact ⟨rfl, rfl, rfl, rfl, id, id, id, Or.inl, Or.inl⟩

/-- `readhup` is calm. -/
theorem calm_readhup (s : KHttp2) (c : CtxId) : Calm s (s.readhup c).1 := by
  simp only [readhup]
  split
  · exact .refl s
  · dsimp only
    refine calm_modify ⟨rfl, rfl, rfl, rfl, id, id, fun h => ?_, Or.inl, Or.inl⟩
    simp [KHttp2Context.waitsForWindow, WriteEvent.forWindow] at h

/-- `remove_readhup` is calm. -/
theorem calm_removeReadhup (s : KHttp2) (c : CtxId) : Calm s (s.removeReadhup c) :=
  calm_modify (ctxCalm_filter_writeWait _ _)

/-- `send_altsvc` is calm. -/
theorem calm_sendAltsvc (s : KHttp2) (c : CtxId) (val : Bytes) :
    Calm s (s.sendAltsvc c val).1 := by
  unfold sendAltsvc
  split
  · exact .refl s
  · exact (s.calm_pushGetFrame _ _ 0 false (Or.inl (by decide))).trans (calm_startWrite _)

/-! ## Sending headers -/

/-- `send_header` is calm for a stream that has its node, and on the server. -/
theorem calm_sendHeader (s : KHttp2) (c : CtxId) (bodyEnd : Bool)
    (h : s.clientModel = false ∨ (s.ctx c).node.isSome) : Calm s (s.sendHeader c bodyEnd) := by
  have hnode : ¬(s.clientModel && (s.ctx c).node.isNone) := by
    rcases h with h | h
    · simp [h]
    · simp [Option.isNone_iff_eq_none, Option.isSome_iff_ne_none.mp h]
  unfold sendHeader
  split
  · exact .refl s
  · dsimp only
    split
    · refine Calm.trans (calm_modify ?_) (Calm.trans (calm_pushFrame _ _ ?_) (calm_startWrite _))
      · exact ⟨rfl, rfl, rfl, rfl, fun h => by simp [h], id, id, Or.inl, Or.inl⟩
      · exact Or.inl Nat.one_ne_zero
    · exact s.calm_setFault

/-- `write_end` is calm for a stream that has its node, and on the server. -/
theorem calm_writeEnd (s : KHttp2) (c : CtxId)
    (h : s.clientModel = false ∨ (s.ctx c).node.isSome) : Calm s (s.writeEnd c) := by
  unfold writeEnd
  split
  · exact .refl s
  · split
    · have hset : Calm s (s.modify c fun ctx => ctx.setContentLength 0) :=
        calm_modify ⟨rfl, rfl, rfl, rfl, id, id, id, Or.inl, Or.inl⟩
      refine hset.trans (calm_sendHeader _ c true ?_)
      rw [hset.clientModel, (hset.ctx c).node]
      exact h
    · extract_lets trailer s1
      have hpush : Calm s s1 := s.calm_pushEmptyData c _
      refine hpush.trans ?_
      split
      · refine calm_sendHeader _ c true ?_
        rw [hpush.clientModel, (hpush.ctx c).node]
        exact h
      · refine Calm.trans (calm_modify ?_) (calm_startWrite _)
        exact ⟨rfl, rfl, rfl, rfl, fun _ => rfl, id, id, Or.inl, Or.inl⟩

/-- `ping` is calm. -/
theorem calm_ping (s : KHttp2) : Calm s s.ping := by
  unfold ping
  split
  · exact .refl s
  · refine s.calm_checkStreamTimeout.trans (Calm.trans ?_
      ((calm_pushGetFrame _ none 0 0 true (Or.inl (by decide))).trans (calm_startWrite _)))
    exact .of_fields rfl rfl rfl id

/-- A read time-out is calm. -/
theorem calm_onReadTimeOut (s : KHttp2) : Calm s s.onReadTimeOut := by
  unfold onReadTimeOut
  split
  · exact .refl s
  · exact s.calm_ping

end KHttp2

end Khttpd
