import Khttpd.Analysis.Body
import Khttpd.Analysis.Calm

/-!
# What the handlers leave alone

Most handlers only move the parser along, besides calm steps on streams: they are `Quiet`. The
exceptions are few: a HEADERS or DATA frame takes hold of a stream, the end of a header block
starts a request, the end of a frame lets a stream go, SETTINGS and WINDOW_UPDATE move windows.
A handler that ends the connection is quiet up to its call of `close`.
-/

set_option autoImplicit false

namespace Khttpd

/-- The events of streams and windows of a trace. -/
def connTrace (trace : List Ev) : List Ev := trace.filter Ev.isConn

/-- An event of the parser is not one of streams and windows. -/
theorem connTrace_cons {e : Ev} (he : e.isConn = false) (trace : List Ev) :
    connTrace (e :: trace) = connTrace trace := by
  simp [connTrace, he]

/-- The events of streams and windows are counted events. -/
theorem connTrace_coreTrace (trace : List Ev) : connTrace (coreTrace trace) = connTrace trace := by
  simp only [connTrace, coreTrace, List.filter_filter]
  congr 1
  funext e
  cases h : e.isConn <;> simp [Ev.isCore, h]

/-- The fields of a connection that a quiet step keeps. -/
structure ConnView where
  streamsIndex : ℕ → List KHttp2Node
  nextCtx : ℕ
  stream : Option CtxId
  lastPeerSid : ℕ
  lastSelfSid : ℕ
  processing : ℤ
  sendWindow : ℕ
  initWindow : ℕ
  frameSize : ℕ
  clientModel : Bool
  owners : List CtxId
  deleted : Bool
  conn : List Ev

/-- The part of a connection that is about streams and windows. -/
def KHttp2.view (s : KHttp2) : ConnView where
  streamsIndex := s.streamsIndex
  nextCtx := s.nextCtx
  stream := s.state.stream
  lastPeerSid := s.lastPeerSid
  lastSelfSid := s.lastSelfSid
  processing := s.processing
  sendWindow := s.sendWindow
  initWindow := s.initWindow
  frameSize := s.frameSize
  clientModel := s.clientModel
  owners := s.owners
  deleted := s.deleted
  conn := connTrace s.trace

/-- A calm step as far as streams and windows go; the parser may move. -/
structure Quiet (s t : KHttp2) : Prop where
  view : t.view = s.view
  ctx : ∀ c, CtxCalm (s.ctx c) (t.ctx c)
  queue : ∀ c, (t.ctx c).waitsForWindow = true → (s.ctx c).rst = false →
    c ∈ s.activeQueue → c ∈ t.activeQueue
  reading : t.readProcessing = true → s.readProcessing = true

/-- The view of a connection is made of its fixed part. -/
theorem view_of_fixed {s t : KHttp2} (h : t.fixed = s.fixed) : t.view = s.view := by
  have hcore : coreTrace t.trace = coreTrace s.trace := congrArg Fixed.core h
  have hconn : connTrace t.trace = connTrace s.trace := by
    rw [← connTrace_coreTrace t.trace, hcore, connTrace_coreTrace]
  have hstream : t.state.stream = s.state.stream :=
    congrArg (fun f => f.state.stream) h
  simp only [KHttp2.view, ConnView.mk.injEq]
  exact ⟨congrArg Fixed.streamsIndex h, congrArg Fixed.nextCtx h, hstream,
    congrArg Fixed.lastPeerSid h, congrArg Fixed.lastSelfSid h, congrArg Fixed.processing h,
      congrArg Fixed.sendWindow h,
    congrArg Fixed.initWindow h, congrArg Fixed.frameSize h, congrArg Fixed.clientModel h,
    congrArg Fixed.owners h, congrArg Fixed.deleted h, hconn⟩

/-- A calm step is quiet. -/
theorem Calm.quiet {s t : KHttp2} (h : Calm s t) : Quiet s t :=
  ⟨view_of_fixed h.fixed, h.ctx, h.queue, h.reading⟩

namespace Quiet

variable {s t u : KHttp2}

/-- Doing nothing is quiet. -/
theorem refl (s : KHttp2) : Quiet s s := (Calm.refl s).quiet

/-- Two quiet steps are quiet. -/
theorem trans (hst : Quiet s t) (htu : Quiet t u) : Quiet s u where
  view := htu.view.trans hst.view
  ctx c := (hst.ctx c).trans (htu.ctx c)
  queue c hwaits hrst hmem := by
    have hwaits' := (htu.ctx c).waits hwaits
    have hrst' : (t.ctx c).rst = false := by
      refine Bool.eq_false_iff.mpr fun h => ?_
      rcases (hst.ctx c).running h with h | h
      · exact Bool.false_ne_true (hrst.symm.trans h)
      · exact Bool.false_ne_true (h.symm.trans hwaits')
    exact htu.queue c hwaits hrst' (hst.queue c hwaits' hrst hmem)
  reading h := hst.reading (htu.reading h)

/-- A step that changes neither the streams nor the queue is quiet when it keeps the view. -/
theorem of_view (hview : t.view = s.view) (hctx : t.ctx = s.ctx)
    (hqueue : t.activeQueue = s.activeQueue)
    (hreading : t.readProcessing = true → s.readProcessing = true) : Quiet s t where
  view := hview
  ctx c := by
    rw [hctx]
    exact .refl _
  queue c _ _ h := by
    rw [hqueue]
    exact h
  reading := hreading

theorem streamsIndex (h : Quiet s t) : t.streamsIndex = s.streamsIndex :=
  congrArg ConnView.streamsIndex h.view

theorem nextCtx (h : Quiet s t) : t.nextCtx = s.nextCtx := congrArg ConnView.nextCtx h.view

theorem stream (h : Quiet s t) : t.state.stream = s.state.stream :=
  congrArg ConnView.stream h.view

theorem lastPeerSid (h : Quiet s t) : t.lastPeerSid = s.lastPeerSid :=
  congrArg ConnView.lastPeerSid h.view

theorem lastSelfSid (h : Quiet s t) : t.lastSelfSid = s.lastSelfSid :=
  congrArg ConnView.lastSelfSid h.view

theorem processing (h : Quiet s t) : t.processing = s.processing :=
  congrArg ConnView.processing h.view

theorem sendWindow (h : Quiet s t) : t.sendWindow = s.sendWindow :=
  congrArg ConnView.sendWindow h.view

theorem initWindow (h : Quiet s t) : t.initWindow = s.initWindow :=
  congrArg ConnView.initWindow h.view

theorem frameSize (h : Quiet s t) : t.frameSize = s.frameSize :=
  congrArg ConnView.frameSize h.view

theorem clientModel (h : Quiet s t) : t.clientModel = s.clientModel :=
  congrArg ConnView.clientModel h.view

theorem owners (h : Quiet s t) : t.owners = s.owners := congrArg ConnView.owners h.view

theorem deleted (h : Quiet s t) : t.deleted = s.deleted := congrArg ConnView.deleted h.view

theorem conn (h : Quiet s t) : connTrace t.trace = connTrace s.trace :=
  congrArg ConnView.conn h.view

end Quiet

namespace KHttp2

/-- Moving the parser along is quiet as long as it holds on to its stream. -/
theorem quiet_setState (s : KHttp2) {f : ParserState → ParserState}
    (h : (f s.state).stream = s.state.stream) : Quiet s (s.setState f) :=
  .of_view (by simp [view, setState, h]) rfl rfl id

/-- Recording an event of the parser is quiet. -/
theorem quiet_log (s : KHttp2) {e : Ev} (he : e.isConn = false) : Quiet s (s.log e) :=
  .of_view (by simp only [view, log, connTrace_cons he]) rfl rfl id

/-- Assigning to a stream is quiet when it is calm for the stream. -/
theorem quiet_modify {s : KHttp2} {c : CtxId} {f : KHttp2Context → KHttp2Context}
    (h : CtxCalm (s.ctx c) (f (s.ctx c))) : Quiet s (s.modify c f) :=
  (calm_modify h).quiet

/-- A handler was quiet, up to `close` where it ends the connection. -/
def QuietOut (s : KHttp2) (r : KHttp2 × Ret) : Prop :=
  Quiet s r.1 ∨ ∃ t status, Quiet s t ∧ r = t.fail status

/-- A quiet step before a quiet handler. -/
theorem QuietOut.after {s t : KHttp2} {r : KHttp2 × Ret} (h : Quiet s t) (hr : QuietOut t r) :
    QuietOut s r := by
  rcases hr with hr | ⟨u, status, hu, hr⟩
  · exact Or.inl (h.trans hr)
  · exact Or.inr ⟨u, status, h.trans hu, hr⟩

/-- A quiet step that ends a handler. -/
theorem QuietOut.of_quiet {s t : KHttp2} {ret : Ret} (h : Quiet s t) : QuietOut s (t, ret) :=
  Or.inl h

/-- Nothing before the end of a handler. -/
theorem QuietOut.refl (s : KHttp2) (ret : Ret) : QuietOut s (s, ret) := Or.inl (.refl s)

/-- A handler that ends the connection at once. -/
theorem quietOut_fail (s : KHttp2) (status : ℕ) : QuietOut s (s.fail status) :=
  Or.inr ⟨s, status, .refl s, rfl⟩

/-! ## Steps of the parser alone -/

/-- A quiet step that readers and writers do not notice. -/
structure Still (s t : KHttp2) : Prop where
  quiet : Quiet s t
  body : t.body = s.body

theorem Still.refl (s : KHttp2) : Still s s := ⟨.refl s, rfl⟩

theorem Still.trans {s t u : KHttp2} (hst : Still s t) (htu : Still t u) : Still s u :=
  ⟨hst.quiet.trans htu.quiet, htu.body.trans hst.body⟩

theorem still_setState (s : KHttp2) {f : ParserState → ParserState}
    (h : (f s.state).stream = s.state.stream) : Still s (s.setState f) :=
  ⟨s.quiet_setState h, s.body_setState f⟩

theorem still_log (s : KHttp2) {e : Ev} (hconn : e.isConn = false) (hbody : e.isBody = false) :
    Still s (s.log e) :=
  ⟨s.quiet_log hconn, s.body_log hbody⟩

theorem still_modify {s : KHttp2} {c : CtxId} {f : KHttp2Context → KHttp2Context}
    (h : CtxCalm (s.ctx c) (f (s.ctx c))) (hpart : (f (s.ctx c)).part = (s.ctx c).part) :
    Still s (s.modify c f) :=
  ⟨quiet_modify h, body_modify hpart⟩

theorem still_setFault (s : KHttp2) : Still s s.setFault := ⟨s.calm_setFault.quiet, rfl⟩

/-- A handler only moved the parser, up to `close` where it ends the connection. -/
def StillOut (s : KHttp2) (r : KHttp2 × Ret) : Prop :=
  Still s r.1 ∨ ∃ t status, Still s t ∧ r = t.fail status

theorem StillOut.after {s t : KHttp2} {r : KHttp2 × Ret} (h : Still s t) (hr : StillOut t r) :
    StillOut s r := by
  rcases hr with hr | ⟨u, status, hu, hr⟩
  · exact Or.inl (h.trans hr)
  · exact Or.inr ⟨u, status, h.trans hu, hr⟩

theorem StillOut.of_still {s t : KHttp2} {ret : Ret} (h : Still s t) : StillOut s (t, ret) :=
  Or.inl h

theorem StillOut.refl (s : KHttp2) (ret : Ret) : StillOut s (s, ret) := Or.inl (.refl s)

theorem StillOut.quiet {s : KHttp2} {r : KHttp2 × Ret} (h : StillOut s r) : QuietOut s r :=
  h.imp Still.quiet fun ⟨t, status, ht, hr⟩ => ⟨t, status, ht.quiet, hr⟩

theorem stillOut_fail (s : KHttp2) (status : ℕ) : StillOut s (s.fail status) :=
  Or.inr ⟨s, status, .refl s, rfl⟩

/-- `state_save` only keeps input. -/
theorem stillOut_stateSave (s : KHttp2) (p : Bytes) (h : Handler) :
    StillOut s (s.stateSave p h) := by
  unfold stateSave
  split
  · exact s.stillOut_fail internalError
  · exact .refl s _

/-! ## Frame level -/

theorem stillOut_statePreface (s : KHttp2) (p : Bytes) : StillOut s (s.statePreface p) := by
  unfold statePreface
  split
  · exact s.stillOut_stateSave _ _
  · split
    · exact s.stillOut_fail _
    · exact .refl s _

theorem stillOut_statePrefaceEnd (s : KHttp2) (p : Bytes) : StillOut s (s.statePrefaceEnd p) := by
  unfold statePrefaceEnd
  split
  · exact s.stillOut_stateSave _ _
  · split
    · exact s.stillOut_fail _
    · exact .refl s _

theorem quietOut_stateHead (s : KHttp2) (p : Bytes) : QuietOut s (s.stateHead p) := by
  unfold stateHead
  split
  · exact (s.stillOut_stateSave _ _).quiet
  · extract_lets length type flags sid s1 s2 s3
    have h1 : Quiet s s1 := s.quiet_setState rfl
    have h2 : Quiet s1 s2 := s1.quiet_log rfl
    have h3 : Quiet s2 s3 := by
      dsimp only [s3]
      split
      · exact .refl s2
      · exact s2.calm_checkStreamTimeout.quiet
    exact .of_quiet (h1.trans (h2.trans h3))

theorem stillOut_stateSkip (s : KHttp2) (p : Bytes) : StillOut s (s.stateSkip p) := by
  unfold stateSkip
  split
  · exact .after (s.still_setState rfl) (stillOut_stateSave _ _ _)
  · exact .refl s _

theorem stillOut_stateSkipPadded (s : KHttp2) (p : Bytes) : StillOut s (s.stateSkipPadded p) :=
  .of_still (s.still_setState rfl)

theorem stillOut_endFrame (s : KHttp2) (p : Bytes) : StillOut s (s.endFrame p) := by
  unfold endFrame
  split
  · exact s.stillOut_stateSkipPadded p
  · exact .refl s _

/-! ## DATA -/

/-- Resuming a body reader is calm. -/
theorem calm_wakeReader (s : KHttp2) (c : CtxId) (fin : Bool) : Calm s (s.wakeReader c fin) := by
  unfold wakeReader
  split
  · exact .refl s
  · extract_lets s1
    have h1 : Calm s s1 := by
      refine Calm.trans (calm_modify ?_) (calm_flushQueue _ c)
      exact ⟨rfl, rfl, rfl, rfl, id, id, id, Or.inl, Or.inl⟩
    refine h1.trans ?_
    split
    · exact calm_onRead _ _ _ _
    · exact (s1.calm_copyReadBuffer c _).trans (calm_onRead _ _ _ _)

/-- Recording DATA bytes is quiet. -/
theorem quiet_logData (s : KHttp2) (c : CtxId) (bytes : Bytes) : Quiet s (s.logData c bytes) := by
  unfold logData
  split
  · rename_i c' old trace htrace
    split
    · refine .of_view ?_ rfl rfl id
      have hcons : connTrace (.data c (old ++ bytes) :: trace) = connTrace s.trace := by
        rw [htrace, connTrace_cons rfl, connTrace_cons rfl]
      simp only [view, hcons]
    · exact s.quiet_log rfl
  · exact s.quiet_log rfl

theorem quietOut_stateReadData (s : KHttp2) (p : Bytes) : QuietOut s (s.stateReadData p) := by
  unfold stateReadData
  split
  · exact (s.stillOut_stateSkipPadded p).quiet
  · rename_i c hstream
    extract_lets size bytes s3 s1 p1 s2
    have h1 : Quiet s s1 := by
      dsimp only [s1]
      split
      · exact .refl s
      · have h3 : Quiet s s3 := quiet_modify ⟨rfl, rfl, rfl, rfl, id, id, id, Or.inl, Or.inl⟩
        have h4 : Quiet s3 (s3.logData c (p.take size)) := s3.quiet_logData c _
        have h5 := ((s3.logData c (p.take size)).calm_wakeReader c false).quiet
        exact h3.trans (h4.trans (h5.trans (quiet_setState _ rfl)))
    refine .after h1 ?_
    split
    · exact (s1.stillOut_stateSave _ _).quiet
    · refine .after ?_ (s2.stillOut_endFrame p1).quiet
      dsimp only [s2]
      split
      · have h3 : Quiet s1 (s1.modify c fun ctx => { ctx with inClosed := true }) :=
          quiet_modify ⟨rfl, rfl, rfl, rfl, id, id, id, Or.inl, Or.inl⟩
        exact h3.trans ((quiet_log _ rfl).trans (calm_wakeReader _ c true).quiet)
      · exact .refl s1

/-- Recording END_STREAM is quiet. -/
theorem quiet_logEnd (s : KHttp2) (c : CtxId) (fin : Bool) : Quiet s (s.logEnd c fin) := by
  unfold logEnd
  split
  · exact s.quiet_log rfl
  · exact .refl s

/-! ## Header blocks -/

theorem stillOut_handleContinuation (s : KHttp2) (p : Bytes) (h : Handler) :
    StillOut s (s.handleContinuation p h) := by
  unfold handleContinuation
  extract_lets len skip s1 p1 head s2
  have h1 : Still s s1 := s.still_setState rfl
  refine .after h1 ?_
  split
  · exact s1.stillOut_stateSave p1 h
  · split
    · exact s1.stillOut_fail _
    · have h2 : Still s1 s2 := s1.still_setState rfl
      refine .after h2 ?_
      split
      · exact s2.stillOut_fail _
      · exact .refl s2 _

/-- Looking a header up is quiet. -/
theorem still_getIndexedHeader {s t : KHttp2} {index : ℕ} {nameOnly : Bool}
    (h : s.getIndexedHeader index nameOnly = some t) : Still s t := by
  unfold getIndexedHeader at h
  split at h
  · cases h
  · split at h
    · cases h
      exact s.still_setState rfl
    · extract_lets index' e s1 name value at h
      split at h
      · cases h
        have h1 : Still s s1 := by
          dsimp only [s1]
          split
          · exact s.still_setFault
          · exact .refl s
        exact h1.trans (s1.still_setState rfl)
      · cases h

theorem still_sinkParseHeader (s : KHttp2) (c : CtxId) (name value : Bytes) :
    Still s (s.sinkParseHeader c name value) := by
  refine still_modify ?_ ?_
  · split
    · split
      · exact .refl _
      · exact ⟨rfl, rfl, rfl, rfl, id, id, id, Or.inl, Or.inl⟩
    · split
      · exact ⟨rfl, rfl, rfl, rfl, id, id, id, Or.inl, Or.inl⟩
      · exact .refl _
  · split <;> split <;> rfl

theorem still_upstreamParseHeader (s : KHttp2) (c : CtxId) (name value : Bytes) :
    Still s (s.upstreamParseHeader c name value) := by
  refine still_modify ?_ ?_
  · split
    · exact ⟨rfl, rfl, rfl, rfl, id, id, id, Or.inl, Or.inl⟩
    · split
      · exact ⟨rfl, rfl, rfl, rfl, id, id, id, Or.inl, Or.inl⟩
      · exact .refl _
  · split
    · rfl
    · split <;> rfl

theorem still_addCookie (s : KHttp2) (c : CtxId) (value : Bytes) :
    Still s (s.addCookie c value) :=
  (still_modify ⟨rfl, rfl, rfl, rfl, id, id, id, Or.inl, Or.inl⟩ rfl).trans (still_log _ rfl rfl)

/-- Handing a pair to a stream is quiet. -/
theorem still_deliverHeader (s : KHttp2) : Still s s.deliverHeader := by
  unfold deliverHeader
  split
  · split
    · exact .refl s
    · split
      · exact s.still_addCookie _ _
      · extract_lets s1
        have h1 : Still s s1 := s.still_log rfl rfl
        refine h1.trans ?_
        split
        · exact still_upstreamParseHeader _ _ _ _
        · exact still_sinkParseHeader _ _ _ _
  · exact .refl s

/-- Inserting a pair in the dynamic table is quiet. -/
theorem still_insertHeader (s : KHttp2) : Still s s.insertHeader := by
  unfold insertHeader
  split
  · extract_lets name value
    have h1 : Still s { s with hpack := s.hpack.addHeader name value } :=
      ⟨.of_view rfl rfl rfl id, rfl⟩
    exact h1.trans ((still_log _ rfl rfl).trans (still_setState _ rfl))
  · exact .refl s

theorem stillOut_stateProcessHeader (s : KHttp2) (p : Bytes) :
    StillOut s (s.stateProcessHeader p) := by
  unfold stateProcessHeader
  extract_lets s1 s2 len s3
  split
  · have h1 : Still s s1 := s.still_setState rfl
    refine .after h1 ?_
    split
    · exact s1.stillOut_fail _
    · exact .refl s1 _
  · have h2 : Still s s2 := by
      dsimp only [s2]
      split
      · exact s.still_setState rfl
      · exact .refl s
    have h3 : Still s2 s3 := s2.still_setState rfl
    refine .after (h2.trans h3) ?_
    split
    · exact s3.stillOut_fail _
    · exact .of_still (s3.still_insertHeader.trans (still_deliverHeader _))

theorem stillOut_stateHeaderBlock (s : KHttp2) (p : Bytes) : StillOut s (s.stateHeaderBlock p) := by
  unfold stateHeaderBlock
  split
  · exact s.stillOut_stateSave _ _
  · split
    · exact s.stillOut_handleContinuation _ _
    · rename_i ch rest hcont
      extract_lets s1
      have h1 : Still s s1 := by
        dsimp only [s1]
        split
        · exact s.still_setState rfl
        · exact .refl s
      refine .after h1 ?_
      split
      · exact s1.stillOut_stateSave _ _
      · exact s1.stillOut_fail _
      · exact s1.stillOut_fail _
      · rename_i value used hvalue
        extract_lets s2 p1 named
        have h2 : Still s1 s2 := s1.still_setState rfl
        refine .after h2 ?_
        split
        · split
          · exact s2.stillOut_fail _
          · exact .of_still (still_getIndexedHeader ‹_›)
        · split
          · split
            · exact s2.stillOut_fail _
            · exact .of_still ⟨.of_view rfl rfl rfl id, rfl⟩
          · cases hnamed : named with
            | none => exact s2.stillOut_fail _
            | some s3 =>
              have h3 : Still s2 s3 := by
                dsimp only [named] at hnamed
                split at hnamed
                · cases hnamed
                  exact s2.still_setState rfl
                · exact still_getIndexedHeader hnamed
              exact .of_still (h3.trans (s3.still_setState rfl))

theorem stillOut_stateFieldLen (s : KHttp2) (p : Bytes) : StillOut s (s.stateFieldLen p) := by
  unfold stateFieldLen
  split
  · exact s.stillOut_handleContinuation _ _
  · split
    · exact s.stillOut_fail _
    · split
      · exact s.stillOut_stateSave _ _
      · split
        · exact s.stillOut_stateSave _ _
        · exact s.stillOut_fail _
        · exact s.stillOut_fail _
        · extract_lets s1 p1
          have h1 : Still s s1 := s.still_setState rfl
          refine .after h1 ?_
          split
          · exact .refl s1 _
          · split
            · exact .refl s1 _
            · exact .of_still (s1.still_setState rfl)

theorem stillOut_fieldNext (s : KHttp2) (p : Bytes) (h : Handler) :
    StillOut s (s.fieldNext p h) := by
  unfold fieldNext
  split
  · exact .refl s _
  · split
    · exact s.stillOut_stateSave _ _
    · split
      · exact s.stillOut_fail _
      · exact s.stillOut_handleContinuation _ _

theorem still_fieldTake (s : KHttp2) (size : ℕ) : Still s (s.fieldTake size) :=
  s.still_setState rfl

theorem stillOut_stateFieldHuff (codes : HuffDecodeCodes) (s : KHttp2) (p : Bytes) :
    StillOut s (s.stateFieldHuff codes p) := by
  unfold stateFieldHuff
  extract_lets size s1
  have h1 : Still s s1 := s.still_fieldTake size
  refine .after h1 ?_
  split
  · exact s1.stillOut_fail _
  · exact .after (s1.still_setState rfl) (stillOut_fieldNext _ _ _)

theorem stillOut_stateFieldRaw (s : KHttp2) (p : Bytes) : StillOut s (s.stateFieldRaw p) :=
  .after ((s.still_fieldTake _).trans (still_setState _ rfl)) (stillOut_fieldNext _ _ _)

theorem stillOut_stateFieldSkip (s : KHttp2) (p : Bytes) : StillOut s (s.stateFieldSkip p) :=
  .after (s.still_fieldTake _) (stillOut_fieldNext _ _ _)

/-! ## The other frames -/

theorem stillOut_statePriority (s : KHttp2) (p : Bytes) : StillOut s (s.statePriority p) := by
  unfold statePriority
  split
  · exact s.stillOut_fail _
  · split
    · exact s.stillOut_stateSave _ _
    · split
      · exact s.stillOut_fail _
      · exact .refl s _

theorem quietOut_stateRstStream (s : KHttp2) (p : Bytes) : QuietOut s (s.stateRstStream p) := by
  unfold stateRstStream
  split
  · exact s.quietOut_fail _
  · split
    · exact (s.stillOut_stateSave _ _).quiet
    · split
      · exact s.quietOut_fail _
      · split
        · exact .refl s _
        · rename_i c hnode
          have h1 := (s.calm_resetStream c).1
          refine .of_quiet (h1.quiet.trans (Quiet.trans (quiet_modify ?_)
            (calm_wakeReset _ _ _).quiet))
          exact ⟨rfl, rfl, rfl, rfl, id, id, id, Or.inl, Or.inl⟩

theorem quietOut_stateSettings (s : KHttp2) (p : Bytes) : QuietOut s (s.stateSettings p) := by
  unfold stateSettings
  split
  · split
    · exact s.quietOut_fail _
    · exact .refl s _
  · split
    · exact s.quietOut_fail _
    · exact .of_quiet s.calm_sendSettingsAck.quiet

theorem quietOut_statePing (s : KHttp2) (p : Bytes) : QuietOut s (s.statePing p) := by
  unfold statePing
  split
  · exact s.quietOut_fail _
  · split
    · exact (s.stillOut_stateSave _ _).quiet
    · split
      · exact .refl s _
      · refine .of_quiet (Calm.trans ?_ (calm_startWrite _)).quiet
        exact s.calm_pushGetFrame none 0 _ _ (Or.inl (by decide))

theorem stillOut_stateGoaway (s : KHttp2) (p : Bytes) : StillOut s (s.stateGoaway p) := by
  unfold stateGoaway
  split
  · exact s.stillOut_fail _
  · split
    · exact s.stillOut_stateSave _ _
    · exact .of_still ⟨.of_view rfl rfl rfl id, rfl⟩

theorem stillOut_stateAltsvc (s : KHttp2) (p : Bytes) : StillOut s (s.stateAltsvc p) := by
  unfold stateAltsvc
  split
  · exact s.stillOut_fail _
  · split
    · exact s.stillOut_stateSave _ _
    · exact .refl s _

/-! ## All quiet handlers -/

/-- The handlers that are not quiet. -/
def isSpecial : Handler → Bool
  | .stateData | .stateHeaders | .stateHeaderComplete | .stateSettingsParams
  | .stateWindowUpdate | .stateComplete => true
  | _ => false

/-- Every other handler is quiet. -/
theorem quietOut_exec (codes : HuffDecodeCodes) {h : Handler} (hh : isSpecial h = false)
    (s : KHttp2) (p : Bytes) : QuietOut s (exec codes h s p) := by
  cases h with
  | statePreface => exact (s.stillOut_statePreface p).quiet
  | statePrefaceEnd => exact (s.stillOut_statePrefaceEnd p).quiet
  | stateHead => exact s.quietOut_stateHead p
  | stateReadData => exact s.quietOut_stateReadData p
  | stateHeaderBlock => exact (s.stillOut_stateHeaderBlock p).quiet
  | stateProcessHeader => exact (s.stillOut_stateProcessHeader p).quiet
  | stateFieldLen => exact (s.stillOut_stateFieldLen p).quiet
  | stateFieldHuff => exact (s.stillOut_stateFieldHuff codes p).quiet
  | stateFieldRaw => exact (s.stillOut_stateFieldRaw p).quiet
  | stateFieldSkip => exact (s.stillOut_stateFieldSkip p).quiet
  | statePriority => exact (s.stillOut_statePriority p).quiet
  | stateRstStream => exact s.quietOut_stateRstStream p
  | stateSettings => exact s.quietOut_stateSettings p
  | statePushPromise => exact .refl s _
  | statePing => exact s.quietOut_statePing p
  | stateGoaway => exact (s.stillOut_stateGoaway p).quiet
  | stateContinuation => exact s.quietOut_fail _
  | stateAltsvc => exact (s.stillOut_stateAltsvc p).quiet
  | stateSkip => exact (s.stillOut_stateSkip p).quiet
  | stateData | stateHeaders | stateHeaderComplete | stateSettingsParams | stateWindowUpdate
  | stateComplete => cases hh

end KHttp2

end Khttpd
