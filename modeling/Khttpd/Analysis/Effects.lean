import Khttpd.Analysis.Steps

/-!
# What a connection does to readers and writers

Every step of a connection is a sequence of effects on its readers and writers. Most of what a
step does leaves the `Body` of the connection as it is: the parser, the header table and the
queue of waiting streams are not part of it. `Effect` lists the rest with what holds when it
happens, so that an invariant of readers and writers is proved once for each.
-/

set_option autoImplicit false

namespace Khttpd

/-- A fiber waits in `read`. -/
def KHttp2Context.bodyReader (ctx : KHttp2Context) : Bool :=
  ctx.readWait.any fun e => e.fiber && !e.header

namespace KHttp2

/-- What some effects are told apart by. -/
inductive Kind
  /-- The parser moves. -/
  | parse
  /-- A frame header is read. -/
  | head
  /-- A DATA frame is taken. -/
  | data
  /-- A header block or an empty DATA frame is queued. -/
  | output
  /-- A fiber is suspended in `write` or `sendfile`. -/
  | write
  /-- The stream of an incomplete header block is dropped. -/
  | drop
  /-- The end of a header block resumes a body reader on a stream that has not ended. -/
  | interim
  deriving DecidableEq, Repr

/-- A stream is reset, with RST_STREAM or not, and its waiting fibers are resumed. -/
def resetWith (s : KHttp2) (c : CtxId) (rst : Option (ℕ × ℕ)) (clear : Bool) : KHttp2 :=
  let ctx := s.ctx c
  let s := s.resetStream c
  let s := rst.elim s fun r => s.sendRstStream (some c) r.1 r.2
  let s := if clear then s.modify c fun ctx =>
      { ctx with readBuffer := ctx.readBuffer.map fun _ => [] }
    else s
  s.wakeReset c ctx

/-- The payload of a DATA frame, or a piece of it, is taken for a stream. -/
def takeData (s : KHttp2) (c : CtxId) (taken : Bytes) : KHttp2 :=
  let bytes := taken.take (taken.length % 2 ^ 16)
  let s := s.modify c fun ctx => { ctx with readBuffer := some (ctx.readBuffer.getD [] ++ bytes) }
  (s.logData c taken).wakeReader c false

/-- END_STREAM of a DATA frame. -/
def takeEnd (s : KHttp2) (c : CtxId) : KHttp2 :=
  ((s.modify c fun ctx => { ctx with inClosed := true }).log (.endStream c)).wakeReader c true

/-- An effect on readers and writers. -/
inductive Effect (kinds : Kind → Prop) (s : KHttp2) : KHttp2 → Prop
  /-- Nothing happens to them. -/
  | soft {t : KHttp2} (h : t.body = s.body) (hstate : t.state = s.state ∨ kinds .parse) :
      Effect kinds s t
  | frameHead (sid length type : ℕ) (flags : UInt8) (hkind : kinds .head) :
      Effect kinds s (s.log (.frameHead sid length type flags))
  /-- A frame is queued that is neither HEADERS nor DATA. -/
  | push (frame : QueuedFrame) (bufs : List Http2Buff) (hbufs : ∀ b ∈ bufs, b.ctx = none)
      (hdata : frame.type ≠ dataFrame) (hheaders : frame.type ≠ headersFrame) :
      Effect kinds s (s.pushFrame frame bufs)
  | startWrite : Effect kinds s s.startWrite
  /-- A client stream gets its node. -/
  | linkNode (c : CtxId) (hclient : s.clientModel = true) (hnone : (s.ctx c).node = none) :
      Effect kinds s (s.linkNode c)
  /-- A header block, or an empty DATA frame, is queued. -/
  | output (c : CtxId) (frame : QueuedFrame) (bufs : List Http2Buff) (hkind : kinds .output)
      (hbufs : ∀ b ∈ bufs, b.ctx = none) (hstream : frame.stream = some c)
      (htype : frame.type = headersFrame ∨ frame.type = dataFrame ∧ frame.length = 0) :
      Effect kinds s (s.pushFrame frame bufs)
  /-- The stream is closed for writing. -/
  | closeOut (c : CtxId) (fin : Bool) (hkind : kinds .output) :
      Effect kinds s (s.modify c fun ctx => { ctx with outClosed := ctx.outClosed || fin })
  /-- The sink does not read the body that it could have asked for. -/
  | closeIn (c : CtxId) : Effect kinds s (s.modify c fun ctx => { ctx with inClosed := true })
  /-- `readhup` is put on a stream on which no writer waits, or taken off. -/
  | hup (c : CtxId) (w : Option WriteEvent) (hold : (s.ctx c).writeSuspended = false)
      (hnew : ∀ e ∈ w, e.forHup = true) :
      Effect kinds s (s.modify c fun ctx => { ctx with writeWait := w })
  /-- A fiber is suspended in `write` or `sendfile`. -/
  | suspend (c : CtxId) (e : WriteEvent) (hkind : kinds .write) (howner : c ∈ s.owners)
      (hold : (s.ctx c).writeSuspended = false) (hwindow : e.forWindow = true) :
      Effect kinds s ((s.log (.waitWrite c)).modify c fun ctx => { ctx with writeWait := some e })
  /-- A DATA frame is queued for a writer that waits for window. -/
  | send (c : CtxId) (e : WriteEvent) (len : ℕ) (hwait : (s.ctx c).writeWait = some e)
      (hwindow : e.forWindow = true) (hpos : 0 < len) :
      Effect kinds s { s.sendData c e len with writeProcessing := true }
  /-- The socket took bytes. -/
  | written (got : ℕ) (hgot : got ≤ s.writeBuffer.left) :
      Effect kinds s ({ s with writeBuffer := (s.writeBuffer.readSuccess got).1 }.removeBuff
        (s.writeBuffer.readSuccess got).2 false)
  /-- Nothing is left to write. -/
  | stopWrite (h : s.writeBuffer.left = 0) : Effect kinds s { s with writeProcessing := false }
  | reset (c : CtxId) (rst : Option (ℕ × ℕ)) (clear : Bool) :
      Effect kinds s (s.resetWith c rst clear)
  | closeStreams (read : Bool) (status : ℕ) : Effect kinds s (s.closeStreams read status)
  | tryDelete : Effect kinds s s.tryDelete
  /-- `check_recv_window` opens the window of a stream. -/
  | refill (c : CtxId) (hopen : (s.ctx c).inClosed = false)
      (hlow : (s.ctx c).recvWindow + strLen (s.ctx c).readBuffer < streamRecvWindow / 4) :
      Effect kinds s ((s.sendWindowUpdate (some c) ((s.ctx c).node.getD 0)
        (streamRecvWindow - (s.ctx c).recvWindow)).1.modify c fun ctx =>
          { ctx with recvWindow := streamRecvWindow })
  /-- `read` copies what is there. -/
  | copy (c : CtxId) (len : ℕ) (hfull : strLen (s.ctx c).readBuffer ≠ 0) :
      Effect kinds s ((s.copyReadBuffer c len).1.log (.readReturns c (s.copyReadBuffer c len).2))
  /-- `read` returns at once on a stream that is reset, or that ended and is read. -/
  | returns (c : CtxId) (got : ℤ) (hempty : strLen (s.ctx c).readBuffer = 0)
      (h : (s.ctx c).rst = true ∧ got = -1 ∨
        (s.ctx c).rst = false ∧ (s.ctx c).inClosed = true ∧ got = 0) :
      Effect kinds s (s.log (.readReturns c got))
  /-- A fiber is suspended in `read`. -/
  | readWait (c : CtxId) (len : ℕ) (hempty : strLen (s.ctx c).readBuffer = 0)
      (hrst : (s.ctx c).rst = false) (hopen : (s.ctx c).inClosed = false)
      (hwindow : streamRecvWindow / 4 ≤ (s.ctx c).recvWindow) :
      Effect kinds s (s.modify c fun ctx => { ctx with readWait := some ⟨true, false, len⟩ })
  /-- An upstream waits for its header. -/
  | headerWait (c : CtxId) (w : Option ReadEvent)
      (hw : ∀ e ∈ w, e.header = true ∨ ∃ e' ∈ (s.ctx c).readWait, e'.header = e.header) :
      Effect kinds s (s.modify c fun ctx => { ctx with readWait := w })
  /-- The end of a header block resumes who waits on the stream. -/
  | headerWake (c : CtxId) (w : Option ReadEvent)
      (hw : ∀ e ∈ w, s.clientModel = true ∧ ∃ e' ∈ (s.ctx c).readWait, e'.header = e.header)
      (hkind : (s.ctx c).bodyReader = true → (s.ctx c).inClosed = false → kinds .interim) :
      Effect kinds s ((s.modify c fun ctx => { ctx with readWait := w }).onRead c
        (s.ctx c).readWait 0)
  /-- A HEADERS frame comes for a stream that exists. -/
  | headersIn (c : CtxId) (fin : Bool) (hrst : (s.ctx c).rst = false)
      (hopen : (s.ctx c).inClosed = false) :
      Effect kinds s ((s.modify c fun ctx => { ctx with inClosed := fin }).logEnd c fin)
  | openStream (p : Bytes) (hkind : kinds .parse) : Effect kinds s (s.headersNewStream p).1
  | newClientStream (processing : ℤ) (admin : Bool) (hclient : s.clientModel = true)
      (hprocessing : processing = s.processing + 1) :
      Effect kinds s ({ s with processing := processing }.newClientStream admin)
  | start (c : CtxId) (hkind : kinds .parse) (hserver : s.clientModel = false) :
      Effect kinds s (s.startRequest c)
  /-- A fiber hands its stream back, or the parser drops it. -/
  | release (c : CtxId) (h : c ∈ s.owners ∧ (s.ctx c).writeSuspended = false ∨ kinds .drop) :
      Effect kinds s ((s.releaseStream c).releaseAdminCount c)
  | gc (c : CtxId) (hclient : s.clientModel = true) (howner : c ∈ s.owners)
      (h : (s.ctx c).writeSuspended = false) :
      Effect kinds s (s.gc c)
  | destroyPooled (c : CtxId) (h : c ∈ s.pooled) :
      Effect kinds s (({ s with pooled := s.pooled.erase c }.releaseStream c).releaseAdminCount c)
  /-- A DATA frame uses the window of the connection. -/
  | charge (length : ℕ) (hkind : kinds .data) (h : length ≤ s.recvWindow) :
      Effect kinds s { s with recvWindow := s.recvWindow - length }
  /-- The window of the connection is opened. -/
  | chargeRefill (hkind : kinds .data) :
      Effect kinds s { (s.sendWindowUpdate none 0 (connectionRecvWindow - s.recvWindow)).1 with
        recvWindow := connectionRecvWindow }
  /-- A DATA frame uses the window of a stream. -/
  | chargeStream (c : CtxId) (length : ℕ) (hkind : kinds .data)
      (h : length ≤ (s.ctx c).recvWindow) :
      Effect kinds s (s.modify c fun ctx => { ctx with recvWindow := ctx.recvWindow - length })
  | takeData (c : CtxId) (taken : Bytes) (hkind : kinds .data) : Effect kinds s (s.takeData c taken)
  | takeEnd (c : CtxId) (hkind : kinds .data) : Effect kinds s (s.takeEnd c)

/-- A sequence of effects. -/
abbrev Effects (kinds : Kind → Prop) : KHttp2 → KHttp2 → Prop :=
  Relation.ReflTransGen (Effect kinds)

variable {kinds : Kind → Prop}

/-! ## Nothing happens -/

theorem effects_soft {s t : KHttp2} (h : t.body = s.body) (hstate : t.state = s.state) :
    Effects kinds s t := .single (.soft h (Or.inl hstate))

theorem effects_parse {s t : KHttp2} (h : t.body = s.body) (hkind : kinds .parse) :
    Effects kinds s t := .single (.soft h (Or.inr hkind))

/-! ## Queueing frames -/

theorem effects_pushGetFrame (s : KHttp2) (c : Option CtxId) (sid : ℕ) (payload : Bytes)
    {type : ℕ} (flags : UInt8) (nodelay : Bool) (hdata : type ≠ dataFrame)
    (hheaders : type ≠ headersFrame) :
    Effects kinds s (s.pushGetFrame c sid payload type flags nodelay) := by
  refine .single (.push _ _ (fun b hb => ?_) hdata hheaders)
  rw [List.mem_singleton.mp hb]
  rfl

theorem effects_sendRstStream (s : KHttp2) (c : Option CtxId) (sid status : ℕ) :
    Effects kinds s (s.sendRstStream c sid status) :=
  (s.effects_pushGetFrame c sid _ 0 true (by decide) (by decide)).tail .startWrite

theorem effects_sendSettingsAck (s : KHttp2) : Effects kinds s s.sendSettingsAck :=
  (s.effects_pushGetFrame none 0 _ ackFlag false (by decide) (by decide)).tail .startWrite

theorem effects_goaway (s : KHttp2) (errorCode : ℕ) : Effects kinds s (s.goaway errorCode) := by
  have hself : Effects kinds s { s with selfGoaway := true } := effects_soft rfl rfl
  exact hself.trans ((effects_pushGetFrame _ none 0 _ 0 true (by decide) (by decide)).tail
    .startWrite)

theorem effects_ite_startWrite (s : KHttp2) (b : Bool) :
    Effects kinds s (if b then s.startWrite else s) := by
  split
  · exact .single .startWrite
  · exact .refl

/-! ## Resetting streams -/

theorem terminateStream_eq (s : KHttp2) (c : CtxId) (status : ℕ) :
    ∃ rst, (s.terminateStream c status).1 = s.resetWith c rst false := by
  unfold terminateStream
  extract_lets ctx sendFlag s1 s2
  by_cases hsend : sendFlag = true
  · exact ⟨some (ctx.node.getD 0, status), by simp only [s2, if_pos hsend]; rfl⟩
  · exact ⟨none, by simp only [s2, if_neg hsend]; rfl⟩

theorem effects_terminateStream (s : KHttp2) (c : CtxId) (status : ℕ) :
    Effects kinds s (s.terminateStream c status).1 := by
  obtain ⟨rst, heq⟩ := s.terminateStream_eq c status
  rw [heq]
  exact .single (.reset c rst false)

theorem effects_shutdown (s : KHttp2) (c : CtxId) : Effects kinds s (s.shutdown c) := by
  unfold shutdown
  split
  · exact .refl
  · exact s.effects_terminateStream c cancel

theorem effects_checkStreamTimeoutLoop (queue : List CtxId) (s : KHttp2) :
    Effects kinds s (checkStreamTimeoutLoop queue s) := by
  induction queue generalizing s with
  | nil => exact .refl
  | cons c queue ih =>
    unfold checkStreamTimeoutLoop
    split
    · exact .refl
    · refine Relation.ReflTransGen.trans ?_ (ih _)
      split
      · exact effects_soft (s.body_requeue rfl _) rfl
      · have h1 : Effects kinds s (s.removeQueue c) := effects_soft rfl rfl
        exact h1.trans ((s.removeQueue c).effects_shutdown c)

theorem effects_checkStreamTimeout (s : KHttp2) : Effects kinds s s.checkStreamTimeout :=
  effects_checkStreamTimeoutLoop _ s

/-! ## Sending -/

/-- The buffers of a header block belong to no writer. -/
theorem ctx_create (junk : ℕ → Http2FrameHeader) (f : KHttp2HeaderFrame) (streamId : ℕ)
    (noBody : Bool) (maxFrameSize : ℕ) :
    ∀ b ∈ f.create junk streamId noBody maxFrameSize, b.ctx = none := by
  intro b hb
  simp only [KHttp2HeaderFrame.create, List.mem_map] at hb
  obtain ⟨x, -, rfl⟩ := hb
  cases x <;> rfl

theorem mem_mapLast {f : Http2Buff → Http2Buff} {bufs : List Http2Buff} {b : Http2Buff}
    (h : b ∈ mapLast f bufs) : b ∈ bufs ∨ ∃ b' ∈ bufs, b = f b' := by
  induction bufs with
  | nil => cases h
  | cons a bufs ih =>
    cases bufs with
    | nil =>
      rw [mapLast, List.mem_singleton] at h
      exact Or.inr ⟨a, List.mem_singleton_self a, h⟩
    | cons a' bufs =>
      change b ∈ a :: mapLast f (a' :: bufs) at h
      rcases List.mem_cons.mp h with rfl | h
      · exact Or.inl List.mem_cons_self
      · rcases ih h with h | ⟨b', hb', rfl⟩
        · exact Or.inl (List.mem_cons_of_mem _ h)
        · exact Or.inr ⟨b', List.mem_cons_of_mem _ hb', rfl⟩

/-- `send_header` on a stream that needs no node. -/
theorem effects_sendHeader_linked (s : KHttp2) (c : CtxId) (bodyEnd : Bool)
    (hkind : kinds .output) (hlink : (s.clientModel && (s.ctx c).node.isNone) = false) :
    Effects kinds s (s.sendHeader c bodyEnd) := by
  unfold sendHeader
  simp only [hlink, Bool.false_eq_true, if_false]
  split
  · exact .refl
  · split
    · rename_i frame id hframe hnode
      have hclose : Effects kinds s (s.modify c fun ctx =>
          { ctx with outClosed := ctx.outClosed || bodyEnd, sendHeader := none }) := by
        have hsoft : Effects kinds s (s.modify c fun ctx => { ctx with sendHeader := none }) :=
          effects_soft (body_modify rfl) rfl
        have h := hsoft.tail (.closeOut c bodyEnd hkind)
        simp only [modify, Function.update_self, Function.update_idem] at h
        exact h
      refine (hclose.tail (.output c _ _ hkind ?_ rfl (Or.inl rfl))).tail .startWrite
      intro b hb
      rcases mem_mapLast hb with hb | ⟨b', hb', rfl⟩
      · exact ctx_create _ _ _ _ _ b hb
      · exact ctx_create _ _ _ _ _ b' hb'
    · exact effects_soft rfl rfl

/-- `send_header`. -/
theorem effects_sendHeader (s : KHttp2) (c : CtxId) (bodyEnd : Bool) (hkind : kinds .output) :
    Effects kinds s (s.sendHeader c bodyEnd) := by
  cases hread : s.readProcessing with
  | false =>
    simp only [sendHeader, hread, Bool.not_false, if_true]
    exact .refl
  | true =>
    by_cases hlink : (s.clientModel && (s.ctx c).node.isNone) = true
    · have hnew := hlink
      simp only [Bool.and_eq_true, Option.isNone_iff_eq_none] at hnew
      rw [sendHeader_eq bodyEnd hread hnew.1 hnew.2]
      refine .head (.linkNode c hnew.1 hnew.2)
        ((s.linkNode c).effects_sendHeader_linked c _ hkind ?_)
      simp only [linkNode, modify, Function.update_self, Option.isNone_some, Bool.and_false]
    · exact s.effects_sendHeader_linked c _ hkind (Bool.eq_false_iff.mpr hlink)

/-- An empty DATA frame. -/
theorem effects_pushEmptyData (s : KHttp2) (c : CtxId) (flags : UInt8) (hkind : kinds .output) :
    Effects kinds s (s.pushEmptyData c flags) := by
  unfold pushEmptyData
  extract_lets s1
  have h1 : Effects kinds s s1 := by
    dsimp only [s1]
    split
    · exact effects_soft rfl rfl
    · exact .refl
  refine h1.tail (.output c _ _ hkind (fun b hb => ?_) rfl (Or.inr ⟨rfl, rfl⟩))
  rw [List.mem_singleton.mp hb]
  rfl

theorem effects_closeOut (s : KHttp2) (c : CtxId) (hkind : kinds .output) :
    Effects kinds s (s.modify c fun ctx => { ctx with outClosed := true }) := by
  have h := Effect.closeOut (s := s) c true hkind
  simp only [Bool.or_true] at h
  exact .single h

/-- `write_end`. -/
theorem effects_writeEnd (s : KHttp2) (c : CtxId) (hkind : kinds .output) :
    Effects kinds s (s.writeEnd c) := by
  unfold writeEnd
  split
  · exact .refl
  · split
    · have hset : Effects kinds s (s.modify c fun ctx => ctx.setContentLength 0) :=
        effects_soft (body_modify rfl) rfl
      exact hset.trans (effects_sendHeader _ c true hkind)
    · extract_lets trailer s1
      have hpush : Effects kinds s s1 := s.effects_pushEmptyData c _ hkind
      refine hpush.trans ?_
      split
      · exact s1.effects_sendHeader c true hkind
      · exact (s1.effects_closeOut c hkind).tail .startWrite

/-- `on_write_window_ready` for a writer that waits for window. -/
theorem effects_onWriteWindowReady (s : KHttp2) (c : CtxId)
    (hwaits : (s.ctx c).waitsForWindow = true) : Effects kinds s (s.onWriteWindowReady c) := by
  obtain ⟨e, hwait, hwindow⟩ := Option.any_eq_true .. |>.mp hwaits
  simp only [onWriteWindowReady, hwait]
  split
  · exact effects_soft (s.body_addQueue c) rfl
  · rename_i hlen
    have hpos : 0 < (min (min (toInt32 s.frameSize) (s.ctx c).sendWindow)
        (toInt32 s.sendWindow)).toNat := by omega
    refine .head (.send c e _ hwait hwindow hpos) (effects_soft ?_ (calm_flushQueue _ c).state)
    exact congrArg (fun b : Body => { b with writeProcessing := true }) (body_flushQueue _ c)

/-- `check_write_wait`. -/
theorem effects_checkWriteWaitLoop (nodes : List KHttp2Node) (s : KHttp2) :
    Effects kinds s (checkWriteWaitLoop nodes s) := by
  induction nodes generalizing s with
  | nil => exact .refl
  | cons n nodes ih =>
    unfold checkWriteWaitLoop
    split
    · exact .refl
    · split
      · exact ih s
      · rename_i hready
        simp only [Bool.or_eq_true, Bool.not_eq_true', not_or, Bool.not_eq_false] at hready
        exact (s.effects_onWriteWindowReady n.stream hready.2).trans (ih _)

/-- The windows of writers are not part of it. -/
theorem body_adjustNode (delta : ℤ) (s : KHttp2) (n : KHttp2Node) :
    (adjustNode delta s n).body = s.body ∧ (adjustNode delta s n).state = s.state := by
  unfold adjustNode
  split
  · exact ⟨rfl, rfl⟩
  · exact ⟨body_modify rfl, rfl⟩

theorem effects_adjustWindows (s : KHttp2) (window : ℕ) :
    Effects kinds s (s.adjustWindows window) := by
  have hfold : ∀ (delta : ℤ) (nodes : List KHttp2Node) (t : KHttp2),
      (nodes.foldl (adjustNode delta) t).body = t.body ∧
        (nodes.foldl (adjustNode delta) t).state = t.state := fun delta nodes => by
    induction nodes with
    | nil => exact fun _ => ⟨rfl, rfl⟩
    | cons n nodes ih =>
      intro t
      obtain ⟨hbody, hstate⟩ := body_adjustNode delta t n
      exact ⟨(ih _).1.trans hbody, (ih _).2.trans hstate⟩
  unfold adjustWindows
  extract_lets delta s1
  obtain ⟨hbody, hstate⟩ := hfold delta s1.allNodes s1
  have h1 : Effects kinds s s1 := effects_soft rfl rfl
  exact (h1.trans (effects_soft hbody hstate)).trans (effects_checkWriteWaitLoop _ _)

/-- `send_header` leaves the fibers as they are. -/
theorem sendHeader_keeps (s : KHttp2) (c : CtxId) (bodyEnd : Bool) :
    (s.sendHeader c bodyEnd).owners = s.owners ∧
      ((s.sendHeader c bodyEnd).ctx c).writeWait = (s.ctx c).writeWait := by
  have hstart : ∀ u : KHttp2, u.startWrite.ctx = u.ctx ∧ u.startWrite.owners = u.owners := by
    intro u
    unfold startWrite
    split <;> exact ⟨rfl, rfl⟩
  have hlinked : ∀ t : KHttp2, (t.clientModel && (t.ctx c).node.isNone) = false →
      (t.sendHeader c bodyEnd).owners = t.owners ∧
        ((t.sendHeader c bodyEnd).ctx c).writeWait = (t.ctx c).writeWait := by
    intro t hlink
    unfold sendHeader
    simp only [hlink, Bool.false_eq_true, if_false]
    split
    · exact ⟨rfl, rfl⟩
    · split
      · simp only [hstart, pushFrame, log, modify, Function.update_self, and_self]
      · exact ⟨rfl, rfl⟩
  cases hread : s.readProcessing with
  | false =>
    simp only [sendHeader, hread, Bool.not_false, if_true, and_self]
  | true =>
    by_cases hlink : (s.clientModel && (s.ctx c).node.isNone) = true
    · have hnew := hlink
      simp only [Bool.and_eq_true, Option.isNone_iff_eq_none] at hnew
      rw [sendHeader_eq bodyEnd hread hnew.1 hnew.2]
      have hrest := hlinked (s.linkNode c) (by
        simp only [linkNode, modify, Function.update_self, Option.isNone_some, Bool.and_false])
      refine ⟨hrest.1, hrest.2.trans ?_⟩
      simp only [linkNode, modify, Function.update_self]
      rfl
    · exact hlinked s (Bool.eq_false_iff.mpr hlink)

/-- `write` and `sendfile`. -/
theorem effects_writeWait (s : KHttp2) (c : CtxId) (sendfile : Bool) (buf : WaitBuf) (length : ℕ)
    (howner : c ∈ s.owners) (hidle : (s.ctx c).writeSuspended = false) (hwrite : kinds .write)
    (houtput : (s.ctx c).sendHeader.isSome → kinds .output) :
    Effects kinds s (s.writeWait c sendfile buf length).1 := by
  unfold writeWait
  extract_lets s1 s2 s3
  have h1 : Effects kinds s s1 := .single (.hup c none hidle fun e he => by cases he)
  split
  · exact h1
  · refine h1.trans ?_
    have hself : s1.ctx c = { s.ctx c with writeWait := none } := by
      simp only [s1, modify, Function.update_self]
    have h2 : Effects kinds s1 s2 ∧ s2.owners = s1.owners ∧
        (s2.ctx c).writeWait = (s1.ctx c).writeWait := by
      dsimp only [s2]
      split
      · rename_i hsome
        rw [hself] at hsome
        exact ⟨effects_sendHeader _ c _ (houtput hsome), sendHeader_keeps _ c _⟩
      · exact ⟨.refl, rfl, rfl⟩
    obtain ⟨h2, howners, hnone⟩ := h2
    rw [hself] at hnone
    refine h2.trans ?_
    have h3 : Effects kinds s2 (s2.modify c fun ctx => { ctx with sendfile := sendfile }) :=
      effects_soft (body_modify rfl) rfl
    have heq : s3.log (.waitWrite c) =
        ((s2.modify c fun ctx => { ctx with sendfile := sendfile }).log (.waitWrite c)).modify c
          fun ctx => { ctx with writeWait := some ⟨some buf, length, -1⟩ } := by
      simp only [s3, modify, log, Function.update_self, Function.update_idem]
    have hwaits : ((s3.log (.waitWrite c)).ctx c).waitsForWindow = true := by
      simp only [s3, log, modify, Function.update_self]
      rfl
    refine h3.trans (.trans ?_ (effects_onWriteWindowReady _ c hwaits))
    rw [heq]
    refine .single (.suspend c _ hwrite (howners ▸ howner) ?_ rfl)
    simp only [modify, Function.update_self, KHttp2Context.writeSuspended, hnone, Option.any_none]

/-! ## Reading -/

theorem effects_checkRecvWindow (s : KHttp2) (c : CtxId) :
    Effects kinds s (s.checkRecvWindow c).1 := by
  unfold checkRecvWindow
  extract_lets ctx
  split
  · exact .refl
  · rename_i hopen
    split
    · rename_i hlow
      exact .single (.refill c (Bool.eq_false_iff.mpr hopen) hlow)
    · exact .refl

/-- What `check_recv_window` leaves behind. -/
theorem checkRecvWindow_spec (s : KHttp2) (c : CtxId) :
    (((s.checkRecvWindow c).1.ctx c).inClosed = false →
      streamRecvWindow / 4 ≤ ((s.checkRecvWindow c).1.ctx c).recvWindow +
        strLen ((s.checkRecvWindow c).1.ctx c).readBuffer) := by
  unfold checkRecvWindow
  extract_lets ctx
  split
  · rename_i hclosed
    exact fun h => absurd (hclosed.symm.trans h) Bool.noConfusion
  · split
    · simp only [modify, Function.update_self]
      intro _
      have hle : streamRecvWindow / 4 ≤ streamRecvWindow := Nat.div_le_self _ _
      omega
    · rename_i hlow
      exact fun _ => Nat.le_of_not_lt hlow

/-- Taking `readhup` off a stream. -/
theorem effects_removeReadhup (s : KHttp2) (c : CtxId) : Effects kinds s (s.removeReadhup c) := by
  unfold removeReadhup
  cases hwait : (s.ctx c).writeWait with
  | none =>
    refine effects_soft (body_modify ?_) rfl
    simp only [hwait, KHttp2Context.part, Option.filter_none]
  | some e =>
    cases hhup : e.forHup with
    | false =>
      refine effects_soft (body_modify ?_) rfl
      simp only [hwait, KHttp2Context.part, Option.filter, hhup, Bool.not_false, if_true]
    | true =>
      have hold : (s.ctx c).writeSuspended = false := by
        simp only [WriteEvent.forHup, Option.isNone_iff_eq_none] at hhup
        simp only [KHttp2Context.writeSuspended, hwait, Option.any_some, hhup, Option.isSome_none]
      have hnone : ∀ e ∈ (none : Option WriteEvent), e.forHup = true := nofun
      have h := @Effect.hup kinds s c none hold hnone
      have heq : (s.modify c fun ctx => { ctx with writeWait := none }) = s.modify c fun ctx =>
          { ctx with writeWait := ctx.writeWait.filter fun e => !e.forHup } := by
        simp only [modify, hwait, Option.filter, hhup, Bool.not_true, if_false, Bool.false_eq_true]
      exact heq ▸ .single h

/-- `read`. -/
theorem effects_read (s : KHttp2) (c : CtxId) (len : ℕ)
    (houtput : s.clientModel = true → kinds .output) : Effects kinds s (s.read c len).1 := by
  unfold read
  extract_lets s1 ctx s2 r s3
  have h1 : Effects kinds s s1 := s.effects_removeReadhup c
  have h2 : Effects kinds s1 s2 := by
    dsimp only [s2]
    split
    · rename_i hclient
      simp only [Bool.and_eq_true] at hclient
      have hkind := houtput hclient.1.1
      exact (s1.effects_closeOut c hkind).trans (effects_pushEmptyData _ c _ hkind)
    · exact .refl
  have hr : Effects kinds s2 r.1 := s2.effects_checkRecvWindow c
  have h3 : Effects kinds r.1 s3 := r.1.effects_ite_startWrite r.2
  have hwindow : (s3.ctx c).inClosed = false →
      streamRecvWindow / 4 ≤ (s3.ctx c).recvWindow + strLen (s3.ctx c).readBuffer := by
    have hspec := s2.checkRecvWindow_spec c
    dsimp only [s3]
    split
    · simp only [startWrite]
      split <;> exact hspec
    · exact hspec
  refine (h1.trans (h2.trans (hr.trans h3))).trans ?_
  split
  · rename_i hfull
    exact .single (.copy c len hfull)
  · rename_i hempty
    have hempty' : strLen (s3.ctx c).readBuffer = 0 := Decidable.not_not.mp hempty
    split
    · rename_i hrst
      exact .single (.returns c _ hempty' (Or.inl ⟨hrst, rfl⟩))
    · rename_i hrst
      have hrst' := Bool.eq_false_iff.mpr hrst
      split
      · rename_i hclosed
        exact .single (.returns c _ hempty' (Or.inr ⟨hrst', hclosed, rfl⟩))
      · rename_i hclosed
        have hopen := Bool.eq_false_iff.mpr hclosed
        have hbig := hwindow hopen
        rw [hempty', Nat.add_zero] at hbig
        exact .head (.readWait c len hempty' hrst' hopen hbig)
          (effects_soft (body_addQueue _ c) rfl)

/-- `ReadHeader`. -/
theorem effects_readHeader (s : KHttp2) (c : CtxId) :
    Effects kinds s (s.readHeader c).1 := by
  unfold readHeader
  split
  · exact .refl
  · split
    · exact .refl
    · refine .head (.headerWait c _ fun e he => Or.inr ?_) (effects_soft (body_addQueue _ c) rfl)
      obtain ⟨e', he', rfl⟩ := Option.map_eq_some_iff.mp he
      exact ⟨e', he', rfl⟩

/-- `readhup`. -/
theorem effects_readhup (s : KHttp2) (c : CtxId) : Effects kinds s (s.readhup c).1 := by
  unfold readhup
  extract_lets ctx e
  split
  · exact .refl
  · rename_i hfree
    refine .single (.hup c _ ?_ fun e' he' => ?_)
    · simp only [Bool.or_eq_true, not_or, Bool.not_eq_true] at hfree
      have hany := hfree.1
      simp only [KHttp2Context.writeSuspended]
      cases hwait : (s.ctx c).writeWait with
      | none => rfl
      | some e' =>
        simp only [ctx, hwait, Option.any_some, WriteEvent.forHup, Bool.not_eq_false',
          Option.isNone_iff_eq_none] at hany
        simp only [Option.any_some, hany, Option.isSome_none]
    · cases he'
      rfl

/-- `send_altsvc`. -/
theorem effects_sendAltsvc (s : KHttp2) (c : CtxId) (val : Bytes) :
    Effects kinds s (s.sendAltsvc c val).1 := by
  unfold sendAltsvc
  split
  · exact .refl
  · exact (s.effects_pushGetFrame _ _ _ 0 false (by decide) (by decide)).tail .startWrite

/-! ## Releasing and closing -/

/-- What a reset does to the streams. -/
theorem ctx_resetWith (s : KHttp2) (c : CtxId) (rst : Option (ℕ × ℕ)) (clear : Bool) :
    (s.resetWith c rst clear).ctx = Function.update s.ctx c { s.ctx c with
      inClosed := true
      outClosed := true
      rst := true
      readWait := none
      writeWait := (s.ctx c).writeWait.filter WriteEvent.forWriting
      readBuffer := if clear then (s.ctx c).readBuffer.map fun _ =>
        [] else (s.ctx c).readBuffer } := by
  have hread : ∀ (t : KHttp2) (e : Option ReadEvent) (got : ℤ), (t.onRead c e got).ctx = t.ctx := by
    intro t e got
    unfold onRead
    split <;> rfl
  have hwrite : ∀ (t : KHttp2) (e : Option WriteEvent) (got : ℤ),
      (t.onWrite c e got).ctx = t.ctx := by
    intro t e got
    unfold onWrite
    split <;> rfl
  have hsend : ∀ (t : KHttp2) (sid status : ℕ),
    (t.sendRstStream (some c) sid status).ctx = t.ctx := by
    intro t sid status
    simp only [sendRstStream, startWrite]
    split <;> rfl
  unfold resetWith
  extract_lets ctx s1 s2 s3
  have h2 : s2.ctx = s1.ctx := by
    dsimp only [s2]
    cases rst with
    | none => rfl
    | some r => exact hsend s1 r.1 r.2
  simp only [wakeReset, hwrite, hread]
  have h1 : s1.ctx = Function.update s.ctx c { s.ctx c with
      inClosed := true
      outClosed := true
      rst := true
      readWait := none
      writeWait := (s.ctx c).writeWait.filter WriteEvent.forWriting } := rfl
  cases clear with
  | false =>
    simp only [s3, Bool.false_eq_true, if_false]
    exact h2.trans h1
  | true =>
    simp only [s3, if_true, modify, h2, h1, Function.update_self, Function.update_idem]
    rfl

/-- `~KHttp2Sink` up to its call of `release`. -/
theorem effects_sinkEnd (s : KHttp2) (c : CtxId) (hkind : kinds .output) :
    Effects kinds s (s.sinkEnd c) := by
  unfold sinkEnd
  split
  · exact s.effects_shutdown c
  · extract_lets s1
    have h1 : Effects kinds s s1 := by
      dsimp only [s1]
      split
      · exact .single (.closeIn c)
      · exact .refl
    exact h1.trans (effects_writeEnd s1 c hkind)

/-- `ReleaseStateStream`. -/
theorem effects_releaseStateStream (s : KHttp2) (hparse : kinds .parse)
    (hdrop : s.incomplete = true → kinds .drop ∧ kinds .output) :
    Effects kinds s s.releaseStateStream := by
  unfold releaseStateStream
  split
  · exact .refl
  · rename_i c hstream
    extract_lets s1 s2 s3
    by_cases hopen : (!(s.ctx c).parsedHeader && !s.clientModel) = true
    · have hincomplete : s.incomplete = true := by
        simp only [Bool.and_eq_true, Bool.not_eq_true'] at hopen
        simp only [incomplete, hopen.2, hstream, Option.any_some, hopen.1, Bool.not_false,
          Bool.and_true]
      obtain ⟨hdropped, houtput⟩ := hdrop hincomplete
      simp only [s3, if_pos hopen]
      have h1 : Effects kinds s s1 :=
        (s.effects_sinkEnd c houtput).tail (.release c (Or.inr hdropped))
      have h2 : Effects kinds s1 s2 := by
        dsimp only [s2]
        split
        · exact effects_soft rfl rfl
        · exact .refl
      have h3 : ∀ node, (s2.destroyNode c node).body = s2.body := fun node => by
        cases node with
        | none => exact s2.body_log rfl
        | some id => exact s2.body_log rfl
      exact h1.trans (h2.trans (effects_parse (h3 _) hparse))
    · simp only [s3, if_neg hopen]
      exact effects_parse rfl hparse

/-- `close`. -/
theorem effects_close (s : KHttp2) (read : Bool) (status : ℕ) :
    Effects kinds s (s.close read status) :=
  .tail (.single (.closeStreams read status)) .tryDelete

theorem effects_fail (s : KHttp2) (status : ℕ) : Effects kinds s (s.fail status).1 :=
  s.effects_close true status

theorem effects_stateSave (s : KHttp2) (p : Bytes) (h : Handler) :
    Effects kinds s (s.stateSave p h).1 := by
  unfold stateSave
  split
  · exact s.effects_fail internalError
  · exact .refl

/-- `release`. -/
theorem effects_release (s : KHttp2) (c : CtxId)
    (h : c ∈ s.owners ∧ (s.ctx c).writeSuspended = false) : Effects kinds s (s.release c) :=
  .tail (.single (.release c (Or.inl h))) .tryDelete

/-- `write_end` leaves the fibers as they are. -/
theorem writeEnd_keeps (s : KHttp2) (c : CtxId) :
    (s.writeEnd c).owners = s.owners ∧ ((s.writeEnd c).ctx c).writeWait = (s.ctx c).writeWait := by
  have hstart : ∀ u : KHttp2, u.startWrite.ctx = u.ctx ∧ u.startWrite.owners = u.owners := by
    intro u
    unfold startWrite
    split <;> exact ⟨rfl, rfl⟩
  have hpush : ∀ flags, (s.pushEmptyData c flags).owners = s.owners ∧
      (s.pushEmptyData c flags).ctx = s.ctx := by
    intro flags
    unfold pushEmptyData
    dsimp only
    split <;> exact ⟨rfl, rfl⟩
  unfold writeEnd
  split
  · exact ⟨rfl, rfl⟩
  · split
    · have h := (s.modify c fun ctx => ctx.setContentLength 0).sendHeader_keeps c true
      refine ⟨h.1, h.2.trans ?_⟩
      simp only [modify, Function.update_self, KHttp2Context.setContentLength]
    · extract_lets trailer s1
      obtain ⟨howners, hctx⟩ : s1.owners = s.owners ∧ s1.ctx = s.ctx := hpush _
      split
      · have h := s1.sendHeader_keeps c true
        rw [← howners, ← hctx]
        exact h
      · rw [(hstart _).1, (hstart _).2]
        refine ⟨howners, ?_⟩
        simp only [modify, Function.update_self, hctx]

/-- A writer that does not wait does not wait after a reset. -/
theorem writeSuspended_filter {ctx : KHttp2Context} (h : ctx.writeSuspended = false)
    (p : WriteEvent → Bool) : (ctx.writeWait.filter p).any (fun e => e.buf.isSome) = false := by
  simp only [KHttp2Context.writeSuspended] at h
  cases hwait : ctx.writeWait with
  | none => rfl
  | some e =>
    rw [hwait] at h
    simp only [Option.filter]
    split
    · exact h
    · rfl

/-- `~KHttp2Sink` leaves its fiber as it is up to its call of `release`. -/
theorem sinkEnd_keeps (s : KHttp2) (c : CtxId) (h : (s.ctx c).writeSuspended = false) :
    (s.sinkEnd c).owners = s.owners ∧ ((s.sinkEnd c).ctx c).writeSuspended = false := by
  unfold sinkEnd
  split
  · refine ⟨(s.calm_shutdown c).owners, ?_⟩
    unfold shutdown
    split
    · exact h
    · obtain ⟨rst, heq⟩ := s.terminateStream_eq c cancel
      simp only [heq, ctx_resetWith, Function.update_self, KHttp2Context.writeSuspended]
      exact writeSuspended_filter h _
  · extract_lets s1
    have h1 : s1.owners = s.owners ∧ (s1.ctx c).writeWait = (s.ctx c).writeWait := by
      dsimp only [s1]
      split
      · refine ⟨rfl, ?_⟩
        simp only [modify, Function.update_self]
      · exact ⟨rfl, rfl⟩
    obtain ⟨howners, hwait⟩ := s1.writeEnd_keeps c
    refine ⟨howners.trans h1.1, ?_⟩
    simp only [KHttp2Context.writeSuspended, hwait, h1.2]
    exact h

/-- The end of a request. -/
theorem effects_finish (s : KHttp2) (c : CtxId) (howner : c ∈ s.owners)
    (hidle : (s.ctx c).writeSuspended = false) (houtput : s.clientModel = false → kinds .output) :
    Effects kinds s (s.finish c) := by
  unfold finish
  cases hclient : s.clientModel with
  | true => exact s.effects_release c ⟨howner, hidle⟩
  | false =>
    obtain ⟨howners, hidle'⟩ := s.sinkEnd_keeps c hidle
    exact (s.effects_sinkEnd c (houtput hclient)).trans
      (effects_release _ c ⟨howners ▸ howner, hidle'⟩)

/-! ## A connection that is not read any more -/

/-- `write_end` does nothing on a connection that is not read any more. -/
theorem writeEnd_stopped (s : KHttp2) (c : CtxId) (h : s.readProcessing = false) :
    s.writeEnd c = s := by
  simp [writeEnd, isWriteClosed, h]

theorem stopped_sinkEnd (s : KHttp2) (c : CtxId) (h : s.readProcessing = false) :
    (s.sinkEnd c).readProcessing = false := by
  unfold sinkEnd
  split
  · exact Bool.eq_false_iff.mpr fun hread =>
      Bool.false_ne_true (h.symm.trans ((s.calm_shutdown c).reading hread))
  · extract_lets s1
    have h1 : s1.readProcessing = false := by
      dsimp only [s1]
      split <;> exact h
    rw [s1.writeEnd_stopped c h1]
    exact h1

theorem reading_releaseStream (s : KHttp2) (c : CtxId) :
    (s.releaseStream c).readProcessing = s.readProcessing := by
  have hsend : ∀ (t : KHttp2) (sid status : ℕ),
      (t.sendRstStream (some c) sid status).readProcessing = t.readProcessing := by
    intro t sid status
    simp only [sendRstStream, startWrite]
    split <;> rfl
  have hdestroy : ∀ (t : KHttp2) (node : Option ℕ),
      (t.destroyNode c node).readProcessing = t.readProcessing := by
    intro t node
    cases node <;> rfl
  unfold releaseStream
  extract_lets ctx s1 s2 s3 s4
  have h4 : s4.readProcessing = s.readProcessing := by
    dsimp only [s4]
    split
    · split
      · exact hsend _ _ _
      · rfl
    · rfl
  split
  · exact (hdestroy _ _).trans h4
  · exact h4

theorem reading_releaseAdminCount (s : KHttp2) (c : CtxId) :
    (s.releaseAdminCount c).readProcessing = s.readProcessing := by
  unfold releaseAdminCount
  extract_lets s1 s2
  show s2.readProcessing = s.readProcessing
  dsimp only [s2, s1]
  split <;> split <;> rfl

theorem stopped_releaseStateStream (s : KHttp2) (h : s.readProcessing = false) :
    s.releaseStateStream.readProcessing = false := by
  unfold releaseStateStream
  split
  · exact h
  · rename_i c hstream
    extract_lets s1 s2 s3
    have h1 : s1.readProcessing = false :=
      (reading_releaseAdminCount _ c).trans ((reading_releaseStream _ c).trans
        (s.stopped_sinkEnd c h))
    have h2 : s2.readProcessing = false := by
      dsimp only [s2]
      split <;> exact h1
    show s3.readProcessing = false
    dsimp only [s3]
    split
    · cases hnode : (s2.ctx c).node with
      | none => exact h2
      | some id => exact h2
    · exact h

/-- Deleting a connection does not start its reading again. -/
theorem reading_tryDelete (s : KHttp2) (h : s.tryDelete.readProcessing = true) :
    s.readProcessing = true := by
  unfold tryDelete at h
  split at h
  · rename_i hdestroy
    simp only [canDestroy, Bool.and_eq_true, Bool.not_eq_true'] at hdestroy
    have hrelease := s.stopped_releaseStateStream hdestroy.2
    have hclean := (calm_removeBuff { s.releaseStateStream with
      writeBuffer := s.releaseStateStream.writeBuffer.clean.1 }
        s.releaseStateStream.writeBuffer.clean.2 true).reading h
    exact absurd (hrelease.symm.trans hclean) Bool.false_ne_true
  · exact h

/-- Deleting a connection marks it, and nothing else does. -/
theorem deleted_tryDelete (s : KHttp2) :
    s.tryDelete.deleted = true ∨ s.tryDelete = s ∧ s.canDestroy = false := by
  unfold tryDelete
  split
  · exact Or.inl rfl
  · rename_i h
    exact Or.inr ⟨rfl, Bool.eq_false_iff.mpr h⟩

end KHttp2

end Khttpd
