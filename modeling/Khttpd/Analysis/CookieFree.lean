import Khttpd.Model.Run

/-!
# What has nothing to do with cookies

Only `add_cookie` keeps a cookie and only `construct_cookie_header` hands one over. Every other
member of `KHttp2` that a server runs is `CookieFree`: it keeps the cookies of all streams, ends no
header block and makes no stream.
-/

set_option autoImplicit false

namespace Khttpd

/-- The events that tell what becomes of the cookies of a stream. -/
def Ev.isCookie (c : CtxId) : Ev → Bool
  | .addCookie c' _ | .cookieHeader c' _ | .headerSuccess c' => c' = c
  | .parseHeader c' name _ => c' = c && name = kglString "cookie"
  | _ => false

/-- The cookie events of a stream, in the order they happened. -/
def cookieLog (c : CtxId) (trace : List Ev) : List Ev := (trace.filter (Ev.isCookie c)).reverse

theorem cookieLog_cons {c : CtxId} {e : Ev} (he : e.isCookie c = false) (trace : List Ev) :
    cookieLog c (e :: trace) = cookieLog c trace := by
  simp [cookieLog, he]

theorem cookieLog_cons_cookie {c : CtxId} {e : Ev} (he : e.isCookie c = true) (trace : List Ev) :
    cookieLog c (e :: trace) = cookieLog c trace ++ [e] := by
  simp [cookieLog, he]

namespace KHttp2

/-- A step that has nothing to do with cookies. -/
structure CookieFree (s t : KHttp2) : Prop where
  cookies : ∀ c, (t.ctx c).cookies = (s.ctx c).cookies
  parsedHeader : ∀ c, (t.ctx c).parsedHeader = (s.ctx c).parsedHeader
  nextCtx : t.nextCtx = s.nextCtx
  clientModel : t.clientModel = s.clientModel
  log : ∀ c, cookieLog c t.trace = cookieLog c s.trace

namespace CookieFree

variable {s t u : KHttp2}

theorem refl (s : KHttp2) : CookieFree s s :=
  ⟨fun _ => rfl, fun _ => rfl, rfl, rfl, fun _ => rfl⟩

theorem trans (hst : CookieFree s t) (htu : CookieFree t u) : CookieFree s u where
  cookies c := (htu.cookies c).trans (hst.cookies c)
  parsedHeader c := (htu.parsedHeader c).trans (hst.parsedHeader c)
  nextCtx := htu.nextCtx.trans hst.nextCtx
  clientModel := htu.clientModel.trans hst.clientModel
  log c := (htu.log c).trans (hst.log c)

/-- A step that only touches other fields. -/
theorem of_fields (hctx : t.ctx = s.ctx) (hnext : t.nextCtx = s.nextCtx)
    (hclient : t.clientModel = s.clientModel) (htrace : t.trace = s.trace) : CookieFree s t := by
  refine ⟨fun c => ?_, fun c => ?_, hnext, hclient, fun c => congrArg (cookieLog c) htrace⟩
  · rw [hctx]
  · rw [hctx]

end CookieFree

/-! ## Small updates -/

theorem cookieFree_modify (s : KHttp2) (c : CtxId) {f : KHttp2Context → KHttp2Context}
    (hcookies : (f (s.ctx c)).cookies = (s.ctx c).cookies)
    (hparsed : (f (s.ctx c)).parsedHeader = (s.ctx c).parsedHeader) :
    CookieFree s (s.modify c f) := by
  refine ⟨fun c' => ?_, fun c' => ?_, rfl, rfl, fun _ => rfl⟩
  · by_cases hc : c' = c
    · subst hc
      simpa only [modify, Function.update_self] using hcookies
    · simp only [modify, Function.update_of_ne hc]
  · by_cases hc : c' = c
    · subst hc
      simpa only [modify, Function.update_self] using hparsed
    · simp only [modify, Function.update_of_ne hc]

theorem cookieFree_log (s : KHttp2) {e : Ev} (he : ∀ c, e.isCookie c = false) :
    CookieFree s (s.log e) :=
  ⟨fun _ => rfl, fun _ => rfl, rfl, rfl, fun c => cookieLog_cons (he c) s.trace⟩

theorem cookieFree_logData (s : KHttp2) (c : CtxId) (bytes : Bytes) :
    CookieFree s (s.logData c bytes) := by
  unfold logData
  split
  · rename_i c' old trace htrace
    split
    · refine ⟨fun _ => rfl, fun _ => rfl, rfl, rfl, fun c => ?_⟩
      rw [htrace]
      exact (cookieLog_cons rfl trace).trans (cookieLog_cons rfl trace).symm
    · exact s.cookieFree_log fun _ => rfl
  · exact s.cookieFree_log fun _ => rfl

theorem cookieFree_setFault (s : KHttp2) : CookieFree s s.setFault := .of_fields rfl rfl rfl rfl

theorem cookieFree_setState (s : KHttp2) (f : ParserState → ParserState) :
    CookieFree s (s.setState f) := .of_fields rfl rfl rfl rfl

theorem cookieFree_foldl {α : Type} {f : KHttp2 → α → KHttp2} (hf : ∀ s a, CookieFree s (f s a))
    (l : List α) (s : KHttp2) : CookieFree s (l.foldl f s) := by
  induction l generalizing s with
  | nil => exact .refl s
  | cons a l ih => exact (hf s a).trans (ih (f s a))

theorem cookieFree_newNode (s : KHttp2) (sid : ℕ) (c : CtxId) : CookieFree s (s.newNode sid c) :=
  (s.cookieFree_log (e := .openNode c sid) fun _ => rfl).trans (.of_fields rfl rfl rfl rfl)

theorem cookieFree_destroyNode (s : KHttp2) (c : CtxId) (node : Option ℕ) :
    CookieFree s (s.destroyNode c node) := by
  cases node with
  | none => exact (s.cookieFree_log fun _ => rfl).trans (cookieFree_setFault _)
  | some id =>
    have hlog : CookieFree s (s.log (.destroyNode c (some id)
        ((s.streamsIndex (streamIndex id)).any fun n => n.id = id))) :=
          s.cookieFree_log fun _ => rfl
    exact hlog.trans (.of_fields rfl rfl rfl rfl)

theorem cookieFree_removeQueue (s : KHttp2) (c : CtxId) : CookieFree s (s.removeQueue c) :=
  .of_fields rfl rfl rfl rfl

theorem cookieFree_addQueue (s : KHttp2) (c : CtxId) : CookieFree s (s.addQueue c) := by
  unfold addQueue
  extract_lets s1 s2
  have h1 : CookieFree s s1 := s.cookieFree_removeQueue c
  have h2 : CookieFree s1 s2 := s1.cookieFree_modify c rfl rfl
  exact (h1.trans h2).trans (.of_fields rfl rfl rfl rfl)

theorem cookieFree_flushQueue (s : KHttp2) (c : CtxId) : CookieFree s (s.flushQueue c) := by
  unfold flushQueue
  extract_lets s1
  have h1 : CookieFree s s1 := s.cookieFree_removeQueue c
  split
  · exact h1.trans (s1.cookieFree_addQueue c)
  · exact h1

/-! ## Queueing frames -/

theorem cookieFree_startWrite (s : KHttp2) : CookieFree s s.startWrite := by
  unfold startWrite
  split
  · exact .refl s
  · exact .of_fields rfl rfl rfl rfl

theorem cookieFree_ite_startWrite (s : KHttp2) (b : Bool) :
    CookieFree s (if b then s.startWrite else s) := by
  split
  · exact s.cookieFree_startWrite
  · exact .refl s

theorem cookieFree_pushFrame (s : KHttp2) (frame : QueuedFrame) (bufs : List Http2Buff) :
    CookieFree s (s.pushFrame frame bufs) := by
  have hpush : CookieFree s { s with writeBuffer := s.writeBuffer.push bufs } :=
    .of_fields rfl rfl rfl rfl
  exact hpush.trans (cookieFree_log _ (e := .queued frame) fun _ => rfl)

theorem cookieFree_pushGetFrame (s : KHttp2) (c : Option CtxId) (sid : ℕ) (payload : Bytes)
    (type : ℕ) (flags : UInt8) (nodelay : Bool) :
    CookieFree s (s.pushGetFrame c sid payload type flags nodelay) :=
  s.cookieFree_pushFrame _ _

theorem cookieFree_sendRstStream (s : KHttp2) (c : Option CtxId) (sid status : ℕ) :
    CookieFree s (s.sendRstStream c sid status) :=
  (s.cookieFree_pushGetFrame _ _ _ _ _ _).trans (cookieFree_startWrite _)

theorem cookieFree_sendWindowUpdate (s : KHttp2) (c : Option CtxId) (sid window : ℕ) :
    CookieFree s (s.sendWindowUpdate c sid window).1 := by
  unfold sendWindowUpdate
  split
  · exact .refl s
  · exact (s.cookieFree_log fun _ => rfl).trans (cookieFree_pushGetFrame _ _ _ _ _ _ _)

theorem cookieFree_sendSettingsAck (s : KHttp2) : CookieFree s s.sendSettingsAck :=
  (s.cookieFree_pushGetFrame _ _ _ _ _ _).trans (cookieFree_startWrite _)

theorem cookieFree_sendSettings (s : KHttp2) : CookieFree s s.sendSettings :=
  (s.cookieFree_pushGetFrame _ _ _ _ _ _).trans (cookieFree_startWrite _)

theorem cookieFree_goaway (s : KHttp2) (errorCode : ℕ) : CookieFree s (s.goaway errorCode) := by
  unfold goaway
  extract_lets s1
  have h1 : CookieFree s s1 := .of_fields rfl rfl rfl rfl
  exact (h1.trans (s1.cookieFree_pushGetFrame _ _ _ _ _ _)).trans (cookieFree_startWrite _)

theorem cookieFree_onRead (s : KHttp2) (c : CtxId) (e : Option ReadEvent) (got : ℤ) :
    CookieFree s (s.onRead c e got) := by
  unfold onRead
  split
  · exact s.cookieFree_log fun _ => rfl
  · exact .refl s

theorem cookieFree_onWrite (s : KHttp2) (c : CtxId) (e : Option WriteEvent) (got : ℤ) :
    CookieFree s (s.onWrite c e got) := by
  unfold onWrite
  split
  · apply s.cookieFree_log
    intro c'
    split <;> rfl
  · exact .refl s

/-! ## Sending -/

theorem cookieFree_sendData (s : KHttp2) (c : CtxId) (e : WriteEvent) (len : ℕ) :
    CookieFree s (s.sendData c e len) := by
  unfold sendData
  extract_lets ctx payload totalLen left fin bufs h h' src header s1 s2 s3
  have h1 : CookieFree s s1 := by
    dsimp only [s1]
    split
    · exact s.cookieFree_setFault
    · exact .refl s
  have h2 : CookieFree s1 s2 := s1.cookieFree_modify c rfl rfl
  have h3 : CookieFree s2 s3 := .of_fields rfl rfl rfl rfl
  exact ((h1.trans h2).trans h3).trans (s3.cookieFree_pushFrame _ _)

theorem cookieFree_onWriteWindowReady (s : KHttp2) (c : CtxId) :
    CookieFree s (s.onWriteWindowReady c) := by
  unfold onWriteWindowReady
  split
  · exact .refl s
  · extract_lets len
    split
    · exact s.cookieFree_addQueue c
    · exact ((s.cookieFree_sendData c _ _).trans (cookieFree_flushQueue _ c)).trans
        (.of_fields rfl rfl rfl rfl)

theorem cookieFree_sendHeader (s : KHttp2) (c : CtxId) (bodyEnd : Bool) :
    CookieFree s (s.sendHeader c bodyEnd) := by
  unfold sendHeader
  split
  · exact .refl s
  · extract_lets s0 s1 s2 flags
    have h0 : CookieFree s s0 := .of_fields rfl rfl rfl rfl
    have h1 : CookieFree s s1 := by
      dsimp only [s1]
      split
      · exact (h0.trans (cookieFree_newNode _ _ _)).trans (cookieFree_modify _ _ rfl rfl)
      · exact .refl s
    split
    · have h2 : CookieFree s1 s2 := s1.cookieFree_modify c rfl rfl
      exact ((h1.trans h2).trans (s2.cookieFree_pushFrame _ _)).trans (cookieFree_startWrite _)
    · exact h1.trans s1.cookieFree_setFault

theorem cookieFree_writeWait (s : KHttp2) (c : CtxId) (sendfile : Bool) (buf : WaitBuf)
    (length : ℕ) : CookieFree s (s.writeWait c sendfile buf length).1 := by
  unfold writeWait
  extract_lets s1 s2 s3
  have h1 : CookieFree s s1 := s.cookieFree_modify c rfl rfl
  have h2 : CookieFree s1 s2 := by
    dsimp only [s2]
    split
    · exact s1.cookieFree_sendHeader c _
    · exact .refl s1
  have h3 : CookieFree s2 s3 := s2.cookieFree_modify c rfl rfl
  split
  · exact h1
  · exact ((h1.trans (h2.trans h3)).trans (s3.cookieFree_log fun _ => rfl)).trans
      (cookieFree_onWriteWindowReady _ c)

theorem cookieFree_pushEmptyData (s : KHttp2) (c : CtxId) (flags : UInt8) :
    CookieFree s (s.pushEmptyData c flags) := by
  unfold pushEmptyData
  split
  · exact s.cookieFree_setFault.trans (cookieFree_pushGetFrame _ _ _ _ _ _ _)
  · exact s.cookieFree_pushGetFrame _ _ _ _ _ _

theorem cookieFree_writeEnd (s : KHttp2) (c : CtxId) : CookieFree s (s.writeEnd c) := by
  unfold writeEnd
  split
  · exact .refl s
  · split
    · exact (s.cookieFree_modify c rfl rfl).trans (cookieFree_sendHeader _ c true)
    · extract_lets trailer s1
      have h1 : CookieFree s s1 := s.cookieFree_pushEmptyData c _
      split
      · exact h1.trans (s1.cookieFree_sendHeader c true)
      · exact (h1.trans (s1.cookieFree_modify c rfl rfl)).trans (cookieFree_startWrite _)

/-! ## Resetting streams -/

theorem cookieFree_resetStream (s : KHttp2) (c : CtxId) : CookieFree s (s.resetStream c) :=
  ((s.cookieFree_modify c rfl rfl).trans (cookieFree_log _ fun _ => rfl)).trans
    (cookieFree_removeQueue _ c)

theorem cookieFree_wakeReset (s : KHttp2) (c : CtxId) (ctx : KHttp2Context) :
    CookieFree s (s.wakeReset c ctx) :=
  (s.cookieFree_onRead c _ _).trans (cookieFree_onWrite _ c _ _)

theorem cookieFree_terminateStream (s : KHttp2) (c : CtxId) (status : ℕ) :
    CookieFree s (s.terminateStream c status).1 := by
  unfold terminateStream
  extract_lets ctx sendFlag s1 s2
  have h1 : CookieFree s s1 := s.cookieFree_resetStream c
  have h2 : CookieFree s1 s2 := by
    dsimp only [s2]
    split
    · exact s1.cookieFree_sendRstStream _ _ _
    · exact .refl s1
  exact (h1.trans h2).trans (s2.cookieFree_wakeReset c ctx)

theorem cookieFree_shutdown (s : KHttp2) (c : CtxId) : CookieFree s (s.shutdown c) := by
  unfold shutdown
  split
  · exact .refl s
  · exact s.cookieFree_terminateStream c cancel

theorem cookieFree_checkStreamTimeoutLoop (queue : List CtxId) (s : KHttp2) :
    CookieFree s (checkStreamTimeoutLoop queue s) := by
  induction queue generalizing s with
  | nil => exact .refl s
  | cons c queue ih =>
    unfold checkStreamTimeoutLoop
    extract_lets s1 s2 s3
    have h1 : CookieFree s s1 := s.cookieFree_removeQueue c
    have h2 : CookieFree s1 s2 := s1.cookieFree_modify c rfl rfl
    have h3 : CookieFree s1 s3 := by
      dsimp only [s3]
      split
      · exact h2.trans (.of_fields rfl rfl rfl rfl)
      · exact s1.cookieFree_shutdown c
    split
    · exact .refl s
    · exact (h1.trans h3).trans (ih s3)

theorem cookieFree_checkStreamTimeout (s : KHttp2) : CookieFree s s.checkStreamTimeout :=
  cookieFree_checkStreamTimeoutLoop _ s

/-! ## Releasing streams -/

theorem cookieFree_cleanBuff (fin : Bool) (s : KHttp2) (b : Http2Buff) :
    CookieFree s (cleanBuff fin s b) := by
  unfold cleanBuff
  split
  · exact .refl s
  · exact (s.cookieFree_modify _ rfl rfl).trans (cookieFree_onWrite _ _ _ _)

theorem cookieFree_removeBuff (s : KHttp2) (bufs : List Http2Buff) (fin : Bool) :
    CookieFree s (s.removeBuff bufs fin) :=
  cookieFree_foldl (cookieFree_cleanBuff fin) bufs s

theorem cookieFree_releaseStream (s : KHttp2) (c : CtxId) : CookieFree s (s.releaseStream c) := by
  unfold releaseStream
  extract_lets ctx s1 s2 s3 s4
  have h1 : CookieFree s s1 := .of_fields rfl rfl rfl rfl
  have h2 : CookieFree s1 s2 := s1.cookieFree_modify c rfl rfl
  have h3 : CookieFree s2 s3 :=
    (s2.cookieFree_modify c rfl rfl).trans (cookieFree_log _ fun _ => rfl)
  have h4 : CookieFree s2 s4 := by
    dsimp only [s4]
    split
    · split
      · exact h3.trans (s3.cookieFree_sendRstStream _ _ _)
      · exact h3
    · exact .refl s2
  have h : CookieFree s s4 := (h1.trans h2).trans h4
  split
  · exact (h.trans (s4.cookieFree_destroyNode c _)).trans (cookieFree_modify _ c rfl rfl)
  · exact h

theorem cookieFree_releaseAdminCount (s : KHttp2) (c : CtxId) :
    CookieFree s (s.releaseAdminCount c) := by
  unfold releaseAdminCount
  extract_lets s1 s2
  have h1 : CookieFree s s1 := by
    dsimp only [s1]
    split
    · exact .of_fields rfl rfl rfl rfl
    · exact .refl s
  have h2 : CookieFree s1 s2 := by
    dsimp only [s2]
    split
    · exact s1.cookieFree_modify c rfl rfl
    · exact .refl s1
  exact ((h1.trans h2).trans (s2.cookieFree_log (e := .releaseAdmin c) fun _ => rfl)).trans
    (.of_fields rfl rfl rfl rfl)

theorem cookieFree_sinkEnd (s : KHttp2) (c : CtxId) : CookieFree s (s.sinkEnd c) := by
  unfold sinkEnd
  split
  · exact s.cookieFree_shutdown c
  · extract_lets s1
    have h1 : CookieFree s s1 := by
      dsimp only [s1]
      split
      · exact s.cookieFree_modify c rfl rfl
      · exact .refl s
    exact h1.trans (s1.cookieFree_writeEnd c)

theorem cookieFree_releaseStateStream (s : KHttp2) : CookieFree s s.releaseStateStream := by
  unfold releaseStateStream
  split
  · exact .refl s
  · rename_i c hstream
    extract_lets s1 s2 s3
    have h1 : CookieFree s s1 :=
      ((s.cookieFree_sinkEnd c).trans (cookieFree_releaseStream _ c)).trans
      (cookieFree_releaseAdminCount _ c)
    have h2 : CookieFree s1 s2 := by
      dsimp only [s2]
      split
      · exact s1.cookieFree_setFault
      · exact .refl s1
    have h3 : CookieFree s s3 := by
      dsimp only [s3]
      split
      · exact (h1.trans h2).trans (s2.cookieFree_destroyNode c _)
      · exact .refl s
    exact h3.trans (s3.cookieFree_setState _)

theorem cookieFree_delete (s : KHttp2) : CookieFree s s.delete := by
  unfold delete
  extract_lets s1 taken
  have h1 : CookieFree s s1 := s.cookieFree_releaseStateStream
  have h2 : CookieFree s1 { s1 with writeBuffer := taken.1 } := .of_fields rfl rfl rfl rfl
  exact ((h1.trans h2).trans (cookieFree_removeBuff _ _ _)).trans (.of_fields rfl rfl rfl rfl)

theorem cookieFree_tryDelete (s : KHttp2) : CookieFree s s.tryDelete := by
  unfold tryDelete
  split
  · exact s.cookieFree_delete
  · exact .refl s

theorem cookieFree_release (s : KHttp2) (c : CtxId) : CookieFree s (s.release c) :=
  ((s.cookieFree_releaseStream c).trans (cookieFree_releaseAdminCount _ c)).trans
    (cookieFree_tryDelete _)

theorem cookieFree_sinkDestroy (s : KHttp2) (c : CtxId) : CookieFree s (s.sinkDestroy c) :=
  (s.cookieFree_sinkEnd c).trans (cookieFree_release _ c)

/-! ## Closing the connection -/

theorem cookieFree_closeNode (s : KHttp2) (n : KHttp2Node) : CookieFree s (s.closeNode n) :=
  (s.cookieFree_resetStream n.stream).trans (cookieFree_wakeReset _ _ _)

theorem cookieFree_closeStreams (s : KHttp2) (read : Bool) (status : ℕ) :
    CookieFree s (s.closeStreams read status) := by
  unfold closeStreams
  extract_lets s1 taken s2 s3 s4 s5
  have h1 : CookieFree s s1 := s.cookieFree_log fun _ => rfl
  have h2 : CookieFree s1 s2 := .of_fields rfl rfl rfl rfl
  have h3 : CookieFree s2 s3 := cookieFree_foldl cookieFree_closeNode _ _
  have h4 : CookieFree s3 s4 := s3.cookieFree_removeBuff _ _
  have h5 : CookieFree s4 s5 := .of_fields rfl rfl rfl rfl
  refine (((h1.trans h2).trans (h3.trans h4)).trans h5).trans ?_
  split
  · exact .of_fields rfl rfl rfl rfl
  · exact .of_fields rfl rfl rfl rfl

theorem cookieFree_close (s : KHttp2) (read : Bool) (status : ℕ) :
    CookieFree s (s.close read status) :=
  (s.cookieFree_closeStreams read status).trans (cookieFree_tryDelete _)

/-! ## Window changes -/

theorem cookieFree_checkWriteWaitLoop (nodes : List KHttp2Node) (s : KHttp2) :
    CookieFree s (checkWriteWaitLoop nodes s) := by
  induction nodes generalizing s with
  | nil => exact .refl s
  | cons n nodes ih =>
    unfold checkWriteWaitLoop
    split
    · exact .refl s
    · split
      · exact ih s
      · exact (s.cookieFree_onWriteWindowReady n.stream).trans (ih _)

theorem cookieFree_checkWriteWait (s : KHttp2) : CookieFree s s.checkWriteWait :=
  cookieFree_checkWriteWaitLoop _ s

theorem cookieFree_adjustNode (delta : ℤ) (s : KHttp2) (n : KHttp2Node) :
    CookieFree s (adjustNode delta s n) := by
  unfold adjustNode
  split
  · exact .refl s
  · exact s.cookieFree_modify _ rfl rfl

theorem cookieFree_adjustWindows (s : KHttp2) (window : ℕ) :
    CookieFree s (s.adjustWindows window) := by
  unfold adjustWindows
  extract_lets delta s1
  have h1 : CookieFree s s1 := .of_fields rfl rfl rfl rfl
  exact (h1.trans (cookieFree_foldl (cookieFree_adjustNode delta) _ s1)).trans
    (cookieFree_checkWriteWait _)

/-! ## Reading -/

theorem cookieFree_checkRecvWindow (s : KHttp2) (c : CtxId) :
    CookieFree s (s.checkRecvWindow c).1 := by
  unfold checkRecvWindow
  extract_lets ctx r
  have hr : CookieFree s r.1 := s.cookieFree_sendWindowUpdate _ _ _
  split
  · exact .refl s
  · split
    · refine hr.trans ?_
      dsimp only
      exact r.1.cookieFree_modify c rfl rfl
    · exact .refl s

theorem cookieFree_copyReadBuffer (s : KHttp2) (c : CtxId) (length : ℕ) :
    CookieFree s (s.copyReadBuffer c length).1 := by
  unfold copyReadBuffer
  exact (s.cookieFree_modify c rfl rfl).trans (cookieFree_log _ fun _ => rfl)

theorem cookieFree_read (s : KHttp2) (c : CtxId) (len : ℕ) : CookieFree s (s.read c len).1 := by
  unfold read
  extract_lets s1 ctx s2 r s3 r'
  have h1 : CookieFree s s1 := s.cookieFree_modify c rfl rfl
  have h2 : CookieFree s1 s2 := by
    dsimp only [s2]
    split
    · exact (s1.cookieFree_modify c rfl rfl).trans (cookieFree_pushEmptyData _ c _)
    · exact .refl s1
  have hr : CookieFree s2 r.1 := s2.cookieFree_checkRecvWindow c
  have h3 : CookieFree s s3 := ((h1.trans h2).trans hr).trans (r.1.cookieFree_ite_startWrite _)
  have hr' : CookieFree s3 r'.1 := s3.cookieFree_copyReadBuffer c len
  refine h3.trans ?_
  split
  · exact hr'.trans (cookieFree_log _ fun _ => rfl)
  · split
    · exact s3.cookieFree_log fun _ => rfl
    · split
      · exact s3.cookieFree_log fun _ => rfl
      · exact (s3.cookieFree_modify c rfl rfl).trans (cookieFree_addQueue _ c)

theorem cookieFree_readHeader (s : KHttp2) (c : CtxId) : CookieFree s (s.readHeader c).1 := by
  unfold readHeader
  split
  · exact .refl s
  · split
    · exact .refl s
    · exact (s.cookieFree_modify c rfl rfl).trans (cookieFree_addQueue _ c)

theorem cookieFree_readhup (s : KHttp2) (c : CtxId) : CookieFree s (s.readhup c).1 := by
  unfold readhup
  extract_lets ctx e
  split
  · exact .refl s
  · dsimp only
    exact s.cookieFree_modify c rfl rfl

theorem cookieFree_sendAltsvc (s : KHttp2) (c : CtxId) (val : Bytes) :
    CookieFree s (s.sendAltsvc c val).1 := by
  unfold sendAltsvc
  split
  · exact .refl s
  · exact (s.cookieFree_pushGetFrame _ _ _ _ _ _).trans (cookieFree_startWrite _)

theorem cookieFree_removeReadhup (s : KHttp2) (c : CtxId) : CookieFree s (s.removeReadhup c) := by
  unfold removeReadhup
  exact s.cookieFree_modify c rfl rfl

theorem cookieFree_setTimeOut (s : KHttp2) (c : CtxId) (tmo : ℕ) :
    CookieFree s (s.setTimeOut c tmo) := by
  unfold setTimeOut
  exact s.cookieFree_modify c rfl rfl

theorem cookieFree_setHeaderCallback (s : KHttp2) (c : CtxId) :
    CookieFree s (s.setHeaderCallback c) := by
  unfold setHeaderCallback
  exact s.cookieFree_modify c rfl rfl

/-! ## The selector -/

theorem cookieFree_startRead (s : KHttp2) : CookieFree s s.startRead := by
  unfold startRead
  extract_lets idle s1
  have h1 : CookieFree s s1 := by
    dsimp only [s1]
    split
    · exact s.cookieFree_goaway _
    · exact .refl s
  split
  · exact h1.trans (s1.cookieFree_close true _)
  · exact h1

theorem cookieFree_onReadTimeOut (s : KHttp2) : CookieFree s s.onReadTimeOut := by
  unfold onReadTimeOut
  split
  · exact .refl s
  · unfold ping
    split
    · exact .refl s
    · extract_lets s0 s1 payload
      have h1 : CookieFree s s1 :=
        s.cookieFree_checkStreamTimeout.trans (.of_fields rfl rfl rfl rfl)
      exact (h1.trans (s1.cookieFree_pushGetFrame _ _ _ _ _ _)).trans (cookieFree_startWrite _)

theorem cookieFree_tryWrite (s : KHttp2) : CookieFree s s.tryWrite := by
  unfold tryWrite
  split
  · exact .refl s
  · unfold closeWrite
    split
    · exact s.cookieFree_close false _
    · exact .of_fields rfl rfl rfl rfl

theorem cookieFree_onWriteResult (s : KHttp2) (got : ℕ) : CookieFree s (s.onWriteResult got) := by
  unfold onWriteResult
  extract_lets r
  have hr : CookieFree s { s with writeBuffer := r.1 } := .of_fields rfl rfl rfl rfl
  exact (hr.trans (cookieFree_removeBuff _ _ _)).trans (cookieFree_tryWrite _)

theorem cookieFree_greet (s : KHttp2) : CookieFree s s.greet := by
  unfold greet
  extract_lets r
  have hr : CookieFree s r.1 :=
    s.cookieFree_sendSettings.trans (cookieFree_sendWindowUpdate _ _ _ _)
  exact hr.trans (r.1.cookieFree_ite_startWrite _)

/-! ## Calls of a request -/

theorem cookieFree_addTo (s : KHttp2) (c : CtxId) (f : KHttp2HeaderFrame → KHttp2HeaderFrame) :
    CookieFree s (s.addTo c f) := s.cookieFree_modify c rfl rfl

theorem cookieFree_startResponseBody (s : KHttp2) (c : CtxId) (bodySize : ℤ)
    (is100Continue : Bool) : CookieFree s (s.startResponseBody c bodySize is100Continue) := by
  unfold startResponseBody
  split
  · exact s.cookieFree_sendHeader c false
  · exact (s.cookieFree_modify c rfl rfl).trans (cookieFree_sendHeader _ c _)

theorem cookieFree_readBody (s : KHttp2) (c : CtxId) (len : ℕ) :
    CookieFree s (s.readBody c len) := by
  unfold readBody
  extract_lets s1 s2
  have h1 : CookieFree s s1 := s.cookieFree_modify c rfl rfl
  have h2 : CookieFree s s2 := by
    dsimp only [s2]
    split
    · exact (h1.trans (s1.cookieFree_addTo c _)).trans (cookieFree_startResponseBody _ c _ _)
    · exact .refl s
  exact h2.trans (s2.cookieFree_read c len)

theorem cookieFree_addTrailer (s : KHttp2) (c : CtxId) (name val : Bytes) :
    CookieFree s (s.addTrailer c name val) := by
  unfold addTrailer
  extract_lets s1 s2
  have h1 : CookieFree s s1 := by
    dsimp only [s1]
    split
    · exact s.cookieFree_sendHeader c false
    · exact .refl s
  have h2 : CookieFree s s2 := by
    dsimp only [s2]
    split
    · exact .refl s
    · exact h1.trans (s1.cookieFree_modify c rfl rfl)
  exact h2.trans (s2.cookieFree_addTo c _)

theorem cookieFree_sendMethodPath (s : KHttp2) (c : CtxId) (meth : ℕ) (path : Bytes) :
    CookieFree s (s.sendMethodPath c meth path) := by
  unfold sendMethodPath
  extract_lets s1 s2
  have h1 : CookieFree s s1 := s.cookieFree_addTo c _
  have h2 : CookieFree s1 s2 := by
    dsimp only [s2]
    split
    · exact s1.cookieFree_modify c rfl rfl
    · exact .refl s1
  exact (h1.trans h2).trans (s2.cookieFree_addTo c _)

theorem cookieFree_sendExpect (s : KHttp2) (c : CtxId) (val : Bytes) :
    CookieFree s (s.sendExpect c val) := by
  unfold sendExpect
  have hexpect : CookieFree s (s.modify c fun ctx => { ctx with hasExpect := true }) :=
    s.cookieFree_modify c rfl rfl
  exact hexpect.trans (cookieFree_addTo _ c _)

theorem cookieFree_sendUpgrade (s : KHttp2) (c : CtxId) (val : Bytes) :
    CookieFree s (s.sendUpgrade c val) := by
  unfold sendUpgrade
  exact s.cookieFree_addTo c _

theorem cookieFree_readHeaders (s : KHttp2) (c : CtxId) : CookieFree s (s.readHeaders c) := by
  unfold readHeaders
  extract_lets s1
  have h1 : CookieFree s s1 := by
    dsimp only [s1]
    split
    · exact s.cookieFree_sendHeader c _
    · exact .refl s
  exact h1.trans (s1.cookieFree_readHeader c)

/-- No call of a request has to do with cookies. -/
theorem cookieFree_call (s : KHttp2) (c : CtxId) (op : Op) : CookieFree s (s.call c op) := by
  unfold call
  cases op with
  | write buf length => exact s.cookieFree_writeWait c _ _ _
  | sendfile file length => exact s.cookieFree_writeWait c _ _ _
  | read len => exact s.cookieFree_readBody c len
  | sendMethodPath meth path => exact s.cookieFree_sendMethodPath c meth path
  | sendExpect val => exact s.cookieFree_sendExpect c val
  | setContentLength contentLength =>
    dsimp only
    apply s.cookieFree_modify c
    · split <;> rfl
    · split <;> rfl
  | startResponseBody bodySize is100Continue => exact s.cookieFree_startResponseBody c _ _
  | addTrailer name val => exact s.cookieFree_addTrailer c name val
  | writeEnd => exact s.cookieFree_writeEnd c
  | shutdown => exact s.cookieFree_shutdown c
  | readhup => exact s.cookieFree_readhup c
  | sendAltsvc val => exact s.cookieFree_sendAltsvc c val
  | readHeaders => exact s.cookieFree_readHeaders c
  | gc =>
    dsimp only
    split
    · exact (s.cookieFree_releaseStream c).trans (.of_fields rfl rfl rfl rfl)
    · exact .refl s
  | finish =>
    unfold finish
    dsimp only
    split
    · exact s.cookieFree_release c
    · exact s.cookieFree_sinkDestroy c
  | removeReadhup => exact s.cookieFree_removeReadhup c
  | setTimeOut tmo => exact s.cookieFree_setTimeOut c tmo
  | setHeaderCallback => exact s.cookieFree_setHeaderCallback c
  | addStatus code => exact s.cookieFree_addTo c _
  | addMethod meth => exact s.cookieFree_addTo c _
  | addKnownHeader name val => exact s.cookieFree_addTo c _
  | addHeader name val => exact s.cookieFree_addTo c _
  | sendUpgrade val => exact s.cookieFree_sendUpgrade c val

/-- On a server, nothing but a read has to do with cookies. -/
theorem cookieFree_act (codes : HuffDecodeCodes) (s : KHttp2) (e : Event)
    (henabled : s.enabled e = true) (hserver : s.clientModel = false)
    (hread : ∀ chunk, e ≠ .read chunk) : CookieFree s (act codes s e) := by
  cases e with
  | read chunk => exact absurd rfl (hread chunk)
  | readTimeOut => exact s.cookieFree_onReadTimeOut
  | readError => exact s.cookieFree_close true _
  | nextWrite => exact s.cookieFree_tryWrite
  | written got => exact s.cookieFree_onWriteResult got
  | writeError => exact s.cookieFree_close false _
  | tick msec => exact .of_fields rfl rfl rfl rfl
  | call c op => exact s.cookieFree_call c op
  | connect => simp [enabled, hserver] at henabled
  | getAdminStream => simp [enabled, hserver] at henabled
  | destroyPooled c => simp [enabled, hserver] at henabled

end KHttp2

end Khttpd
