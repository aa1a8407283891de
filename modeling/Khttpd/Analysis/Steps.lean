import Khttpd.Analysis.Writers

/-!
# Every step is a path

The handlers and the events of a connection are sequences of moves. Where a step can slip, the
condition for it is said in terms of the state before the handler or the call that slips.
-/

set_option autoImplicit false

namespace Khttpd

namespace KHttp2

/-! ## Where the source slips -/

/-- The stream that a call of `state_headers` takes off the queue. -/
def headersTarget (s : KHttp2) (p : Bytes) : Option CtxId :=
  let padded := hasFlag s.state.flags paddedFlag
  let priority := hasFlag s.state.flags priorityFlag
  let size := (if padded then 1 else 0) + (if priority then 5 else 0)
  let padding := if padded then (p.getD 0 0).toNat else 0
  let depend := if priority then parseSid (p.drop (if padded then 1 else 0)) else 0
  let sid := s.state.sid
  if s.state.length ≤ size || p.length < size || padding > s.state.length - size then none
  else if !s.clientModel &&
      (sid % 2 = 0 || sid < s.lastPeerSid || s.selfGoaway || depend = sid) then none
  else (s.getNode sid).map KHttp2Node.stream

/-- A call of `state_headers` that opens a stream under the last identifier that the peer used. -/
def reopensSid (s : KHttp2) (p : Bytes) : Bool :=
  let padded := hasFlag s.state.flags paddedFlag
  let priority := hasFlag s.state.flags priorityFlag
  let size := (if padded then 1 else 0) + (if priority then 5 else 0)
  let padding := if padded then (p.getD 0 0).toNat else 0
  let depend := if priority then parseSid (p.drop (if padded then 1 else 0)) else 0
  let sid := s.state.sid
  if s.state.length ≤ size || p.length < size || padding > s.state.length - size then false
  else if s.clientModel || sid % 2 = 0 || s.selfGoaway || depend = sid then false
  else sid = s.lastPeerSid && (s.getNode sid).isNone

/-- A call of a fiber that gives its stream a node, because it sends the first header. -/
def linksNode (s : KHttp2) (c : CtxId) (op : Op) : Bool :=
  s.clientModel && (s.ctx c).node.isNone && s.readProcessing &&
  match op with
  | .write .. | .sendfile .. | .writeEnd => !s.isWriteClosed c && (s.ctx c).sendHeader.isSome
  | .startResponseBody .. | .readHeaders => (s.ctx c).sendHeader.isSome
  | .addTrailer .. => (s.ctx c).sendHeader.isSome && !(s.ctx c).writeTrailer
  | _ => false

/-- The state in which a step ends, but for the last calls of `on_read_result`. -/
def received (codes : HuffDecodeCodes) (s : KHttp2) (e : Event) : KHttp2 :=
  match e with
  | .read chunk => (receive codes { s with pinged := false } chunk).1
  | _ => s

/-- Whether a call of a handler calls `ReleaseStateStream`: `state_complete` does, and every call
that deletes the connection. -/
def callReleases (codes : HuffDecodeCodes) (call : Handler × KHttp2 × Bytes) : Prop :=
  call.1 = .stateComplete ∨ (exec codes call.1 call.2.1 call.2.2).1.deleted = true

/-- When a step slips. -/
def slipsIn (codes : HuffDecodeCodes) (s : KHttp2) (e : Event) (slip : Slip) : Prop :=
  match slip with
  | .dropIncomplete =>
    (∃ call ∈ stepCalls codes s e, call.2.1.incomplete = true ∧ callReleases codes call) ∨
      (received codes s e).incomplete = true ∧ (step codes s e).deleted = true
  | .unqueueWriter =>
    ∃ call ∈ stepCalls codes s e, call.1 = .stateHeaders ∧
      ∃ c, headersTarget call.2.1 call.2.2 = some c ∧
        (call.2.1.ctx c).waitsForWindow = true
  | .staleWindow =>
    ∃ c op, e = .call c op ∧ s.linksNode c op = true ∧ (s.ctx c).rst = false ∧
      (s.initWindow : ℤ) < (s.ctx c).sendWindow
  | .reuseSid =>
    ∃ call ∈ stepCalls codes s e, call.1 = .stateHeaders ∧ call.2.1.reopensSid call.2.2 = true

/-! ## Paths -/

section Paths

variable {slips : Slip → Prop}

/-- A quiet step is a path. -/
theorem path_quiet {s t : KHttp2} (h : Quiet s t) : Path slips s t := .single (.sending (.quiet h))

/-- A calm step is a path. -/
theorem path_calm {s t : KHttp2} (h : Calm s t) : Path slips s t := path_quiet h.quiet

/-- Steps of writers are a path. -/
theorem path_sends {s t : KHttp2} (h : Sends s t) : Path slips s t := by
  induction h with
  | refl => exact .refl
  | tail _ h ih => exact ih.tail (.sending h)

/-- A quiet step does not complete the header block of the parser. -/
theorem incomplete_of_quiet {s t : KHttp2} (h : Quiet s t) : t.incomplete = s.incomplete := by
  have hparsed : ∀ c, (t.ctx c).parsedHeader = (s.ctx c).parsedHeader :=
    fun c => (h.ctx c).parsedHeader
  simp only [incomplete, h.clientModel, h.stream, hparsed]

/-- `~KHttp2Sink` is calm on a server up to its call of `release`. -/
theorem calm_sinkEnd (s : KHttp2) (c : CtxId) (hserver : s.clientModel = false) :
    Calm s (s.sinkEnd c) := by
  unfold sinkEnd
  split
  · exact s.calm_shutdown c
  · extract_lets s1
    have h1 : Calm s s1 := by
      dsimp only [s1]
      split
      · exact calm_modify ⟨rfl, rfl, rfl, rfl, id, id, id, Or.inl, Or.inl⟩
      · exact .refl s
    exact h1.trans (calm_writeEnd _ c (Or.inl (h1.clientModel.trans hserver)))

/-- `ReleaseStateStream` is a path; it slips when the header block is not complete. -/
theorem path_releaseStateStream (s : KHttp2)
    (hslip : s.incomplete = true → slips .dropIncomplete) : Path slips s s.releaseStateStream := by
  unfold releaseStateStream
  split
  · exact .refl
  · rename_i c hstream
    extract_lets s1 s2 s3
    by_cases hopen : (!(s.ctx c).parsedHeader && !s.clientModel) = true
    · obtain ⟨hparsed, hserver⟩ : (s.ctx c).parsedHeader = false ∧ s.clientModel = false := by
        simpa only [Bool.and_eq_true, Bool.not_eq_true'] using hopen
      have hincomplete : s.incomplete = true := by
        simp only [incomplete, hserver, hstream, Option.any_some, hparsed, Bool.not_false,
          Bool.and_true]
      have hsink := s.calm_sinkEnd c hserver
      have hfault : Quiet s1 s2 := by
        dsimp only [s2]
        split
        · exact s1.calm_setFault.quiet
        · exact .refl s1
      simp only [s3, if_pos hopen]
      refine (path_calm hsink).tail (.drop c (hslip hincomplete) (hsink.clientModel.trans hserver)
        ?_ ((hsink.ctx c).parsedHeader.trans hparsed) hfault)
      exact (congrArg ParserState.stream hsink.state).trans hstream
    · simp only [s3, if_neg hopen]
      exact .single .letGo

/-- `~KHttp2` is a path. -/
theorem path_delete (s : KHttp2) (hslip : s.incomplete = true → slips .dropIncomplete) :
    Path slips s s.delete := by
  unfold delete
  extract_lets s1 taken
  have h1 : Path slips s s1 := s.path_releaseStateStream hslip
  have h2 : Quiet s1 { s1 with writeBuffer := taken.1 } := .of_view rfl rfl rfl id
  have h3 := ({ s1 with writeBuffer := taken.1 } : KHttp2).calm_removeBuff taken.2 true
  exact (h1.trans (path_quiet (h2.trans h3.quiet))).tail .delete

/-- The test whether the connection can go, and its end, are a path. -/
theorem path_tryDelete (s : KHttp2)
    (hslip : s.incomplete = true → s.tryDelete.deleted = true → slips .dropIncomplete) :
    Path slips s s.tryDelete := by
  unfold tryDelete at hslip ⊢
  split
  · rename_i hdestroy
    rw [if_pos hdestroy] at hslip
    exact s.path_delete fun h => hslip h rfl
  · exact .refl

/-- `close` is a path. -/
theorem path_close (s : KHttp2) (read : Bool) (status : ℕ)
    (hslip : s.incomplete = true → (s.close read status).deleted = true → slips .dropIncomplete) :
    Path slips s (s.close read status) := by
  have hcalm := s.calm_closeStreams read status
  refine (path_calm hcalm).trans (path_tryDelete _ fun h => ?_)
  rw [incomplete_of_quiet hcalm.quiet] at h
  exact hslip h

/-- A handler is a path, which slips only where it deletes the connection inside a header
block. -/
def PathOut (slips : Slip → Prop) (s : KHttp2) (r : KHttp2 × Ret) : Prop :=
  (s.incomplete = true → r.1.deleted = true → slips .dropIncomplete) → Path slips s r.1

/-- A path that a handler takes. -/
theorem PathOut.of_path {s : KHttp2} {r : KHttp2 × Ret} (h : Path slips s r.1) :
    PathOut slips s r :=
  fun _ => h

/-- A quiet step that a handler takes. -/
theorem PathOut.of_quiet {s : KHttp2} {r : KHttp2 × Ret} (h : Quiet s r.1) : PathOut slips s r :=
  .of_path (path_quiet h)

/-- A quiet step before a handler. -/
theorem PathOut.after {s t : KHttp2} {r : KHttp2 × Ret} (h : Quiet s t) (hr : PathOut slips t r) :
    PathOut slips s r :=
  fun hslip => (path_quiet h).trans (hr fun ht => hslip (incomplete_of_quiet h ▸ ht))

/-- Ending the connection. -/
theorem pathOut_fail (s : KHttp2) (status : ℕ) : PathOut slips s (s.fail status) :=
  s.path_close true status

/-- A handler that was quiet, up to `close` where it ends the connection, is a path. -/
theorem pathOut_of_quietOut {s : KHttp2} {r : KHttp2 × Ret} (h : QuietOut s r) :
    PathOut slips s r := by
  rcases h with h | ⟨t, status, ht, rfl⟩
  · exact .of_quiet h
  · exact .after ht (t.pathOut_fail status)

/-! ## The handlers that are not quiet -/

/-- The window test of DATA is quiet. -/
theorem quiet_useRecvWindow (s : KHttp2) : Quiet s s.useRecvWindow.1 := by
  unfold useRecvWindow
  extract_lets s1 r
  have h1 : Quiet s s1 := .of_view rfl rfl rfl id
  split
  · have hr : Quiet s1 r.1 := (s1.calm_sendWindowUpdate _ _ _).quiet
    exact h1.trans (hr.trans (.of_view rfl rfl rfl id))
  · exact h1

/-- Starting to write is quiet. -/
theorem quiet_ite_startWrite (s : KHttp2) (b : Bool) :
    Quiet s (if b then s.startWrite else s) := by
  split
  · exact s.calm_startWrite.quiet
  · exact .refl s

/-- `state_skip_padded` is quiet. -/
theorem quiet_stateSkipPadded (s : KHttp2) (p : Bytes) : Quiet s (s.stateSkipPadded p).1 := by
  unfold stateSkipPadded
  dsimp only
  exact s.quiet_setState rfl

/-- DATA takes hold of a stream that has its header, or is quiet. -/
theorem path_dataStream {s : KHttp2} (hs : Sound s) (flag : Bool) (p : Bytes) :
    Path slips s (s.dataStream flag p).1 := by
  unfold dataStream
  split
  · exact path_quiet ((s.quiet_ite_startWrite flag).trans (quiet_stateSkipPadded _ p))
  · rename_i sid c hnode
    have hlinked : (s.ctx c).node.isSome := by
      rw [node_of_getNode hs.good hnode]
      rfl
    split
    · exact path_quiet ((s.calm_terminateStream c _).quiet.trans (quiet_stateSkipPadded _ p))
    · rename_i hheader
      have hparsed : (s.ctx c).parsedHeader = true := by simpa using hheader
      split
      · exact path_quiet ((s.calm_terminateStream c _).quiet.trans (quiet_stateSkipPadded _ p))
      · extract_lets s1 r s2
        have h1 : Quiet s s1 := quiet_modify ⟨rfl, rfl, rfl, rfl, id, id, id, Or.inl, Or.inl⟩
        split
        · have hr : Quiet s1 r.1 := (s1.calm_terminateStream c _).quiet
          refine path_quiet (h1.trans (hr.trans ?_))
          exact (r.1.quiet_ite_startWrite (!r.2 && flag)).trans (quiet_stateSkipPadded _ p)
        · have hlinked1 : (s1.ctx c).node.isSome := (h1.ctx c).node ▸ hlinked
          have hparsed1 : (s1.ctx c).parsedHeader = true := (h1.ctx c).parsedHeader.trans hparsed
          refine ((path_quiet h1).tail (.hold c hlinked1 (.inl hparsed1))).trans ?_
          exact path_quiet (s2.quiet_ite_startWrite flag)

theorem pathOut_dataFlow {s : KHttp2} (hs : Sound s) (p : Bytes) :
    PathOut slips s (s.dataFlow p) := by
  unfold dataFlow
  split
  · exact s.pathOut_fail _
  · extract_lets r
    have hr : Quiet s r.1 := s.quiet_useRecvWindow
    exact .after hr (.of_path (path_dataStream (hs.quiet hr) r.2 p))

theorem pathOut_stateData {s : KHttp2} (hs : Sound s) (p : Bytes) :
    PathOut slips s (s.stateData p) := by
  unfold stateData
  split
  · split
    · exact s.pathOut_fail _
    · split
      · exact pathOut_of_quietOut (s.stillOut_stateSave _ _).quiet
      · extract_lets s1
        have h1 : Quiet s s1 := s.quiet_setState rfl
        refine .after h1 ?_
        split
        · exact s1.pathOut_fail _
        · have h2 : Quiet s1 (s1.setState fun st => { st with length := st.length - st.padding }) :=
            s1.quiet_setState rfl
          exact .after h2 (pathOut_dataFlow (hs.quiet (h1.trans h2)) _)
  · exact pathOut_dataFlow hs p

/-- Trailers or a response header take hold of the stream, which may slip out of the queue. -/
theorem path_headersForStream {s : KHttp2} {c : CtxId} (p : Bytes)
    (hnode : (s.ctx c).node.isSome)
    (hlast : s.clientModel = true ∨ ∃ sid, (s.ctx c).node = some sid ∧ s.lastPeerSid ≤ sid)
    (hslip : (s.ctx c).waitsForWindow = true → slips .unqueueWriter) :
    Path slips s (s.headersForStream c p).1 := by
  unfold headersForStream
  extract_lets s1 s2 fin
  have h1 : Path slips s s1 := by
    cases hwaits : (s.ctx c).waitsForWindow with
    | false => exact path_calm (calm_removeQueue (Or.inl hwaits))
    | true => exact .single (.unqueue c (hslip hwaits))
  split
  · exact h1
  · have h2 : Path slips s1 (s1.setState fun st => { st with stream := some c }) :=
      .single (.hold c hnode (.inr hlast))
    have h3 : Quiet (s1.setState fun st => { st with stream := some c }) s2 := by
      have hset := (s1.setState fun st => { st with stream := some c }).quiet_setState
        (f := fun st => { st with pool := some c, keepPool := true }) rfl
      exact hset
    have h4 : Quiet s2 (s2.modify c fun ctx => { ctx with inClosed := fin }) :=
      quiet_modify ⟨rfl, rfl, rfl, rfl, id, id, id, Or.inl, Or.inl⟩
    exact h1.trans (h2.trans (path_quiet (h3.trans (h4.trans (quiet_logEnd _ c fin)))))

theorem pathOut_headersStream {s : KHttp2} (hs : Sound s) (depend : ℕ) (p : Bytes)
    (hslip : ∀ c, (s.getNode s.state.sid).map KHttp2Node.stream = some c →
      (s.clientModel = true ∨ ¬(s.state.sid % 2 = 0 ∨ s.state.sid < s.lastPeerSid) ∧
        s.selfGoaway = false ∧ depend ≠ s.state.sid) →
      (s.ctx c).waitsForWindow = true → slips .unqueueWriter)
    (hreuse : s.clientModel = false → ¬(s.state.sid % 2 = 0 ∨ s.state.sid < s.lastPeerSid) →
      s.selfGoaway = false → depend ≠ s.state.sid → s.getNode s.state.sid = none →
      s.state.sid = s.lastPeerSid → slips .reuseSid) :
    PathOut slips s (s.headersStream depend p) := by
  unfold headersStream
  extract_lets sid s1
  split
  · rename_i hclient
    split
    · exact .of_quiet (.refl s)
    · rename_i id c hnode
      have hlinked : (s.ctx c).node.isSome := by
        rw [node_of_getNode hs.good hnode]
        rfl
      refine .of_path (path_headersForStream p hlinked (.inl hclient) (hslip c ?_ (Or.inl hclient)))
      simp only [sid] at hnode
      rw [hnode]
      rfl
  · rename_i hserver
    split
    · exact s.pathOut_fail _
    · rename_i hsid
      split
      · exact .of_quiet (s.calm_sendRstStream _ _ _).quiet
      · rename_i hgoaway
        have hserver' : s.clientModel = false := Bool.eq_false_iff.mpr hserver
        have hle : s.lastPeerSid ≤ sid := Nat.le_of_not_lt fun h => hsid (Or.inr h)
        have h1 : Path slips s s1 := .single (.peerSid sid hserver' hle)
        split
        · exact .of_path (h1.trans (path_calm (s1.calm_sendRstStream _ _ _)))
        · rename_i hdepend
          split
          · rename_i id c hnode
            have hnode' : s.getNode s.state.sid = some ⟨id, c⟩ := hnode
            have hheld : (s1.ctx c).node = some sid := node_of_getNode hs.good hnode'
            have hlinked : (s1.ctx c).node.isSome := by
              rw [hheld]
              rfl
            refine .of_path (h1.trans (path_headersForStream p hlinked
              (.inr ⟨sid, hheld, Nat.le_refl _⟩) (hslip c ?_ (Or.inr ⟨hsid, ?_, hdepend⟩))))
            · rw [hnode']
              rfl
            · exact Bool.eq_false_iff.mpr hgoaway
          · rename_i hnode
            refine .of_path (.single (.openStream p hserver' hnode ?_))
            rcases Nat.lt_or_eq_of_le hle with hlt | heq
            · exact .inr hlt
            · exact .inl (hreuse hserver' hsid (Bool.eq_false_iff.mpr hgoaway) hdepend
                hnode heq.symm)

/-- The stream that `state_headers` takes off the queue, when the frame gets that far. -/
theorem headersTarget_eq {s : KHttp2} {p : Bytes}
    (hshort :
      let padded := hasFlag s.state.flags paddedFlag
      let priority := hasFlag s.state.flags priorityFlag
      let size := (if padded then 1 else 0) + (if priority then 5 else 0)
      (s.state.length ≤ size || p.length < size ||
        (if padded then (p.getD 0 0).toNat else 0) > s.state.length - size) = false)
    (hrefuse :
      let padded := hasFlag s.state.flags paddedFlag
      let priority := hasFlag s.state.flags priorityFlag
      let depend := if priority then parseSid (p.drop (if padded then 1 else 0)) else 0
      (!s.clientModel && (s.state.sid % 2 = 0 || s.state.sid < s.lastPeerSid || s.selfGoaway ||
        depend = s.state.sid)) = false) :
    s.headersTarget p = (s.getNode s.state.sid).map KHttp2Node.stream := by
  simp only at hshort hrefuse
  simp only [headersTarget, hshort, hrefuse, Bool.false_eq_true, if_false]

/-- The frame opens the last stream again, when it gets that far. -/
theorem reopensSid_eq {s : KHttp2} {p : Bytes}
    (hshort :
      let padded := hasFlag s.state.flags paddedFlag
      let priority := hasFlag s.state.flags priorityFlag
      let size := (if padded then 1 else 0) + (if priority then 5 else 0)
      (s.state.length ≤ size || p.length < size ||
        (if padded then (p.getD 0 0).toNat else 0) > s.state.length - size) = false)
    (hserver : s.clientModel = false) (hodd : ¬s.state.sid % 2 = 0) (hstay : s.selfGoaway = false)
    (hdepend :
      let padded := hasFlag s.state.flags paddedFlag
      let priority := hasFlag s.state.flags priorityFlag
      (if priority then parseSid (p.drop (if padded then 1 else 0)) else 0) ≠ s.state.sid)
    (hlast : s.state.sid = s.lastPeerSid) (hnone : s.getNode s.state.sid = none) :
    s.reopensSid p = true := by
  simp only at hshort hdepend
  simp only [reopensSid, hshort, hserver, hstay, Bool.false_eq_true, if_false, hdepend, hodd,
    decide_false, Bool.or_self, hnone, Option.isNone_none, Bool.and_true, decide_eq_true_eq]
  exact hlast

/-- HEADERS opens a stream, or takes hold of one, which may slip out of the queue. -/
theorem pathOut_stateHeaders {s : KHttp2} (hs : Sound s) (p : Bytes)
    (hslip : ∀ c, s.headersTarget p = some c → (s.ctx c).waitsForWindow = true →
      slips .unqueueWriter) (hreuse : s.reopensSid p = true → slips .reuseSid) :
    PathOut slips s (s.stateHeaders p) := by
  unfold stateHeaders
  extract_lets s1 padded priority size s2 s3 s4 depend
  have h1 : Quiet s s1 := s.quiet_setState rfl
  refine .after h1 ?_
  split
  · exact s1.pathOut_fail _
  · rename_i hlt
    split
    · exact s1.pathOut_fail _
    · rename_i hne
      split
      · exact pathOut_of_quietOut (s1.stillOut_stateSave _ _).quiet
      · rename_i hlength
        have h2 : Quiet s1 s2 := s1.quiet_setState rfl
        have h3 : Quiet s2 s3 := by
          dsimp only [s3]
          split
          · exact s2.quiet_setState rfl
          · exact .refl s2
        refine .after (h2.trans h3) ?_
        split
        · exact s3.pathOut_fail _
        · rename_i hpadding
          have h4 : Quiet s3 s4 := by
            dsimp only [s4]
            split
            · exact s3.quiet_setState rfl
            · exact .refl s3
          have h := h1.trans (h2.trans (h3.trans h4))
          have hpad : padded = true → s3.state.padding = (p.getD 0 0).toNat := fun hp => by
            simp only [s3, hp, if_true, setState]
          have hrest : s3.state.length = s.state.length - size := by
            dsimp only [s3]
            split <;> rfl
          have hstate : s4.state.sid = s.state.sid ∧ s4.lastPeerSid = s.lastPeerSid ∧
              s4.selfGoaway = s.selfGoaway ∧ s4.clientModel = s.clientModel ∧
              s4.getNode = s.getNode := by
            dsimp only [s4, s3]
            split <;> exact ⟨rfl, rfl, rfl, rfl, rfl⟩
          obtain ⟨hsid, hpeer, hgoaway, hclient, hget⟩ := hstate
          have hshort : (s.state.length ≤ size || p.length < size ||
              (if padded then (p.getD 0 0).toNat else 0) > s.state.length - size) = false := by
            simp only [Bool.or_eq_false_iff, decide_eq_false_iff_not]
            refine ⟨⟨?_, hlength⟩, ?_⟩
            · have heq : s1.state.length = s.state.length := rfl
              omega
            · split
              · rename_i hp
                rw [← hpad hp, ← hrest]
                simpa [hp] using hpadding
              · omega
          refine .after h4 (pathOut_headersStream (hs.quiet h) _ _ (fun c hc hcase hwaits => ?_)
            fun hserver hodd hstay hdepend hnone hlast => hreuse ?_)
          · refine hslip c ?_ ((h.ctx c).waits hwaits)
            rw [hsid, hpeer, hgoaway, hclient] at hcase
            rw [hsid, hget] at hc
            have hrefuse : (!s.clientModel && (s.state.sid % 2 = 0 ||
                s.state.sid < s.lastPeerSid || s.selfGoaway || depend = s.state.sid)) = false := by
              rcases hcase with hcase | ⟨hodd, hstay, hdepend⟩
              · simp [hcase]
              · simp only [not_or] at hodd
                simp [hodd.1, hodd.2, hstay, hdepend]
            exact (headersTarget_eq hshort hrefuse).trans hc
          · rw [hclient] at hserver
            rw [hgoaway] at hstay
            rw [hsid, hpeer] at hodd hlast
            rw [hsid] at hdepend
            rw [hsid, hget] at hnone
            exact reopensSid_eq hshort hserver (not_or.mp hodd).1 hstay hdepend hlast hnone

/-- Joining the cookies is left to the parser. -/
theorem still_constructCookieHeader (s : KHttp2) (c : CtxId) :
    Still s (s.constructCookieHeader c) := by
  unfold constructCookieHeader
  split
  · exact .refl s
  · exact (s.still_log rfl rfl).trans (still_sinkParseHeader _ _ _ _)

/-- The end of a header block starts a request, or completes a response or trailers. -/
theorem path_headerSuccess {s : KHttp2} {c : CtxId} (hstream : s.state.stream = some c) :
    Path slips s (s.headerSuccess c) := by
  unfold headerSuccess
  extract_lets s1 s2 e s3
  have h1 : Quiet s s1 := by
    dsimp only [s1]
    split
    · exact .refl s
    · exact (s.still_constructCookieHeader c).quiet
  have hlog : Quiet s1 (s1.log (.headerSuccess c)) := s1.quiet_log rfl
  refine (path_quiet (h1.trans hlog)).trans ?_
  split
  · refine .head (.letGo) (path_quiet (Quiet.trans (quiet_modify ?_) (calm_onRead _ _ _ _).quiet))
    exact ⟨rfl, rfl, rfl, rfl, id, id, id, Or.inl, Or.inl⟩
  · rename_i hstart
    obtain ⟨hserver, hparsed⟩ : s2.clientModel = false ∧ (s2.ctx c).parsedHeader = false := by
      simpa only [Bool.or_eq_true, not_or, Bool.not_eq_true] using hstart
    exact .single (.start c hserver (((h1.trans hlog).stream).trans hstream) hparsed)

/-- `on_header_success`. -/
theorem path_onHeaderSuccess {s : KHttp2} {c : CtxId} (hstream : s.state.stream = some c) :
    Path slips s (s.onHeaderSuccess c) := by
  unfold onHeaderSuccess
  extract_lets ctx s1 s2
  have h1 : Quiet s s1 := by
    dsimp only [s1]
    split
    · exact s.quiet_log rfl
    · exact .refl s
  have hstream1 : s1.state.stream = some c := h1.stream.trans hstream
  refine (path_quiet h1).trans ?_
  split
  · refine path_quiet (Quiet.trans (quiet_modify ?_) (calm_onRead _ _ _ _).quiet)
    exact ⟨rfl, rfl, rfl, rfl, id, id, id, Or.inl, Or.inl⟩
  · have h2 : Path slips s1 s2 ∧ s2.state.stream = some c := by
      dsimp only [s2]
      split
      · exact ⟨.single (.response c ‹_›), hstream1⟩
      · exact ⟨.refl, hstream1⟩
    refine h2.1.trans ?_
    split
    · exact path_headerSuccess h2.2
    · exact .refl

theorem pathOut_stateHeaderComplete (s : KHttp2) (p : Bytes) :
    PathOut slips s (s.stateHeaderComplete p) := by
  unfold stateHeaderComplete
  split
  · exact .of_quiet (.refl s)
  · split
    · exact pathOut_of_quietOut (s.stillOut_handleContinuation _ _).quiet
    · extract_lets s1
      have h1 : Path slips s s1 := by
        dsimp only [s1]
        split
        · exact .refl
        · rename_i c hstream
          exact path_onHeaderSuccess hstream
      refine .of_path (h1.trans (path_quiet ?_))
      have h2 : Quiet s1 (s1.setState fun st => { st with pool := none, keepPool := false }) :=
        s1.quiet_setState rfl
      refine h2.trans ?_
      unfold endFrame
      split
      · exact quiet_stateSkipPadded _ p
      · exact .refl _

/-! ## Windows -/

/-- After `check_write_wait` every writer waits for a window that is used up. -/
theorem parked_checkWriteWait {s : KHttp2} (hs : Sound s) : Parked s.checkWriteWait := by
  intro c hwaits
  have hlow := lower_sends hs (sends_checkWriteWaitLoop s.allNodes hs)
  exact parked_checkWriteWaitLoop s.allNodes hs
    (mem_allNodes_of_node hs.good (hs.waiting c (hlow.waits c hwaits))) hwaits

/-- `adjust_windows` is a change of windows. -/
theorem path_adjustWindows {s : KHttp2} (hs : Sound s) {value : ℕ} (hvalue : value ≤ maxWindow) :
    Path slips s ((s.log (.setting 4 value)).adjustWindows value) := by
  have hchange : WindowChange s _ := .initial value hvalue
  have hsound := hs.windowChange hchange
  exact .single (.windows hchange (sends_checkWriteWaitLoop _ hsound)
    fun _ => parked_checkWriteWait hsound)

/-- A change of windows that no writer waits for. -/
theorem path_windowChange {s t : KHttp2} (hchange : WindowChange s t)
    (hparked : Parked s → Parked t) : Path slips s t :=
  .single (.windows hchange .refl hparked)

/-- Extended CONNECT is no matter of streams and windows. -/
theorem quiet_enableConnect (s : KHttp2) (b : Bool) : Quiet s { s with enableConnect := b } :=
  .of_view rfl rfl rfl fun h => h

theorem pathOut_stateSettingsParams {s : KHttp2} (hs : Sound s) (p : Bytes) :
    PathOut slips s (s.stateSettingsParams p) := by
  unfold stateSettingsParams
  split
  · exact .of_quiet (.refl s)
  · split
    · exact pathOut_of_quietOut (s.stillOut_stateSave _ _).quiet
    · extract_lets s1 id value next
      have h1 : Quiet s s1 := s.quiet_setState rfl
      have hs1 := hs.quiet h1
      refine .after h1 ?_
      clear_value id value
      split
      · split
        · exact s1.pathOut_fail _
        · exact .of_path (path_adjustWindows hs1 (Nat.le_of_not_lt ‹_›))
      · split
        · exact s1.pathOut_fail _
        · rename_i hrange
          rw [not_or] at hrange
          exact .of_path (path_windowChange (.frame value (Nat.le_of_not_lt hrange.2)
            (Nat.le_of_not_lt hrange.1)) fun h => h)
      · have hlog : WindowChange s1 (s1.log (.setting 8 value)) :=
          .other 8 value (by decide) (by decide)
        exact .of_path ((path_windowChange hlog fun h => h).trans
          (path_quiet (quiet_enableConnect _ _)))
      · rename_i hinit hframe hconnect
        exact .of_path (path_windowChange (.other _ _ hinit hframe) fun h => h)

/-- WINDOW_UPDATE of a stream. -/
theorem path_streamWindowUpdate {s : KHttp2} (hs : Sound s) (window : ℕ) :
    Path slips s (s.streamWindowUpdate window) := by
  unfold streamWindowUpdate
  split
  · exact .refl
  · rename_i id c hnode
    have hlinked : (s.ctx c).node.isSome := by
      rw [node_of_getNode hs.good hnode]
      rfl
    split
    · exact path_calm (s.calm_terminateStream c _)
    · rename_i hroom
      extract_lets s1 s2
      have hchange : WindowChange s s2 := .stream c window hlinked (Nat.le_of_not_lt hroom)
      have hs2 := hs.windowChange hchange
      have hother : ∀ c', c' ≠ c → s2.ctx c' = s.ctx c' := fun c' hc => by
        simp only [s2, s1, modify, log, Function.update_of_ne hc]
      split
      · rename_i hwaits
        have hsends := sends_onWriteWindowReady hs2 hwaits
        have hlow := lower_sends hs2 hsends
        refine .single (.windows hchange hsends fun hparked c' hc' => ?_)
        by_cases hc : c' = c
        · subst hc
          exact parked_onWriteWindowReady hs2 hwaits hc'
        · have hbefore := hlow.waits c' hc'
          have hwindow := hlow.stream c'
          rw [hother c' hc] at hbefore hwindow
          rcases hparked c' hbefore with h | h
          · exact Or.inl (hwindow.trans h)
          · exact Or.inr (Nat.le_zero.mp (h ▸ hlow.conn))
      · rename_i hwaits
        refine path_windowChange hchange fun hparked c' hc' => ?_
        have hc : c' ≠ c := by
          rintro rfl
          exact hwaits hc'
        rw [hother c' hc] at hc' ⊢
        exact hparked c' hc'

theorem pathOut_stateWindowUpdate {s : KHttp2} (hs : Sound s) (p : Bytes) :
    PathOut slips s (s.stateWindowUpdate p) := by
  unfold stateWindowUpdate
  split
  · exact s.pathOut_fail _
  · split
    · exact pathOut_of_quietOut (s.stillOut_stateSave _ _).quiet
    · extract_lets window next src s1
      split
      · exact .of_path (path_streamWindowUpdate hs window)
      · split
        · exact s.pathOut_fail _
        · rename_i hroom
          have hchange : WindowChange s s1 := .conn window (Nat.le_of_not_lt hroom)
          have hs1 := hs.windowChange hchange
          refine .of_path ?_
          split
          · exact .single (.windows hchange (sends_checkWriteWaitLoop _ hs1)
              fun _ => parked_checkWriteWait hs1)
          · rename_i hzero
            refine path_windowChange hchange fun h c hwaits => Or.inl ?_
            exact (h c hwaits).resolve_right hzero

/-! ## All handlers, and the loop -/

/-- Every handler is a path. -/
theorem pathOut_exec (codes : HuffDecodeCodes) {h : Handler} {s : KHttp2} {p : Bytes}
    (hs : Sound s)
    (hcomplete : h = .stateComplete → s.incomplete = true → slips .dropIncomplete)
    (hheaders : h = .stateHeaders → ∀ c, s.headersTarget p = some c →
      (s.ctx c).waitsForWindow = true → slips .unqueueWriter)
    (hreuse : h = .stateHeaders → s.reopensSid p = true → slips .reuseSid) :
    PathOut slips s (exec codes h s p) := by
  cases hspecial : isSpecial h with
  | false => exact pathOut_of_quietOut (quietOut_exec codes hspecial s p)
  | true =>
    cases h with
    | stateData => exact pathOut_stateData hs p
    | stateHeaders => exact pathOut_stateHeaders hs p (hheaders rfl) (hreuse rfl)
    | stateHeaderComplete => exact s.pathOut_stateHeaderComplete p
    | stateSettingsParams => exact pathOut_stateSettingsParams hs p
    | stateWindowUpdate => exact pathOut_stateWindowUpdate hs p
    | stateComplete => exact .of_path (s.path_releaseStateStream (hcomplete rfl))
    | _ => cases hspecial

/-- The slips that a call of a handler may make. -/
def CallOk (slips : Slip → Prop) (codes : HuffDecodeCodes) (h : Handler) (s : KHttp2) (p : Bytes) :
    Prop :=
  (s.incomplete = true → callReleases codes (h, s, p) → slips .dropIncomplete) ∧
    (h = .stateHeaders → ∀ c, s.headersTarget p = some c →
      (s.ctx c).waitsForWindow = true → slips .unqueueWriter) ∧
    (h = .stateHeaders → s.reopensSid p = true → slips .reuseSid)

/-- The loop of `on_read_result` is a path. -/
theorem path_loop (codes : HuffDecodeCodes) {s : KHttp2} (hs : Sound s) (fuel : ℕ) (h : Handler)
    (p : Bytes)
    (hcalls : ∀ call ∈ Resumable.calls (exec codes) fuel h s p,
      CallOk slips codes call.1 call.2.1 call.2.2) :
    Path slips s (Resumable.run (exec codes) fuel h s p).1 := by
  refine Resumable.run_invariant (I := fun t => Path slips s t) (P := CallOk slips codes)
    (fun h t p ht hok => ?_) fuel h s p .refl hcalls
  refine ht.trans (pathOut_exec codes (hs.path ht) (fun hcomplete hopen => ?_) hok.2.1 hok.2.2
    fun hopen hdel => ?_)
  · exact hok.1 hopen (Or.inl hcomplete)
  · exact hok.1 hopen (Or.inr hdel)

/-- Storing the handler and the bytes kept for the next read is quiet. -/
theorem path_receive (codes : HuffDecodeCodes) {s : KHttp2} (hs : Sound s) (chunk : Bytes)
    (hcalls : ∀ call ∈ Resumable.calls (exec codes)
        (measure s.state.handler (s.state.buffer ++ chunk) + 1) s.state.handler
        (s.setState fun st => { st with buffer := [] }) (s.state.buffer ++ chunk),
      CallOk slips codes call.1 call.2.1 call.2.2) :
    Path slips s (receive codes s chunk).1 := by
  have hstart : Quiet s (s.setState fun st => { st with buffer := [] }) := s.quiet_setState rfl
  have hloop := path_loop codes (hs.quiet hstart) _ s.state.handler _ hcalls
  refine (path_quiet hstart).trans ?_
  unfold receive
  extract_lets p h s1
  split
  · rename_i t hrun
    rw [hrun] at hloop
    exact hloop
  · rename_i t h' kept hrun
    rw [hrun] at hloop
    have hstore : Quiet t (t.setState fun st => { st with handler := h', buffer := kept }) :=
      t.quiet_setState rfl
    exact hloop.trans (path_quiet hstore)

/-- `start_read` is a path. -/
theorem pathOut_startRead (s : KHttp2) (ret : Ret) : PathOut slips s (s.startRead, ret) := by
  unfold startRead
  extract_lets idle s1
  have h1 : Quiet s s1 := by
    dsimp only [s1]
    split
    · exact (s.calm_goaway _).quiet
    · exact .refl s
  refine .after h1 ?_
  split
  · exact s1.path_close true noError
  · exact .of_quiet (.refl s1)

/-! ## Calls of fibers -/

/-- Nothing is added to a stream without a header, or the stream gets its node. -/
theorem sendHeader_eq {s : KHttp2} {c : CtxId} (bodyEnd : Bool) (hread : s.readProcessing = true)
    (hclient : s.clientModel = true) (hnone : (s.ctx c).node = none) :
    s.sendHeader c bodyEnd = (s.linkNode c).sendHeader c bodyEnd := by
  have hlink : (s.clientModel && (s.ctx c).node.isNone) = true := by
    rw [hclient, hnone]
    rfl
  have hopen : (!s.readProcessing) = false := by
    rw [hread]
    rfl
  have hopen' : (!(s.linkNode c).readProcessing) = false := hopen
  have hlinked : ((s.linkNode c).ctx c).node = some (s.lastSelfSid + 2) := by
    simp only [linkNode, modify, Function.update_self]
  have hdone : ((s.linkNode c).clientModel && ((s.linkNode c).ctx c).node.isNone) = false := by
    rw [hlinked, Option.isNone_some, Bool.and_false]
  simp only [sendHeader, hopen, hopen', hlink, hdone, Bool.false_eq_true, if_false, if_true]
  rfl

/-- `send_header` gives a client stream its node, and is calm otherwise. -/
theorem path_sendHeader {s : KHttp2} {c : CtxId} (bodyEnd : Bool) (howner : c ∈ s.owners)
    (hslip : s.clientModel = true → (s.ctx c).node = none → s.readProcessing = true →
      slips .staleWindow ∨ (s.ctx c).rst = true ∨ (s.ctx c).sendWindow ≤ s.initWindow) :
    Path slips s (s.sendHeader c bodyEnd) := by
  by_cases hlink : s.clientModel = true ∧ (s.ctx c).node = none ∧ s.readProcessing = true
  · obtain ⟨hclient, hnone, hread⟩ := hlink
    rw [sendHeader_eq bodyEnd hread hclient hnone]
    refine .head (.linkNode c hclient hnone howner (hslip hclient hnone hread)) (path_calm ?_)
    refine calm_sendHeader _ c bodyEnd (Or.inr ?_)
    simp only [linkNode, modify, Function.update_self, Option.isSome_some]
  · cases hread : s.readProcessing with
    | false =>
      have hskip : s.sendHeader c bodyEnd = s := by
        simp only [sendHeader, hread, Bool.not_false, if_true]
      rw [hskip]
    | true =>
      refine path_calm (s.calm_sendHeader c bodyEnd ?_)
      cases hclient : s.clientModel with
      | false => exact Or.inl rfl
      | true =>
        refine Or.inr (Option.isSome_iff_ne_none.mpr fun hnone => ?_)
        exact hlink ⟨hclient, hnone, hread⟩

/-- A header that is sent leaves its stream linked and with the window it had. -/
theorem sendHeader_spec {s : KHttp2} {c : CtxId} (bodyEnd : Bool) (hread : s.readProcessing = true)
    (hsome : (s.ctx c).sendHeader.isSome) (hnode : s.clientModel = true ∨ (s.ctx c).node.isSome) :
    ((s.sendHeader c bodyEnd).ctx c).node.isSome ∧
      ((s.sendHeader c bodyEnd).ctx c).rst = (s.ctx c).rst := by
  have hlinked : ∀ t : KHttp2, t.readProcessing = true → (t.ctx c).sendHeader.isSome →
      (t.ctx c).node.isSome → ((t.sendHeader c bodyEnd).ctx c).node.isSome ∧
        ((t.sendHeader c bodyEnd).ctx c).rst = (t.ctx c).rst := by
    intro t htread htsome htnode
    obtain ⟨frame, hframe⟩ := Option.isSome_iff_exists.mp htsome
    obtain ⟨id, hid⟩ := Option.isSome_iff_exists.mp htnode
    have hopen : (!t.readProcessing) = false := by
      rw [htread]
      rfl
    have hlink : (t.clientModel && (t.ctx c).node.isNone) = false := by
      rw [hid, Option.isNone_some, Bool.and_false]
    have hstart : ∀ u : KHttp2, u.startWrite.ctx = u.ctx := fun u => by
      unfold startWrite
      split <;> rfl
    simp only [sendHeader, hopen, hlink, Bool.false_eq_true, if_false]
    simp only [hframe, hid, hstart, pushFrame, log, modify, Function.update_self,
      Option.isSome_some, and_self]
  by_cases hnone : (s.ctx c).node = none
  · have hclient := hnode.resolve_right fun h => Option.isSome_iff_ne_none.mp h hnone
    rw [sendHeader_eq bodyEnd hread hclient hnone]
    have hrest := hlinked (s.linkNode c) hread ?_ ?_
    · refine ⟨hrest.1, hrest.2.trans ?_⟩
      simp only [linkNode, modify, Function.update_self]
      rfl
    · simp only [linkNode, modify, Function.update_self]
      exact hsome
    · simp only [linkNode, modify, Function.update_self, Option.isSome_some]
  · exact hlinked s hread hsome (Option.isSome_iff_ne_none.mpr hnone)

/-- `build_write_buffer` replaces the write event of its stream. -/
theorem sendData_writeEvent (s : KHttp2) (c : CtxId) (w : Option WriteEvent) (e : WriteEvent)
    (len : ℕ) :
    (s.modify c fun ctx => { ctx with writeWait := w }).sendData c e len = s.sendData c e len := by
  simp only [sendData, modify, Function.update_self]
  by_cases hnode : (s.ctx c).node.isNone = true
  · simp only [hnode, if_true, setFault, Function.update_self, Function.update_idem]
  · simp only [hnode, if_false, Bool.false_eq_true, Function.update_self, Function.update_idem]

/-- A writer of a linked stream sends or starts to wait. -/
theorem path_writeEvent {s : KHttp2} (hs : Sound s) {c : CtxId} (e : WriteEvent)
    (hnode : (s.ctx c).node.isSome) (hrst : (s.ctx c).rst = false) :
    Path slips s ((s.modify c fun ctx =>
      { ctx with writeWait := some e }).onWriteWindowReady c) := by
  have hself : ((s.modify c fun ctx => { ctx with writeWait := some e }).ctx c) =
      { s.ctx c with writeWait := some e } := by
    simp only [modify, Function.update_self]
  have hwait : ((s.modify c fun ctx => { ctx with writeWait := some e }).ctx c).writeWait =
    some e := by
    rw [hself]
  rcases onWriteWindowReady_spec (hs.writeEvent e hnode) hwait with
    ⟨hused, heq⟩ | ⟨len, hpos, hframe, hstream, hconn, heq⟩
  · rw [heq]
    rw [hself] at hused
    exact .single (.wait c e hnode hrst hused)
  · rw [heq, sendData_writeEvent]
    rw [hself] at hstream
    refine .tail (.single (.sending (.send c e len hnode (Or.inr hrst) hpos hframe hstream hconn)))
      ?_
    exact .sending (.quiet (quiet_flushQueue_processing _ c))

/-- `write` and `sendfile` are paths. -/
theorem path_writeWait {s : KHttp2} (hs : Sound s) {c : CtxId}
    (hh : (s.ctx c).rst = true → (s.ctx c).outClosed = true) (sendfile : Bool) (buf : WaitBuf)
      (length : ℕ) (howner : c ∈ s.owners)
    (hopened : (s.ctx c).opened = true)
    (hslip : s.isWriteClosed c = false → (s.ctx c).sendHeader.isSome → s.clientModel = true →
      (s.ctx c).node = none → s.readProcessing = true →
      slips .staleWindow ∨ (s.ctx c).rst = true ∨ (s.ctx c).sendWindow ≤ s.initWindow) :
    Path slips s (s.writeWait c sendfile buf length).1 := by
  unfold writeWait
  extract_lets s1 s2 s3
  have h1 : Calm s s1 :=
    calm_modify ⟨rfl, rfl, rfl, rfl, id, id, fun h => Bool.noConfusion h, Or.inl, Or.inl⟩
  have hself : s1.ctx c = { s.ctx c with writeWait := none } := by
    simp only [s1, modify, Function.update_self]
  have hclosed : s1.isWriteClosed c = s.isWriteClosed c := by
    simp only [isWriteClosed, hself]
    rfl
  split
  · exact path_calm h1
  · rename_i hopen
    rw [hclosed] at hopen
    have hopen' : s.isWriteClosed c = false := Bool.eq_false_iff.mpr hopen
    obtain ⟨⟨hread, -⟩, hout⟩ : (s.readProcessing = true ∧ s.closed = false) ∧
        (s.ctx c).outClosed = false := by
      simpa only [isWriteClosed, Bool.or_eq_false_iff, Bool.not_eq_false'] using hopen'
    have hrst : (s1.ctx c).rst = false := by
      rw [hself]
      exact Bool.eq_false_iff.mpr fun h => Bool.false_ne_true (hout.symm.trans (hh h))
    have h2 : Path slips s1 s2 ∧ (s2.ctx c).node.isSome ∧ (s2.ctx c).rst = false := by
      dsimp only [s2]
      by_cases hsome : (s1.ctx c).sendHeader.isSome = true
      · rw [if_pos hsome]
        have hsome' : (s.ctx c).sendHeader.isSome = true := by
          rw [hself] at hsome
          exact hsome
        have hnode : s1.clientModel = true ∨ (s1.ctx c).node.isSome := by
          cases hclient : s1.clientModel with
          | true => exact Or.inl rfl
          | false =>
            rw [hself]
            exact Or.inr (((hs.served hclient).owned c howner).1)
        obtain ⟨hlinked, hsame⟩ := sendHeader_spec (s := s1) ((s1.ctx c).contentLeft = 0)
          hread hsome hnode
        refine ⟨path_sendHeader _ howner fun hclient hnone hread => ?_, hlinked, hsame.trans hrst⟩
        rw [hself] at hnone ⊢
        exact hslip hopen' hsome' hclient hnone hread
      · rw [if_neg hsome]
        refine ⟨.refl, ?_, hrst⟩
        have hor : (s.ctx c).node.isSome = true ∨ (s.ctx c).sendHeader.isSome = true := by
          simpa only [KHttp2Context.opened, Bool.or_eq_true] using hopened
        rw [hself] at hsome ⊢
        exact hor.resolve_right hsome
    have h3 : Quiet s2 (s2.modify c fun ctx => { ctx with sendfile := sendfile }) :=
      quiet_modify ⟨rfl, rfl, rfl, rfl, id, id, id, Or.inl, Or.inl⟩
    have hlog := (s2.modify c fun ctx => { ctx with sendfile := sendfile }).quiet_log
      (e := .waitWrite c) rfl
    have heq : s3.log (.waitWrite c) =
        ((s2.modify c fun ctx => { ctx with sendfile := sendfile }).log (.waitWrite c)).modify c
          fun ctx => { ctx with writeWait := some ⟨some buf, length, -1⟩ } := by
      simp only [s3, modify, log, Function.update_self, Function.update_idem]
    have hs2 := (hs.quiet h1.quiet).path h2.1
    show Path _ _ ((s3.log (.waitWrite c)).onWriteWindowReady c)
    rw [heq]
    refine (path_calm h1).trans (h2.1.trans ((path_quiet (h3.trans hlog)).trans ?_))
    refine path_writeEvent (hs2.quiet (h3.trans hlog)) _ ?_ ?_
    · exact ((h3.trans hlog).ctx c).node ▸ h2.2.1
    · simp only [modify, log, Function.update_self]
      exact h2.2.2

/-- Adding to a header block is quiet. -/
theorem quiet_addTo (s : KHttp2) (c : CtxId) (f : KHttp2HeaderFrame → KHttp2HeaderFrame) :
    Quiet s (s.addTo c f) :=
  quiet_modify ⟨rfl, rfl, rfl, rfl, id, id, id, Or.inl, Or.inl⟩

/-- `send_method_path` is quiet. -/
theorem quiet_sendMethodPath (s : KHttp2) (c : CtxId) (meth : ℕ) (path : Bytes) :
    Quiet s (s.sendMethodPath c meth path) := by
  unfold sendMethodPath
  extract_lets s1 s2
  have h1 : Quiet s s1 := s.quiet_addTo c _
  have h2 : Quiet s1 s2 := by
    dsimp only [s2]
    split
    · exact quiet_modify ⟨rfl, rfl, rfl, rfl, id, id, id, Or.inl, Or.inl⟩
    · exact .refl s1
  exact h1.trans (h2.trans (s2.quiet_addTo c _))

/-- `Expect` is quiet. -/
theorem quiet_sendExpect (s : KHttp2) (c : CtxId) (val : Bytes) : Quiet s (s.sendExpect c val) := by
  have h1 : Quiet s (s.modify c fun ctx => { ctx with hasExpect := true }) :=
    quiet_modify ⟨rfl, rfl, rfl, rfl, id, id, id, Or.inl, Or.inl⟩
  unfold sendExpect addHeader
  exact h1.trans (quiet_addTo _ c _)

/-- Reading a body is quiet on a linked stream. -/
theorem quiet_readBody (s : KHttp2) (c : CtxId) (len : ℕ) (hnode : (s.ctx c).node.isSome) :
    Quiet s (s.readBody c len) := by
  unfold readBody
  extract_lets s1 s2
  have h1 : Quiet s s1 := quiet_modify ⟨rfl, rfl, rfl, rfl, id, id, id, Or.inl, Or.inl⟩
  have h2 : Quiet s s2 := by
    dsimp only [s2]
    split
    · have h3 := h1.trans (s1.quiet_addTo c fun f => f.addStatus 100)
      refine h3.trans ?_
      simp only [startResponseBody, if_true]
      refine (calm_sendHeader _ c false (Or.inr ?_)).quiet
      exact (h3.ctx c).node ▸ hnode
    · exact .refl s
  exact h2.trans (s2.calm_read c len).quiet

/-- The window of a stream that gets its node is not larger than the initial window, or the run
slips. -/
def Fresh (slips : Slip → Prop) (s : KHttp2) (c : CtxId) : Prop :=
  s.clientModel = true → (s.ctx c).node = none → s.readProcessing = true →
    slips .staleWindow ∨ (s.ctx c).rst = true ∨ (s.ctx c).sendWindow ≤ s.initWindow

/-- An assignment to other fields of the stream does not change this. -/
theorem Fresh.modify {s : KHttp2} {c : CtxId} (h : Fresh slips s c)
    {f : KHttp2Context → KHttp2Context} (hnode : (f (s.ctx c)).node = (s.ctx c).node)
    (hrst : (f (s.ctx c)).rst = (s.ctx c).rst)
    (hwindow : (f (s.ctx c)).sendWindow = (s.ctx c).sendWindow) : Fresh slips (s.modify c f) c := by
  intro hclient hnone hread
  simp only [KHttp2.modify, Function.update_self, hnode, hrst, hwindow] at hnone ⊢
  exact h hclient hnone hread

/-- `write_end` is a path. -/
theorem path_writeEnd {s : KHttp2} {c : CtxId} (howner : c ∈ s.owners)
    (hslip : s.isWriteClosed c = false → (s.ctx c).sendHeader.isSome → Fresh slips s c) :
    Path slips s (s.writeEnd c) := by
  unfold writeEnd
  split
  · exact .refl
  · rename_i hopen
    have hopen' : s.isWriteClosed c = false := Bool.eq_false_iff.mpr hopen
    split
    · rename_i hheader
      have hsome : (s.ctx c).sendHeader.isSome = true := by
        simp only [Bool.and_eq_true] at hheader
        exact hheader.1
      have h1 : Quiet s (s.modify c fun ctx => ctx.setContentLength 0) :=
        quiet_modify ⟨rfl, rfl, rfl, rfl, id, id, id, Or.inl, Or.inl⟩
      exact (path_quiet h1).trans
        (path_sendHeader true howner ((hslip hopen' hsome).modify rfl rfl rfl))
    · extract_lets trailer s1
      have h1 : Calm s s1 := s.calm_pushEmptyData c _
      refine (path_calm h1).trans ?_
      split
      · rename_i htrailer
        refine path_sendHeader true (h1.owners ▸ howner) fun hclient hnone hread => ?_
        have hfresh := hslip hopen' htrailer (h1.clientModel ▸ hclient)
          ((h1.ctx c).node ▸ hnone) (h1.reading hread)
        rw [(h1.ctx c).sendWindow, h1.initWindow]
        exact hfresh.imp id fun h => h.imp (h1.ctx c).rst id
      · refine path_calm (Calm.trans (calm_modify ?_) (calm_startWrite _))
        exact ⟨rfl, rfl, rfl, rfl, fun _ => rfl, id, id, Or.inl, fun _ => Or.inr rfl⟩

/-- `start_response_body` is a path. -/
theorem path_startResponseBody {s : KHttp2} {c : CtxId} (bodySize : ℤ) (is100Continue : Bool)
    (howner : c ∈ s.owners) (hfresh : Fresh slips s c) :
    Path slips s (s.startResponseBody c bodySize is100Continue) := by
  unfold startResponseBody
  split
  · exact path_sendHeader false howner hfresh
  · extract_lets s1
    have h1 : Quiet s s1 := quiet_modify ⟨rfl, rfl, rfl, rfl, id, id, id, Or.inl, Or.inl⟩
    exact (path_quiet h1).trans (path_sendHeader _ howner (hfresh.modify rfl rfl rfl))

/-- `response_trailer` is a path. -/
theorem path_addTrailer {s : KHttp2} {c : CtxId} (name val : Bytes) (howner : c ∈ s.owners)
    (hslip : (s.ctx c).sendHeader.isSome → (s.ctx c).writeTrailer = false → Fresh slips s c) :
    Path slips s (s.addTrailer c name val) := by
  unfold addTrailer
  extract_lets s1 s2
  have h2 : Path slips s s2 := by
    dsimp only [s2]
    split
    · exact .refl
    · rename_i htrailer
      have h1 : Path slips s s1 := by
        dsimp only [s1]
        split
        · rename_i hsome
          exact path_sendHeader false howner (hslip hsome (Bool.eq_false_iff.mpr htrailer))
        · exact .refl
      refine h1.trans (path_quiet (quiet_modify ?_))
      exact ⟨rfl, rfl, rfl, rfl, id, id, id, Or.inl, Or.inl⟩
  exact h2.trans (path_quiet (s2.quiet_addTo c _))

/-- `read_header` is a path. -/
theorem path_readHeaders {s : KHttp2} {c : CtxId} (howner : c ∈ s.owners)
    (hslip : (s.ctx c).sendHeader.isSome → Fresh slips s c) : Path slips s (s.readHeaders c) := by
  unfold readHeaders
  extract_lets s1
  have h1 : Path slips s s1 := by
    dsimp only [s1]
    split
    · exact path_sendHeader _ howner (hslip ‹_›)
    · exact .refl
  exact h1.trans (path_calm (s1.calm_readHeader c))

/-- A request that hands its stream back is a path. -/
theorem pathOut_release {s : KHttp2} {c : CtxId} (ret : Ret)
    (howner : s.clientModel = true ∨ c ∈ s.owners)
    (hkeep : ((s.releaseStream c).releaseAdminCount c).incomplete = true → s.incomplete = true) :
    PathOut slips s (s.release c, ret) := by
  intro hslip
  refine .head (.release c howner) (path_tryDelete _ fun h => hslip (hkeep h))

/-- Handing a stream back does not open a header block. -/
theorem incomplete_release (s : KHttp2) (c : CtxId) :
    ((s.releaseStream c).releaseAdminCount c).incomplete = s.incomplete := by
  have hlinks := s.links_release c
  obtain ⟨hparsed, -, hstream, -, hclient⟩ := s.links.free_keeps c
  have h1 : ((s.releaseStream c).releaseAdminCount c).clientModel = s.clientModel :=
    (congrArg Links.clientModel hlinks).trans hclient
  have h2 : ((s.releaseStream c).releaseAdminCount c).state.stream = s.state.stream :=
    (congrArg Links.stream hlinks).trans hstream
  have h3 : ∀ c', (((s.releaseStream c).releaseAdminCount c).ctx c').parsedHeader =
      (s.ctx c').parsedHeader := fun c' =>
    (congrFun (congrArg Links.parsedHeader hlinks) c').trans (congrFun hparsed c')
  simp only [incomplete, h1, h2, h3]

/-- The end of a request is a path. -/
theorem pathOut_finish {s : KHttp2} {c : CtxId} (ret : Ret) (howner : c ∈ s.owners) :
    PathOut slips s (s.finish c, ret) := by
  unfold finish
  split
  · rename_i hclient
    exact pathOut_release ret (Or.inl hclient) fun h => s.incomplete_release c ▸ h
  · rename_i hserver
    have hsink := s.calm_sinkEnd c (Bool.eq_false_iff.mpr hserver)
    exact .after hsink.quiet (pathOut_release ret (Or.inr (hsink.owners ▸ howner))
      fun h => incomplete_release _ c ▸ h)

/-- A call of a fiber is a path; it slips where it gives its stream a node and a stale window, or
deletes the connection inside a header block. -/
theorem pathOut_call {s : KHttp2} (hs : Sound s) {c : CtxId} {op : Op} (ret : Ret)
    (hh : (s.ctx c).rst = true → (s.ctx c).outClosed = true) (howner : c ∈ s.owners)
    (hready : op.ready (s.ctx c) = true)
    (hslip : s.linksNode c op = true → slips .staleWindow ∨ (s.ctx c).rst = true ∨
      (s.ctx c).sendWindow ≤ s.initWindow) : PathOut slips s (s.call c op, ret) := by
  have hlinks : (s.clientModel = true → (s.ctx c).node = none →
      s.readProcessing = true → s.linksNode c op = true) → Fresh slips s c :=
    fun h hclient hnone hread => hslip (h hclient hnone hread)
  have hset : ∀ f : KHttp2Context → KHttp2Context, CtxCalm (s.ctx c) (f (s.ctx c)) →
      PathOut slips s (s.modify c f, ret) := fun f h => .of_quiet (quiet_modify h)
  have hadd : ∀ f : KHttp2HeaderFrame → KHttp2HeaderFrame, PathOut slips s (s.addTo c f, ret) :=
    fun f => .of_quiet (s.quiet_addTo c f)
  cases op with
  | write buf length =>
    simp only [Op.ready, Bool.and_eq_true] at hready
    refine .of_path (path_writeWait hs hh false _ length howner hready.2 fun hopen hsome => ?_)
    refine hlinks fun hclient hnone hread => ?_
    simp only [linksNode, hclient, hnone, hread, hopen, hsome, Option.isNone_none, Bool.and_self,
      Bool.not_false]
  | sendfile file length =>
    simp only [Op.ready, Bool.and_eq_true] at hready
    refine .of_path (path_writeWait hs hh true _ length howner hready.2 fun hopen hsome => ?_)
    refine hlinks fun hclient hnone hread => ?_
    simp only [linksNode, hclient, hnone, hread, hopen, hsome, Option.isNone_none, Bool.and_self,
      Bool.not_false]
  | read len =>
    simp only [Op.ready, Bool.and_eq_true] at hready
    exact .of_quiet (s.quiet_readBody c len hready.2)
  | addStatus code => exact hadd _
  | addMethod meth => exact hadd _
  | addKnownHeader name val => exact hadd _
  | addHeader name val => exact hadd _
  | sendMethodPath meth path => exact .of_quiet (s.quiet_sendMethodPath c meth path)
  | sendExpect val => exact .of_quiet (s.quiet_sendExpect c val)
  | sendUpgrade val => exact hadd _
  | setContentLength contentLength =>
    refine hset _ ?_
    split
    · exact .refl _
    · exact ⟨rfl, rfl, rfl, rfl, id, id, id, Or.inl, Or.inl⟩
  | startResponseBody bodySize is100Continue =>
    simp only [Op.ready, Bool.and_eq_true] at hready
    refine .of_path (path_startResponseBody _ _ howner (hlinks fun hclient hnone hread => ?_))
    simp only [linksNode, hclient, hnone, hread, hready.2, Option.isNone_none, Bool.and_self]
  | addTrailer name val =>
    refine .of_path (path_addTrailer name val howner fun hsome htrailer => ?_)
    refine hlinks fun hclient hnone hread => ?_
    simp only [linksNode, hclient, hnone, hread, hsome, htrailer, Option.isNone_none, Bool.and_self,
      Bool.not_false]
  | writeEnd =>
    refine .of_path (path_writeEnd howner fun hopen hsome => ?_)
    refine hlinks fun hclient hnone hread => ?_
    simp only [linksNode, hclient, hnone, hread, hopen, hsome, Option.isNone_none, Bool.and_self,
      Bool.not_false]
  | shutdown => exact .of_quiet (s.calm_shutdown c).quiet
  | readhup => exact .of_quiet (s.calm_readhup c).quiet
  | removeReadhup => exact .of_quiet (s.calm_removeReadhup c).quiet
  | setTimeOut tmo => exact hset _ ⟨rfl, rfl, rfl, rfl, id, id, id, Or.inl, Or.inl⟩
  | sendAltsvc val => exact .of_quiet (s.calm_sendAltsvc c val).quiet
  | setHeaderCallback => exact hset _ ⟨rfl, rfl, rfl, rfl, id, id, id, Or.inl, Or.inl⟩
  | readHeaders =>
    refine .of_path (path_readHeaders howner fun hsome => ?_)
    refine hlinks fun hclient hnone hread => ?_
    simp only [linksNode, hclient, hnone, hread, hsome, Option.isNone_none, Bool.and_self]
  | gc =>
    simp only [call]
    split
    · exact .of_path (.single (.gc c ‹_›))
    · exact .of_quiet (.refl s)
  | finish => exact pathOut_finish ret howner

/-! ## Every step -/

/-- A closed stream stays closed. -/
def Halted (s : KHttp2) : Prop := ∀ c, (s.ctx c).rst = true → (s.ctx c).outClosed = true

/-- A quiet step closes every stream that it resets. -/
theorem Halted.quiet {s t : KHttp2} (hs : Halted s) (h : Quiet s t) : Halted t := by
  intro c hrst
  rcases (h.ctx c).halted hrst with hold | hnew
  · exact (h.ctx c).outClosed (hs c hold)
  · exact hnew

/-- A step that resets no stream and opens none. -/
theorem Halted.of_ctx {s t : KHttp2} (hs : Halted s)
    (h : ∀ c, ((t.ctx c).rst = true → (s.ctx c).rst = true) ∧
      ((s.ctx c).outClosed = true → (t.ctx c).outClosed = true)) : Halted t :=
  fun c hrst => (h c).2 (hs c ((h c).1 hrst))

/-- An assignment to other fields of a stream. -/
theorem Halted.modify {s : KHttp2} (hs : Halted s) {c : CtxId} {f : KHttp2Context → KHttp2Context}
    (hrst : (f (s.ctx c)).rst = (s.ctx c).rst)
    (hout : (s.ctx c).outClosed = true → (f (s.ctx c)).outClosed = true) :
    Halted (s.modify c f) := by
  refine hs.of_ctx fun c' => ?_
  by_cases hc : c' = c
  · subst hc
    simp only [KHttp2.modify, Function.update_self, hrst]
    exact ⟨id, hout⟩
  · simp only [KHttp2.modify, Function.update_of_ne hc]
    exact ⟨id, id⟩

/-- A step of a writer. -/
theorem Halted.sending {s t : KHttp2} (hs : Halted s) (h : Sending s t) : Halted t := by
  cases h with
  | quiet h => exact hs.quiet h
  | send c e len hnode hopen hpos hframe hstream hconn =>
    obtain ⟨hctx, -⟩ := s.sendData_spec c e len hnode
    refine hs.of_ctx fun c' => ?_
    rw [hctx]
    by_cases hc : c' = c
    · subst hc
      simp only [Function.update_self]
      exact ⟨id, fun h => by rw [h, Bool.true_or]⟩
    · simp only [Function.update_of_ne hc]
      exact ⟨id, id⟩

/-- A stream that is released. -/
theorem Halted.releaseStream {s : KHttp2} (hs : Halted s) (c : CtxId) :
    Halted (s.releaseStream c) := by
  obtain ⟨t, ht, -, -, heq⟩ := s.releaseStream_spec c
  rw [heq]
  cases (s.ctx c).node with
  | none => exact hs.quiet ht
  | some id =>
    have ht' : Halted t := hs.quiet ht
    have hdestroy : Halted (t.destroyNode c (some id)) := ht'
    exact hdestroy.modify rfl fun h => h

/-- A stream that is handed back. -/
theorem Halted.releaseAdminCount {s : KHttp2} (hs : Halted s) (c : CtxId) :
    Halted (s.releaseAdminCount c) := by
  refine hs.of_ctx fun c' => ?_
  obtain ⟨mark, hctx⟩ := s.releaseAdminCount_ctx c c'
  rw [hctx]
  exact ⟨id, id⟩

/-- A stream that is made. -/
theorem Halted.newStream {s t : KHttp2} (hs : Halted s) {ctx : KHttp2Context}
    (hctx : t.ctx = Function.update s.ctx s.nextCtx ctx) (hrst : ctx.rst = false) : Halted t := by
  intro c hc
  rw [hctx] at hc ⊢
  by_cases hcc : c = s.nextCtx
  · subst hcc
    rw [Function.update_self, hrst] at hc
    cases hc
  · rw [Function.update_of_ne hcc] at hc ⊢
    exact hs c hc

/-- A change of windows. -/
theorem Halted.windowChange {s t : KHttp2} (hgood : s.links.Good) (hs : Halted s)
    (h : WindowChange s t) : Halted t := by
  cases h with
  | stream c window hnode h =>
    have hlog : Halted (s.log (.windowUpdate (some c) window)) := hs
    exact hlog.modify rfl fun h => h
  | conn window h => exact hs
  | initial value h =>
    rw [adjustAll_eq hgood]
    refine hs.of_ctx fun c => ?_
    dsimp only
    split
    · rw [adjustCtx_keeps]
      exact ⟨id, id⟩
    · exact ⟨id, id⟩
  | frame value hmin hmax => exact hs
  | other id value hinit hframe => exact hs

/-- Every move. -/
theorem Halted.move {slips : Slip → Prop} {s t : KHttp2} (hgood : s.links.Good) (hs : Halted s)
    (h : Move slips s t) : Halted t := by
  cases h with
  | sending h => exact hs.sending h
  | openStream p hserver hnew hlast =>
    obtain ⟨ctx, st, trace, -, -, -, hrst, -, -, -, -, heq⟩ :=
      ({ s with lastPeerSid := s.state.sid } : KHttp2).headersNewStream_spec p
    rw [heq]
    exact hs.newStream rfl hrst
  | peerSid sid hserver hlast => exact hs
  | newClientStream processing admin hclient =>
    rw [newClientStream_spec { s with processing := processing } admin hclient]
    exact hs.newStream rfl rfl
  | linkNode c hclient hnone howner hslip =>
    unfold KHttp2.linkNode
    extract_lets s1
    have hnew : Halted (s1.newNode s1.lastSelfSid c) := hs
    exact hnew.modify rfl fun h => h
  | hold c hnode hlast => exact hs
  | letGo => exact hs
  | start c hserver hstream hparsed =>
    unfold startRequest
    extract_lets s1
    have hset : Halted (s.setState fun st => { st with stream := none }) := hs
    have hs1 : Halted s1 := hset.modify rfl fun h => h
    exact hs1
  | response c hclient => exact hs.modify rfl fun h => h
  | release c howner => exact (hs.releaseStream c).releaseAdminCount c
  | gc c hclient => exact hs.releaseStream c
  | wait c e hnode hopen hused =>
    have hwait : Halted (s.modify c fun ctx => { ctx with writeWait := some e }) :=
      hs.modify rfl fun h => h
    exact hwait.quiet (calm_addQueue _ c).quiet
  | windows hchange hsends hparked =>
    have hu := hs.windowChange hgood hchange
    clear hchange hparked
    induction hsends with
    | refl => exact hu
    | tail _ h ih => exact ih.sending h
  | delete => exact hs
  | drop c hslip hserver hstream hparsed ht =>
    have hreleased := ((hs.releaseStream c).releaseAdminCount c).quiet ht
    refine hreleased.of_ctx fun c' => ?_
    cases hnode : (KHttp2.ctx _ c).node <;> exact ⟨id, id⟩
  | unqueue c hslip => exact hs

/-- Every path. -/
theorem Halted.path {slips : Slip → Prop} {s t : KHttp2} (hsound : Sound s) (hs : Halted s)
    (h : Path slips s t) : Halted t := by
  induction h with
  | refl => exact hs
  | tail hpath hmove ih => exact ih.move (hsound.path hpath).good hmove

/-- `try_write` ends the writing of a connection that is closed for reading, or is quiet. -/
theorem pathOut_tryWrite (s : KHttp2) (ret : Ret) : PathOut slips s (s.tryWrite, ret) := by
  unfold tryWrite closeWrite
  split
  · exact .of_quiet (.refl s)
  · split
    · exact s.path_close false noError
    · exact .of_quiet (.of_view rfl rfl rfl id)

/-- `on_write_result`. -/
theorem pathOut_onWriteResult (s : KHttp2) (got : ℕ) (ret : Ret) :
    PathOut slips s (s.onWriteResult got, ret) := by
  unfold onWriteResult
  extract_lets r
  have h1 : Quiet s { s with writeBuffer := r.1 } := .of_view rfl rfl rfl id
  have h2 := (({ s with writeBuffer := r.1 } : KHttp2).calm_removeBuff r.2 false).quiet
  exact .after (h1.trans h2) (pathOut_tryWrite _ ret)

/-- `connect`. -/
theorem path_connect {s : KHttp2} (hclient : s.clientModel = true) : Path slips s s.connect := by
  unfold connect
  split
  · exact .refl
  · split
    · exact .refl
    · exact .single (.newClientStream _ false hclient)

/-- `get_admin_stream`. -/
theorem path_getAdminStream {s : KHttp2} (hclient : s.clientModel = true) :
    Path slips s s.getAdminStream := by
  unfold getAdminStream
  split
  · exact .refl
  · have h1 : Quiet s { s with hasAdminStream := true } := .of_view rfl rfl rfl id
    exact (path_quiet h1).tail (.newClientStream (s.processing + 1) true hclient)

/-- A read is a path. -/
theorem path_onReadResult (codes : HuffDecodeCodes) {s : KHttp2} (hs : Sound s) {chunk : Bytes}
    (hcalls : ∀ call ∈ Resumable.calls (exec codes)
        (measure s.state.handler (s.state.buffer ++ chunk) + 1) s.state.handler
        ({ s with pinged := false }.setState fun st => { st with buffer := [] })
        (s.state.buffer ++ chunk), CallOk slips codes call.1 call.2.1 call.2.2)
    (hslip : (received codes s (.read chunk)).incomplete = true →
      (onReadResult codes s chunk).deleted = true → slips .dropIncomplete) :
    Path slips s (onReadResult codes s chunk) := by
  have h1 : Quiet s { s with pinged := false } := .of_view rfl rfl rfl id
  have h2 := path_receive codes (hs.quiet h1) chunk hcalls
  refine (path_quiet h1).trans (h2.trans ?_)
  unfold onReadResult at hslip ⊢
  simp only [received] at hslip
  cases hreceive : receive codes { s with pinged := false } chunk with
  | mk t more =>
    rw [hreceive] at hslip
    cases more with
    | false => exact .refl
    | true => exact pathOut_startRead t .null hslip

/-- Every step of a connection is a path with the slips that the step makes. -/
theorem path_step (codes : HuffDecodeCodes) {s : KHttp2} (hs : Sound s) (hh : Halted s) (e : Event)
    (hslips : ∀ slip, slipsIn codes s e slip → slips slip) : Path slips s (step codes s e) := by
  have hdrop := hslips .dropIncomplete
  have hunqueue := hslips .unqueueWriter
  have hstale := hslips .staleWindow
  have hreuse := hslips .reuseSid
  simp only [slipsIn] at hdrop hunqueue hstale hreuse
  by_cases henabled : s.enabled e = true
  · have hstep : step codes s e = act codes s e := if_pos henabled
    rw [hstep] at hdrop ⊢
    have hlast : (received codes s e).incomplete = true → (act codes s e).deleted = true →
        slips .dropIncomplete := fun h h' => hdrop (Or.inr ⟨h, h'⟩)
    cases e with
    | read chunk =>
      refine path_onReadResult codes hs (fun call hcall => ?_) hlast
      have hmem : call ∈ stepCalls codes s (.read chunk) := by
        simp only [stepCalls, if_pos henabled]
        exact hcall
      refine ⟨fun hopen hrel => hdrop (Or.inl ⟨call, hmem, hopen, hrel⟩), fun hh c hc hwaits => ?_,
        fun hh hopens => hreuse ⟨call, hmem, hh, hopens⟩⟩
      exact hunqueue ⟨call, hmem, hh, c, hc, hwaits⟩
    | readTimeOut => exact path_calm s.calm_onReadTimeOut
    | readError => exact s.path_close true connectError hlast
    | nextWrite => exact s.pathOut_tryWrite .null hlast
    | written got => exact s.pathOut_onWriteResult got .null hlast
    | writeError => exact s.path_close false connectError hlast
    | tick msec => exact path_quiet (.of_view rfl rfl rfl id)
    | call c op =>
      simp only [enabled, Bool.and_eq_true, List.contains_iff_mem] at henabled
      refine pathOut_call hs .null (hh c) henabled.2.1 henabled.2.2 (fun hlinks => ?_) hlast
      cases hrst : (s.ctx c).rst with
      | true => exact Or.inr (Or.inl rfl)
      | false =>
        by_cases hwindow : (s.ctx c).sendWindow ≤ s.initWindow
        · exact Or.inr (Or.inr hwindow)
        · exact Or.inl (hstale ⟨c, op, rfl, hlinks, hrst, Int.lt_of_not_ge hwindow⟩)
    | connect =>
      simp only [enabled, Bool.and_eq_true] at henabled
      exact path_connect henabled.2
    | getAdminStream =>
      simp only [enabled, Bool.and_eq_true] at henabled
      exact path_getAdminStream henabled.2
    | destroyPooled c =>
      simp only [enabled, Bool.and_eq_true] at henabled
      have h1 : Quiet s { s with pooled := s.pooled.erase c } := .of_view rfl rfl rfl id
      exact (PathOut.after h1 (pathOut_release .null (Or.inl henabled.2.1)
        fun h => incomplete_release _ c ▸ h)) hlast
  · have hstep : step codes s e = s := if_neg henabled
    rw [hstep]

end Paths

/-! ## Runs -/

/-- What holds before every event of a run. -/
def Along (codes : HuffDecodeCodes) (P : KHttp2 → Event → Prop) : KHttp2 → List Event → Prop
  | _, [] => True
  | s, e :: es => P s e ∧ Along codes P (step codes s e) es

/-- What holds before every event of a run can be tested on the run. -/
instance Along.decidable (codes : HuffDecodeCodes) (P : KHttp2 → Event → Prop)
    [∀ s e, Decidable (P s e)] : ∀ s es, Decidable (Along codes P s es)
  | _, [] => .isTrue trivial
  | s, e :: es =>
    have := Along.decidable codes P (step codes s e) es
    inferInstanceAs (Decidable (P s e ∧ Along codes P (step codes s e) es))

/-- A run that slips only where it may is a path. -/
theorem path_run (codes : HuffDecodeCodes) {slips : Slip → Prop} (es : List Event) {s : KHttp2}
    (hs : Sound s) (hh : Halted s)
    (hslips : Along codes (fun s e => ∀ slip, slipsIn codes s e slip → slips slip) s es) :
    Path slips s (run codes s es) := by
  induction es generalizing s with
  | nil => exact .refl
  | cons e es ih =>
    have hstep := path_step codes hs hh e hslips.1
    exact hstep.trans (ih (hs.path hstep) (hh.path hs hstep) hslips.2)

/-! ## Connection start -/

/-- How a connection starts. -/
inductive Starts : KHttp2 → Prop
  | server (now timeOut : ℕ) (junk : ℕ → Http2FrameHeader) : Starts (server now timeOut junk)
  | serverH2c (now timeOut : ℕ) (junk : ℕ → Http2FrameHeader) : Starts (serverH2c now timeOut junk)
  | client (now timeOut : ℕ) (junk : ℕ → Http2FrameHeader) : Starts (client now timeOut junk)

/-- The first frames are quiet. -/
theorem quiet_greet (s : KHttp2) : Quiet s s.greet := by
  unfold greet
  extract_lets r
  have h1 : Quiet s r.1 :=
    (s.calm_sendSettings.trans (calm_sendWindowUpdate _ _ _ _)).quiet
  split
  · exact h1.trans (calm_startWrite _).quiet
  · exact h1

/-- A connection on which nothing happened yet. -/
structure Blank (s : KHttp2) : Prop where
  ctx : ∀ c, s.ctx c = .init 0
  streamsIndex : ∀ i, s.streamsIndex i = []
  nextCtx : s.nextCtx = 0
  owners : s.owners = []
  stream : s.state.stream = none
  sendWindow : s.sendWindow = defaultWindow
  initWindow : s.initWindow = defaultWindow
  frameSize : s.frameSize = defaultFrameSize
  deleted : s.deleted = false
  trace : s.trace = []

/-- A blank connection has no node in any bucket. -/
theorem Blank.no_node {s : KHttp2} (h : Blank s) {i : ℕ} {n : KHttp2Node} :
    n ∉ s.streamsIndex i := by
  rw [h.streamsIndex i]
  exact List.not_mem_nil

/-- A blank connection is sound. -/
theorem Blank.sound {s : KHttp2} (h : Blank s) : Sound s := by
  have hnode : ∀ c, (s.ctx c).node = none := fun c => by rw [h.ctx c]; rfl
  have howner : ∀ c, c ∉ s.owners := fun c => by rw [h.owners]; exact List.not_mem_nil
  have hwindow : ∀ c, (s.ctx c).sendWindow = 0 := fun c => by rw [h.ctx c]; rfl
  have hmax : defaultWindow ≤ maxWindow := by decide
  refine ⟨⟨fun i n hn => ?_, fun i n hn => ?_, fun i => ?_, fun c id hc => ?_, fun c _ => hnode c,
    fun c hc => ?_, ?_, fun _ i n hn => ?_⟩, fun _ => ⟨fun c hc => ?_, fun c hc => ?_⟩,
    fun c hc => ?_, ⟨?_, ?_, ?_, ?_, fun c => ?_, fun c => ?_, fun c hc => ?_, fun c hc => ?_⟩⟩
  · exact absurd hn h.no_node
  · exact absurd hn h.no_node
  · change ((s.streamsIndex i).map KHttp2Node.id).Nodup
    rw [h.streamsIndex i]
    exact List.nodup_nil
  · exact absurd ((hnode c).symm.trans hc) nofun
  · exact absurd hc (howner c)
  · change s.owners.Nodup
    rw [h.owners]
    exact List.nodup_nil
  · exact absurd hn h.no_node
  · exact absurd hc (howner c)
  · exact absurd (h.stream.symm.trans hc) nofun
  · rw [h.ctx c] at hc
    cases hc
  · exact h.frameSize.ge
  · rw [h.frameSize]
    decide
  · exact h.sendWindow.trans_le hmax
  · exact h.initWindow.trans_le hmax
  · rw [hwindow c]
    decide
  · rw [hwindow c]
    decide
  · rw [hnode c] at hc
    cases hc
  · exact absurd hc (howner c)

/-- A blank connection has no stream that is reset. -/
theorem Blank.halted {s : KHttp2} (h : Blank s) : Halted s := by
  intro c hc
  rw [h.ctx c] at hc
  cases hc

/-- The first frames and the first read of a blank connection are a path, whatever slips. -/
theorem Blank.path_greet {slips : Slip → Prop} {b : KHttp2} (h : Blank b) :
    Path slips b b.greet.startRead := by
  have hquiet := b.quiet_greet
  refine (path_quiet hquiet).trans (pathOut_startRead b.greet .null fun hincomplete => ?_)
  rw [incomplete_of_quiet hquiet] at hincomplete
  simp only [incomplete, h.stream, Option.any_none, Bool.and_false] at hincomplete
  cases hincomplete

/-- A connection that starts comes from a blank one, whatever slips. -/
theorem Starts.path {slips : Slip → Prop} {s : KHttp2} (h : Starts s) :
    ∃ b, Blank b ∧ Path slips b s := by
  cases h with
  | server now timeOut junk =>
    have hblank : Blank ((init now timeOut junk).setState fun st =>
        { st with handler := .statePreface }) :=
      ⟨fun _ => rfl, fun _ => rfl, rfl, rfl, rfl, rfl, rfl, rfl, rfl, rfl⟩
    exact ⟨_, hblank, hblank.path_greet⟩
  | serverH2c now timeOut junk =>
    have hblank : Blank ((init now timeOut junk).setState fun st =>
        { st with handler := .statePrefaceEnd }) :=
      ⟨fun _ => rfl, fun _ => rfl, rfl, rfl, rfl, rfl, rfl, rfl, rfl, rfl⟩
    exact ⟨_, hblank, hblank.path_greet⟩
  | client now timeOut junk =>
    obtain ⟨b, hb⟩ : ∃ b : KHttp2, b = { init now timeOut junk with
      clientModel := true
      lastSelfSid := 1
      processing := 1
      hasAdminStream := true
      writeBuffer := KHttp2WriteBuffer.init.push [.ofBytes clientPreface] } := ⟨_, rfl⟩
    have hblank : Blank b := by
      subst hb
      exact ⟨fun _ => rfl, fun _ => rfl, rfl, rfl, rfl, rfl, rfl, rfl, rfl, rfl⟩
    have hquiet := b.quiet_greet
    have hclient : b.greet.clientModel = true := by
      rw [hquiet.clientModel, hb]
    refine ⟨b, hblank, (path_quiet hquiet).tail ?_⟩
    have hmove : Move slips b.greet (b.greet.newClientStream true) :=
      .newClientStream b.greet.processing true hclient
    have heq : KHttp2.client now timeOut junk = b.greet.newClientStream true := by
      rw [hb]
      rfl
    exact heq ▸ hmove

/-- A connection that starts is sound, and no stream of it is reset. -/
theorem sound_of_starts {s : KHttp2} (h : Starts s) : Sound s ∧ Halted s := by
  obtain ⟨b, hb, hpath⟩ : ∃ b, Blank b ∧ Path (fun _ => True) b s := h.path
  exact ⟨hb.sound.path hpath, hb.halted.path hb.sound hpath⟩

/-- Every state that a connection reaches is sound. -/
theorem sound_run (codes : HuffDecodeCodes) {s : KHttp2} (h : Starts s) (es : List Event) :
    Sound (run codes s es) := by
  obtain ⟨hs, hh⟩ := sound_of_starts h
  have hall : ∀ (es : List Event) (s : KHttp2),
      Along codes (fun s e => ∀ slip, slipsIn codes s e slip → True) s es := by
    intro es
    induction es with
    | nil => exact fun _ => trivial
    | cons e es ih => exact fun s => ⟨fun _ _ => trivial, ih _⟩
  exact hs.path (path_run codes es hs hh (hall es s))

/-- A run that slips only where it may is a path from a blank connection. -/
theorem path_of_starts (codes : HuffDecodeCodes) {slips : Slip → Prop} {s : KHttp2}
    (h : Starts s) (es : List Event)
    (hslips : Along codes (fun s e => ∀ slip, slipsIn codes s e slip → slips slip) s es) :
    ∃ b, Blank b ∧ Path slips b (run codes s es) := by
  obtain ⟨hs, hh⟩ := sound_of_starts h
  obtain ⟨b, hb, hpath⟩ := h.path
  exact ⟨b, hb, hpath.trans (path_run codes es hs hh hslips)⟩

end KHttp2

end Khttpd
