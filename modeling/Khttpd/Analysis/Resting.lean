import Khttpd.Analysis.Changes
import Khttpd.Analysis.Transitions

/-!
# Invariants that know the handler

Some results on readers hold between two frames only, or need to know how much of a DATA frame is
still to come. An invariant of such a result depends on the handler to come. It is proved once for
each handler, and for the effects of everything else, which leave the parser as it is.
-/

set_option autoImplicit false

namespace Khttpd

namespace KHttp2

variable {kinds : Kind → Prop}

/-! ## What an effect leaves alone -/

/-- Reading does not start again, a deleted connection stays deleted, and the parser does not
move. -/
structure Carries (kinds : Kind → Prop) (s t : KHttp2) : Prop where
  reading : t.readProcessing = true → s.readProcessing = true
  deleted : s.deleted = true → t.deleted = true
  state : t.deleted = true ∨ t.state = s.state ∨ kinds .parse

theorem Carries.refl (s : KHttp2) : Carries kinds s s := ⟨id, id, Or.inr (Or.inl rfl)⟩

theorem Carries.trans {s t u : KHttp2} (hst : Carries kinds s t) (htu : Carries kinds t u) :
    Carries kinds s u where
  reading h := hst.reading (htu.reading h)
  deleted h := htu.deleted (hst.deleted h)
  state := by
    rcases htu.state with h | h | h
    · exact Or.inl h
    · rcases hst.state with h' | h' | h'
      · exact Or.inl (htu.deleted h')
      · exact Or.inr (Or.inl (h.trans h'))
      · exact Or.inr (Or.inr h')
    · exact Or.inr (Or.inr h)

theorem Carries.of_calm {s t : KHttp2} (h : Calm s t) : Carries kinds s t :=
  ⟨h.reading, fun hs => h.deleted.trans hs, Or.inr (Or.inl h.state)⟩

/-- Only some fields are looked at. -/
theorem Carries.of_fields {s t : KHttp2} (hreading : t.readProcessing = s.readProcessing)
    (hdeleted : t.deleted = s.deleted) (hstate : t.state = s.state) : Carries kinds s t :=
  ⟨fun h => hreading ▸ h, fun h => hdeleted.trans h, Or.inr (Or.inl hstate)⟩

/-- A calm step after one that changes other fields. -/
theorem Carries.after {s t u : KHttp2} (h : Calm t u)
    (hreading : t.readProcessing = s.readProcessing)
    (hdeleted : t.deleted = s.deleted) (hstate : t.state = s.state) : Carries kinds s u :=
  (Carries.of_fields hreading hdeleted hstate).trans (.of_calm h)

theorem carries_sendData (s : KHttp2) (c : CtxId) (e : WriteEvent) (len : ℕ) :
    Carries kinds s (s.sendData c e len) := by
  unfold sendData
  extract_lets ctx payload totalLen left fin bufs h h' src header s1 s2 s3
  have h1 : Carries kinds s s1 := by
    dsimp only [s1]
    split
    · exact .of_calm s.calm_setFault
    · exact .refl s
  exact h1.trans (.of_fields rfl rfl rfl)

theorem carries_releaseStream (s : KHttp2) (c : CtxId) : Carries kinds s (s.releaseStream c) := by
  unfold releaseStream
  extract_lets ctx s1 s2 s3 s4
  have h4 : Carries kinds s s4 := by
    dsimp only [s4]
    split
    · split
      · exact .after (s3.calm_sendRstStream _ _ _) rfl rfl rfl
      · exact .of_fields rfl rfl rfl
    · exact .of_fields rfl rfl rfl
  split
  · refine h4.trans ?_
    cases ctx.node with
    | none => exact .of_fields rfl rfl rfl
    | some id => exact .of_fields rfl rfl rfl
  · exact h4

theorem carries_releaseAdminCount (s : KHttp2) (c : CtxId) :
    Carries kinds s (s.releaseAdminCount c) := by
  unfold releaseAdminCount
  extract_lets s1 s2
  have h1 : Carries kinds s s1 := by
    dsimp only [s1]
    split <;> exact .of_fields rfl rfl rfl
  have h2 : Carries kinds s1 s2 := by
    dsimp only [s2]
    split <;> exact .of_fields rfl rfl rfl
  exact (h1.trans h2).trans (.of_fields rfl rfl rfl)

theorem carries_release (s : KHttp2) (c : CtxId) :
    Carries kinds s ((s.releaseStream c).releaseAdminCount c) :=
  (s.carries_releaseStream c).trans (carries_releaseAdminCount _ c)

theorem carries_effect {s t : KHttp2} (h : Effect kinds s t) : Carries kinds s t := by
  cases h with
  | soft h hstate =>
    have hreading : t.readProcessing = s.readProcessing := congrArg Body.readProcessing h
    have hdeleted : t.deleted = s.deleted := congrArg Body.deleted h
    exact ⟨fun h => hreading ▸ h, fun h => hdeleted.trans h, Or.inr hstate⟩
  | frameHead sid length type flags hkind => exact .of_fields rfl rfl rfl
  | push frame bufs hbufs hdata hheaders => exact .of_fields rfl rfl rfl
  | startWrite => exact .of_calm s.calm_startWrite
  | linkNode c hclient hnone => exact .of_fields rfl rfl rfl
  | output c frame bufs hkind hbufs hstream htype => exact .of_fields rfl rfl rfl
  | closeOut c fin hkind => exact .of_fields rfl rfl rfl
  | closeIn c => exact .of_fields rfl rfl rfl
  | hup c w hold hnew => exact .of_fields rfl rfl rfl
  | suspend c e hkind howner hold hwindow => exact .of_fields rfl rfl rfl
  | send c e len hwait hwindow hpos =>
    exact (s.carries_sendData c e len).trans (.of_fields rfl rfl rfl)
  | written got hgot =>
    exact .after (calm_removeBuff _ _ _) rfl rfl rfl
  | stopWrite h => exact .of_fields rfl rfl rfl
  | reset c rst clear =>
    have hread := s.calm_resetStream c
    unfold resetWith
    extract_lets ctx s1 s2 s3
    have h2 : Carries kinds s1 s2 := by
      cases rst with
      | none => exact .refl s1
      | some r => exact .of_calm (s1.calm_sendRstStream _ _ _)
    have h3 : Carries kinds s2 s3 := by
      dsimp only [s3]
      split <;> exact .of_fields rfl rfl rfl
    exact (Carries.of_calm hread.1).trans (h2.trans (h3.trans (.of_calm (s3.calm_wakeReset c ctx))))
  | closeStreams read status => exact .of_calm (s.calm_closeStreams read status)
  | tryDelete =>
    refine ⟨s.reading_tryDelete, fun hdel => ?_, ?_⟩
    · rcases s.deleted_tryDelete with h | ⟨h, -⟩
      · exact h
      · rw [h]
        exact hdel
    · rcases s.deleted_tryDelete with h | ⟨h, -⟩
      · exact Or.inl h
      · exact Or.inr (Or.inl (congrArg KHttp2.state h))
  | refill c hopen hlow =>
    exact .trans (.of_calm (s.calm_sendWindowUpdate _ _ _)) (.of_fields rfl rfl rfl)
  | copy c len hfull => exact .of_fields rfl rfl rfl
  | returns c got hempty h => exact .of_fields rfl rfl rfl
  | readWait c len hempty hrst hopen hwindow => exact .of_fields rfl rfl rfl
  | headerWait c w hw => exact .of_fields rfl rfl rfl
  | headerWake c w hw hkind =>
    exact .after (calm_onRead _ c _ 0) rfl rfl rfl
  | headersIn c fin hrst hopen =>
    unfold logEnd
    split <;> exact .of_fields rfl rfl rfl
  | openStream p hkind =>
    refine ⟨fun h => ?_, fun h => ?_, Or.inr (Or.inr hkind)⟩
    · obtain ⟨ctx, st, trace, -, -, -, -, -, -, -, -, heq⟩ := s.headersNewStream_spec p
      rw [heq] at h
      exact h
    · obtain ⟨ctx, st, trace, -, -, -, -, -, -, -, -, heq⟩ := s.headersNewStream_spec p
      rw [heq]
      exact h
  | newClientStream processing admin hclient hprocessing =>
    have heq := newClientStream_spec { s with processing := processing } admin hclient
    rw [heq]
    exact .of_fields rfl rfl rfl
  | start c hkind hserver => exact ⟨id, id, Or.inr (Or.inr hkind)⟩
  | release c h => exact s.carries_release c
  | gc c hclient howner h => exact (s.carries_releaseStream c).trans (.of_fields rfl rfl rfl)
  | destroyPooled c h =>
    have h1 : Carries kinds s { s with pooled := s.pooled.erase c } := .of_fields rfl rfl rfl
    exact h1.trans (carries_release _ c)
  | charge length hkind h => exact .of_fields rfl rfl rfl
  | chargeRefill hkind =>
    exact .trans (.of_calm (s.calm_sendWindowUpdate _ _ _)) (.of_fields rfl rfl rfl)
  | chargeStream c length hkind h => exact .of_fields rfl rfl rfl
  | takeData c taken hkind =>
    unfold takeData logData
    extract_lets bytes s1
    have h1 : Carries kinds s s1 := .of_fields rfl rfl rfl
    refine h1.trans (.trans ?_ (.of_calm (calm_wakeReader _ c false)))
    split
    · split <;> exact .of_fields rfl rfl rfl
    · exact .of_fields rfl rfl rfl
  | takeEnd c hkind =>
    exact .after (calm_wakeReader _ c true) rfl rfl rfl

theorem carries_effects {s t : KHttp2} (h : Effects kinds s t) : Carries kinds s t := by
  induction h with
  | refl => exact .refl s
  | tail _ heffect ih => exact ih.trans (carries_effect heffect)

/-! ## The invariant over a run -/

/-- What happens between two reads. -/
def Kind.betweenReads (kind : Kind) : Prop := kind = .output ∨ kind = .write

/-- An invariant that depends on the handler to come, and what a call of a handler must meet to
keep it. -/
structure Indexed (codes : HuffDecodeCodes) (P : Handler → KHttp2 → Bytes → Prop)
    (J : Option Handler → KHttp2 → Prop) : Prop where
  pinged : ∀ {h s} (b : Bool), J h s → J h { s with pinged := b }
  store : ∀ {h s} (h' : Handler) (kept : Bytes), J h s →
    J h (s.setState fun st => { st with handler := h', buffer := kept })
  between : ∀ {h s t}, Sound s → Sound t → Effects Kind.betweenReads s t → t.state = s.state →
    J h s → J h t
  exec : ∀ {h s p}, Sound s → Sound (exec codes h s p).1 → p.length ≤ readBufferSize →
    J (some h) s → P h s p → J (exec codes h s p).2.next (exec codes h s p).1

/-- The invariant between two events. -/
def Rest (J : Option Handler → KHttp2 → Prop) (s : KHttp2) : Prop :=
  s.deleted = true ∨ J (some s.state.handler) s ∨ J none s ∧ s.readProcessing = false

variable {codes : HuffDecodeCodes} {P : Handler → KHttp2 → Bytes → Prop}
  {J : Option Handler → KHttp2 → Prop}

theorem rest_between (hJ : Indexed codes P J) {s t : KHttp2} (hs : Sound s) (ht : Sound t)
    (heffects : Effects Kind.betweenReads s t) (h : Rest J s) : Rest J t := by
  have hcarries := carries_effects heffects
  have hparse : ¬Kind.betweenReads .parse := fun h => by rcases h with h | h <;> cases h
  rcases h with hdel | hrest
  · exact Or.inl (hcarries.deleted hdel)
  · rcases hcarries.state with hdel | hstate | hkind
    · exact Or.inl hdel
    · refine Or.inr (hrest.imp (fun hrun => ?_) fun ⟨hnone, hread⟩ => ⟨?_, ?_⟩)
      · rw [hstate]
        exact hJ.between hs ht heffects hstate hrun
      · exact hJ.between hs ht heffects hstate hnone
      · exact Bool.eq_false_iff.mpr fun h =>
          Bool.false_ne_true (hread.symm.trans (hcarries.reading h))
    · exact absurd hkind hparse

theorem sound_exec (codes : HuffDecodeCodes) {s : KHttp2} (hs : Sound s) (h : Handler) (p : Bytes) :
    Sound (exec codes h s p).1 := by
  have hpath : PathOut (fun _ => True) s (exec codes h s p) :=
    pathOut_exec codes hs (fun _ _ => trivial) (fun _ _ _ _ => trivial) fun _ _ => trivial
  exact hs.path (hpath fun _ _ => trivial)

/-- The loop stops for good. -/
theorem receive_none {s t : KHttp2} {chunk : Bytes}
    (h : Resumable.run (exec codes) (measure s.state.handler (s.state.buffer ++ chunk) + 1)
      s.state.handler (s.setState fun st => { st with buffer := [] }) (s.state.buffer ++ chunk) =
        (t, none)) : receive codes s chunk = (t, false) := by
  unfold receive
  dsimp only
  rw [h]

/-- The loop waits for more bytes. -/
theorem receive_some {s t : KHttp2} {chunk kept : Bytes} {handler : Handler}
    (h : Resumable.run (exec codes) (measure s.state.handler (s.state.buffer ++ chunk) + 1)
      s.state.handler (s.setState fun st => { st with buffer := [] }) (s.state.buffer ++ chunk) =
        (t, some (handler, kept))) :
    receive codes s chunk =
      (t.setState fun st => { st with handler := handler, buffer := kept }, true) := by
  unfold receive
  dsimp only
  rw [h]

/-- What a read keeps. -/
theorem rest_onReadResult (hJ : Indexed codes P J) {s : KHttp2} (hs : Sound s) {chunk : Bytes}
    (hroom : s.state.buffer.length + chunk.length ≤ readBufferSize)
    (hcalls : ∀ call ∈ Resumable.calls (exec codes)
        (measure s.state.handler (s.state.buffer ++ chunk) + 1) s.state.handler
        ({ s with pinged := false }.setState fun st => { st with buffer := [] })
        (s.state.buffer ++ chunk), P call.1 call.2.1 call.2.2)
    (h : J (some s.state.handler) s) : Rest J (onReadResult codes s chunk) := by
  let start := ({ s with pinged := false } : KHttp2).setState fun st =>
    { st with handler := s.state.handler, buffer := [] }
  have hstart : Sound start := hs.quiet (.of_view rfl rfl rfl id)
  have hloop := @Resumable.run_indexed _ _ _ (exec codes)
    (fun o p t => p.length ≤ readBufferSize ∧ Sound t ∧ J o t ∧
      (o = none → t.readProcessing = false)) P
    (fun h t p ⟨hp, ht, hJt, _⟩ hP => by
      have hforward := forward_follows codes h t p
      have hsound := sound_exec codes ht h p
      exact ⟨hforward.rest.trans hp, hsound, hJ.exec ht hsound hp hJt hP, hforward.stop⟩)
    (measure s.state.handler (s.state.buffer ++ chunk) + 1) s.state.handler start
    (s.state.buffer ++ chunk)
    ⟨by simpa only [List.length_append] using hroom, hstart, hJ.store _ _ (hJ.pinged false h),
      fun h => by cases h⟩ hcalls
  obtain ⟨-, hsound, hrun, hstop⟩ := hloop
  cases hres : Resumable.run (exec codes) (measure s.state.handler (s.state.buffer ++ chunk) + 1)
    s.state.handler start (s.state.buffer ++ chunk) with
  | mk t out =>
    rw [hres] at hsound hrun hstop
    cases out with
    | none =>
      have hout : onReadResult codes s chunk = t := by
        unfold onReadResult
        rw [receive_none hres]
      rw [hout]
      exact Or.inr (Or.inr ⟨hrun, hstop rfl⟩)
    | some next =>
      obtain ⟨h', kept⟩ := next
      have hout : onReadResult codes s chunk =
          (t.setState fun st => { st with handler := h', buffer := kept }).startRead := by
        unfold onReadResult
        rw [receive_some hres]
      rw [hout]
      let u := t.setState fun st => { st with handler := h', buffer := kept }
      have hu : Sound u := hsound.quiet (t.quiet_setState rfl)
      have hrest : Rest J u := Or.inr (Or.inl (hJ.store h' kept hrun))
      have hend : PathOut (fun _ => True) u (u.startRead, .null) := u.pathOut_startRead .null
      exact rest_between hJ hu (hu.path (hend fun _ _ => trivial)) u.effects_startRead hrest

theorem rest_step (hJ : Indexed codes P J) {s : KHttp2} (hs : Sound s) (hh : Halted s) (e : Event)
    (hcalls : ∀ call ∈ stepCalls codes s e, P call.1 call.2.1 call.2.2) (h : Rest J s) :
    Rest J (step codes s e) := by
  have hsound : Sound (step codes s e) := hs.path (path_step codes hs hh e fun _ _ => trivial)
  by_cases henabled : s.enabled e = true
  · have hstep : step codes s e = act codes s e := if_pos henabled
    rw [hstep] at hsound ⊢
    by_cases hread : ∃ chunk, e = .read chunk
    · obtain ⟨chunk, rfl⟩ := hread
      simp only [stepCalls, if_pos henabled] at hcalls
      simp only [enabled, Bool.and_eq_true, Bool.not_eq_true', decide_eq_true_eq] at henabled
      refine rest_onReadResult hJ hs henabled.2.2 hcalls ?_
      rcases h with hdel | hrun | ⟨-, hstop⟩
      · exact absurd (henabled.1.symm.trans hdel) Bool.false_ne_true
      · exact hrun
      · exact absurd (hstop.symm.trans henabled.2.1.1) Bool.false_ne_true
    · exact rest_between hJ hs hsound (effects_act codes s e henabled
        (fun chunk he => hread ⟨chunk, he⟩) (Or.inl rfl) (Or.inr rfl)) h
  · have hstep : step codes s e = s := if_neg henabled
    rw [hstep]
    exact h

theorem rest_run (hJ : Indexed codes P J) (es : List Event) {s : KHttp2} (hs : Sound s)
    (hh : Halted s) (h : Rest J s)
    (hcalls : Along codes
      (fun s e => ∀ call ∈ stepCalls codes s e, P call.1 call.2.1 call.2.2) s es) :
    Rest J (run codes s es) := by
  induction es generalizing s with
  | nil => exact h
  | cons e es ih =>
    have hpath : Path (fun _ => True) s (step codes s e) :=
      path_step codes hs hh e fun _ _ => trivial
    exact ih (hs.path hpath) (hh.path hs hpath) (rest_step hJ hs hh e hcalls.1 h) hcalls.2

/-- What holds of every state and event holds along a run. -/
theorem Along.of_forall {Q : KHttp2 → Event → Prop} (h : ∀ s e, Q s e) (s : KHttp2)
    (es : List Event) : Along codes Q s es := by
  induction es generalizing s with
  | nil => trivial
  | cons e es ih => exact ⟨h s e, ih _⟩

/-! ## Connection start -/

/-- The frames that a connection starts with belong to no stream. -/
theorem seen_greet (s : KHttp2) (c : CtxId) : s.greet.seen c = s.seen c := by
  have hpush : ∀ (t : KHttp2) (payload : Bytes) (type : ℕ) (flags : UInt8) (nodelay : Bool),
      (t.pushGetFrame none 0 payload type flags nodelay).seen c = t.seen c := by
    intro t payload type flags nodelay
    refine t.seen_pushFrame_other c _ _ (fun b hb => ?_) fun h => by cases h
    rw [List.mem_singleton.mp hb]
    exact fun h => by cases h
  have hsettings : s.sendSettings.seen c = s.seen c :=
    (seen_startWrite _ c).trans (hpush s _ _ _ _)
  have hwindow : ∀ (t : KHttp2) (window : ℕ),
    (t.sendWindowUpdate none 0 window).1.seen c = t.seen c := by
    intro t window
    unfold sendWindowUpdate
    split
    · rfl
    · exact (hpush _ _ _ _ _).trans
        (t.seen_log_other c (e := .windowUpdateSent none window) fun _ h => by cases h)
  unfold greet
  extract_lets r
  have hr : r.1.seen c = s.seen c := (hwindow _ _).trans hsettings
  split
  · exact (seen_startWrite _ c).trans hr
  · exact hr

theorem greet_keeps (s : KHttp2) : s.greet.state = s.state ∧ s.greet.processing = s.processing ∧
    s.greet.now = s.now ∧ s.greet.lastStreamMsec = s.lastStreamMsec ∧
    s.greet.peerGoaway = s.peerGoaway := by
  have hstart : ∀ t : KHttp2, t.startWrite.state = t.state ∧ t.startWrite.processing =
    t.processing ∧
      t.startWrite.now = t.now ∧ t.startWrite.lastStreamMsec = t.lastStreamMsec ∧
      t.startWrite.peerGoaway = t.peerGoaway := by
    intro t
    unfold startWrite
    split <;> exact ⟨rfl, rfl, rfl, rfl, rfl⟩
  have hsettings := hstart (s.pushGetFrame none 0 (htons 3 ++ htonl s.maxStream ++
    (htons 4 ++ htonl streamRecvWindow) ++ (htons 5 ++ htonl maxFrameSize) ++
      (htons 8 ++ htonl 1)) settingsFrame 0 false)
  have hwindow : ∀ (t : KHttp2) (window : ℕ), (t.sendWindowUpdate none 0 window).1.state = t.state ∧
      (t.sendWindowUpdate none 0 window).1.processing = t.processing ∧
      (t.sendWindowUpdate none 0 window).1.now = t.now ∧
      (t.sendWindowUpdate none 0 window).1.lastStreamMsec = t.lastStreamMsec ∧
      (t.sendWindowUpdate none 0 window).1.peerGoaway = t.peerGoaway := by
    intro t window
    unfold sendWindowUpdate
    split <;> exact ⟨rfl, rfl, rfl, rfl, rfl⟩
  obtain ⟨h1, h2, h3, h4, h5⟩ := hwindow s.sendSettings (connectionRecvWindow - defaultWindow)
  obtain ⟨k1, k2, k3, k4, k5⟩ := hsettings
  unfold greet
  dsimp only
  split
  · obtain ⟨l1, l2, l3, l4, l5⟩ :=
      hstart (s.sendSettings.sendWindowUpdate none 0 (connectionRecvWindow - defaultWindow)).1
    exact ⟨l1.trans (h1.trans k1), l2.trans (h2.trans k2), l3.trans (h3.trans k3),
      l4.trans (h4.trans k4), l5.trans (h5.trans k5)⟩
  · exact ⟨h1.trans k1, h2.trans k2, h3.trans k3, h4.trans k4, h5.trans k5⟩

/-- Nothing is said or closed when reading starts on a new connection. -/
theorem startRead_new {s : KHttp2} (hnow : s.now = s.lastStreamMsec)
    (hpeer : s.peerGoaway = false) :
    s.startRead = s := by
  unfold startRead
  simp [hnow, hpeer]

/-- The parser of a new connection. -/
theorem Starts.state {s : KHttp2} (h : Starts s) :
    ∃ handler ∈ [Handler.statePreface, .statePrefaceEnd, .stateHead],
      s.state = { ParserState.init with handler := handler } := by
  have hserver : ∀ (now timeOut : ℕ) (junk : ℕ → Http2FrameHeader) (h : Handler),
      ((init now timeOut junk).setState fun st => { st with handler := h }).greet.startRead.state =
        { ParserState.init with handler := h } := by
    intro now timeOut junk h
    obtain ⟨hstate, -, hnow, hlast, hpeer⟩ :=
      ((init now timeOut junk).setState fun st => { st with handler := h }).greet_keeps
    rw [startRead_new (hnow.trans hlast.symm) hpeer, hstate]
    rfl
  cases h with
  | server now timeOut junk => exact ⟨.statePreface, by decide, hserver now timeOut junk _⟩
  | serverH2c now timeOut junk => exact ⟨.statePrefaceEnd, by decide, hserver now timeOut junk _⟩
  | client now timeOut junk =>
    let s : KHttp2 := { init now timeOut junk with
      clientModel := true
      hasAdminStream := true
      lastSelfSid := 1
      processing := 1
      writeBuffer := (init now timeOut junk).writeBuffer.push [.ofBytes clientPreface] }
    refine ⟨.stateHead, by decide, ?_⟩
    show (s.greet.newClientStream true).state = _
    rw [newClientStream_spec s.greet true s.quiet_greet.clientModel]
    exact s.greet_keeps.1

/-- What a new connection is for its streams and its parser. -/
theorem Starts.seen {s : KHttp2} (h : Starts s) (c : CtxId) :
    s.seen c = ⟨.init none false, 0, []⟩ := by
  have hserver : ∀ (now timeOut : ℕ) (junk : ℕ → Http2FrameHeader) (h : Handler),
      ((init now timeOut junk).setState fun st => { st with handler := h }).greet.startRead.seen c =
        ⟨.init none false, 0, []⟩ := by
    intro now timeOut junk h
    obtain ⟨-, -, hnow, hlast, hpeer⟩ :=
      ((init now timeOut junk).setState fun st => { st with handler := h }).greet_keeps
    rw [startRead_new (hnow.trans hlast.symm) hpeer, seen_greet]
    rfl
  cases h with
  | server now timeOut junk => exact hserver now timeOut junk .statePreface
  | serverH2c now timeOut junk => exact hserver now timeOut junk .statePrefaceEnd
  | client now timeOut junk =>
    let s : KHttp2 := { init now timeOut junk with
      clientModel := true
      hasAdminStream := true
      lastSelfSid := 1
      processing := 1
      writeBuffer := (init now timeOut junk).writeBuffer.push [.ofBytes clientPreface] }
    have hfirst : s.greet.seen c = ⟨.init none false, 0, []⟩ := (s.seen_greet c).trans rfl
    show (s.greet.newClientStream true).seen c = _
    refine (s.greet.seen_newClientStream c s.greet.processing true).trans ?_
    by_cases hne : s.greet.nextCtx = c
    · rw [hne, seen_modify _ c _ (fun _ => .init none false) rfl, hfirst]
      rfl
    · exact (seen_modify_other _ hne _).trans hfirst

end KHttp2

end Khttpd
