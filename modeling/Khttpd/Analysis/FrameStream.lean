import Khttpd.Analysis.FrameSync

/-!
# A connection reads the frames of its stream

Over a whole run: the frame headers that the parser takes are the headers of the frames in the
bytes that were received, and between two frames it waits in `state_head` with nothing kept.
-/

set_option autoImplicit false

namespace Khttpd

namespace KHttp2

/-! ## What a run receives -/

/-- The bytes that an event brings. -/
def eventBytes (s : KHttp2) (e : Event) : Bytes :=
  match e with
  | .read chunk => if s.enabled e then chunk else []
  | _ => []

/-- The bytes that a run receives. -/
def receivedBytes (codes : HuffDecodeCodes) : KHttp2 → List Event → Bytes
  | _, [] => []
  | s, e :: es => s.eventBytes e ++ receivedBytes codes (step codes s e) es

/-- The calls of handlers that a run makes. -/
def runCalls (codes : HuffDecodeCodes) : KHttp2 → List Event → List (Handler × KHttp2 × Bytes)
  | _, [] => []
  | s, e :: es => stepCalls codes s e ++ runCalls codes (step codes s e) es

/-! ## Notes of a run -/

theorem not_parse_between : ¬Kind.betweenReads .parse := by
  rintro (h | h) <;> cases h

/-- A step that leaves the parser alone, seen from a connection that is still read after it. -/
theorem state_of_carries {s t : KHttp2} (h : Carries Kind.betweenReads s t)
    (hread : t.readProcessing = true) (hlive : t.deleted = false) :
    t.state = s.state ∧ s.readProcessing = true ∧ s.deleted = false := by
  refine ⟨?_, h.reading hread, ?_⟩
  · rcases h.state with hgone | hstate | hkind
    · exact absurd (hlive.symm.trans hgone) Bool.false_ne_true
    · exact hstate
    · exact absurd hkind not_parse_between
  · exact Bool.eq_false_iff.mpr fun hdel => Bool.false_ne_true (hlive.symm.trans (h.deleted hdel))

/-- What holds after the loop of `on_read_result`, holds after `on_read_result`. -/
theorem onReadResult_of_run {codes : HuffDecodeCodes} {s : KHttp2} {chunk : Bytes}
    {Q : KHttp2 → Prop} (hcarries : ∀ {t u}, Carries Kind.betweenReads t u → Q t → Q u)
    {r : KHttp2 × Option (Handler × Bytes)}
    (hr : Resumable.run (exec codes) (measure s.state.handler (s.state.buffer ++ chunk) + 1)
      s.state.handler ({ s with pinged := false }.setState fun st => { st with buffer := [] })
      (s.state.buffer ++ chunk) = r)
    (hstop : r.2 = none → Q r.1)
    (hwait : ∀ h kept, r.2 = some (h, kept) →
      Q (r.1.setState fun st => { st with handler := h, buffer := kept })) :
    Q (onReadResult codes s chunk) := by
  obtain ⟨t, out⟩ := r
  cases out with
  | none =>
    have hout : onReadResult codes s chunk = t := by
      unfold onReadResult
      rw [receive_none hr]
    rw [hout]
    exact hstop rfl
  | some next =>
    obtain ⟨h, kept⟩ := next
    have hout : onReadResult codes s chunk =
        (t.setState fun st => { st with handler := h, buffer := kept }).startRead := by
      unfold onReadResult
      rw [receive_some hr]
    rw [hout]
    exact hcarries (carries_effects (effects_startRead _)) (hwait h kept rfl)

/-- A property of the bytes received, the notes of the calls and the connection, kept by a read and
by what leaves the parser alone. -/
structure Noted {τ : Type} (codes : HuffDecodeCodes) (note : Handler × KHttp2 × Bytes → Option τ)
    (P : Handler → KHttp2 → Bytes → Prop) (Q : Bytes → List τ → KHttp2 → Prop) : Prop where
  carries : ∀ {x l s t}, Carries Kind.betweenReads s t → Q x l s → Q x l t
  read : ∀ {x l s chunk}, chunk ≠ [] → s.readProcessing = true → s.deleted = false → Q x l s →
    (∀ call ∈ Resumable.calls (exec codes) (measure s.state.handler (s.state.buffer ++ chunk) + 1)
      s.state.handler ({ s with pinged := false }.setState fun st => { st with buffer := [] })
      (s.state.buffer ++ chunk), P call.1 call.2.1 call.2.2) →
    Q (x ++ chunk)
      (((Resumable.calls (exec codes) (measure s.state.handler (s.state.buffer ++ chunk) + 1)
        s.state.handler ({ s with pinged := false }.setState fun st => { st with buffer := [] })
        (s.state.buffer ++ chunk)).filterMap note).reverse ++ l) (onReadResult codes s chunk)

section Noted

variable {τ : Type} {codes : HuffDecodeCodes} {note : Handler × KHttp2 × Bytes → Option τ}
  {P : Handler → KHttp2 → Bytes → Prop} {Q : Bytes → List τ → KHttp2 → Prop} {x : Bytes}
  {l : List τ} {s : KHttp2}

theorem noted_step (hQ : Noted codes note P Q) (e : Event) (hs : Q x l s)
    (hcalls : ∀ call ∈ stepCalls codes s e, P call.1 call.2.1 call.2.2) :
    Q (x ++ s.eventBytes e) (((stepCalls codes s e).filterMap note).reverse ++ l)
      (step codes s e) := by
  by_cases hread : ∃ chunk, e = .read chunk ∧ s.enabled e = true
  · obtain ⟨chunk, rfl, henabled⟩ := hread
    have hstep : step codes s (.read chunk) = onReadResult codes s chunk := if_pos henabled
    have hbytes : s.eventBytes (.read chunk) = chunk := if_pos henabled
    simp only [stepCalls, if_pos henabled] at hcalls ⊢
    simp only [enabled, Bool.and_eq_true, Bool.not_eq_true', decide_eq_true_eq] at henabled
    rw [hstep, hbytes]
    exact hQ.read henabled.2.1.2 henabled.2.1.1 henabled.1 hs hcalls
  · have hquiet : stepCalls codes s e = [] ∧ s.eventBytes e = [] := by
      cases e with
      | read chunk =>
        have hnot : ¬s.enabled (.read chunk) = true := fun h => hread ⟨chunk, rfl, h⟩
        exact ⟨if_neg hnot, if_neg hnot⟩
      | readTimeOut | readError | nextWrite | written _ | writeError | tick _ | call _ _ | connect
      | getAdminStream | destroyPooled _ => exact ⟨rfl, rfl⟩
    rw [hquiet.1, hquiet.2, List.append_nil]
    show Q x l _
    by_cases henabled : s.enabled e = true
    · have hstep : step codes s e = act codes s e := if_pos henabled
      rw [hstep]
      exact hQ.carries (carries_effects (effects_act codes s e henabled
        (fun chunk he => hread ⟨chunk, he, henabled⟩) (Or.inl rfl) (Or.inr rfl))) hs
    · have hstep : step codes s e = s := if_neg henabled
      rw [hstep]
      exact hs

theorem noted_run (hQ : Noted codes note P Q) (es : List Event) (hs : Q x l s)
    (hcalls : ∀ call ∈ runCalls codes s es, P call.1 call.2.1 call.2.2) :
    Q (x ++ receivedBytes codes s es) (((runCalls codes s es).filterMap note).reverse ++ l)
      (run codes s es) := by
  induction es generalizing x l s with
  | nil =>
    rw [show receivedBytes codes s [] = [] from rfl, List.append_nil]
    exact hs
  | cons e es ih =>
    have hone := noted_step hQ e hs fun call hcall => hcalls call (List.mem_append_left _ hcall)
    have hrest := ih hone fun call hcall => hcalls call (List.mem_append_right _ hcall)
    unfold runCalls receivedBytes
    rw [← List.append_assoc x, List.filterMap_append, List.reverse_append, List.append_assoc _ _ l]
    exact hrest

end Noted

/-! ## The place of the stream -/

/-- The frame header that a call takes. -/
def callHead (call : Handler × KHttp2 × Bytes) : Option FrameHead :=
  headTaken call.1 call.2.1 call.2.2

/-- The place of the stream when a connection starts. -/
def startPlace (s : KHttp2) : FramePlace := ⟨s.state.handler.frameLeft s.atHand, [], []⟩

/-- Neither of the two ways to go wrong. -/
def StaysInStep (h : Handler) (s : KHttp2) (p : Bytes) : Prop :=
  ¬LosesPadding h s p ∧ ¬StopsEarly h s p

instance (h : Handler) (s : KHttp2) (p : Bytes) : Decidable (StaysInStep h s p) :=
  inferInstanceAs (Decidable (_ ∧ _))

/-- A connection at the place `d` of its stream that has taken the headers `l`, the latest first. -/
def AtPlace (d : FramePlace) (l : List FrameHead) (s : KHttp2) : Prop :=
  l <:+ d.seen ∧ (s.readProcessing = true → s.deleted = false →
    ∃ c, InStep c s.state.handler s.atHand s.state.buffer ∧
      frameFormat.feed c s.state.buffer = d ∧ c.seen = l ∧
        Rested d l s.state.handler s.state.buffer)

theorem atPlace_carries {d : FramePlace} {l : List FrameHead} {s t : KHttp2}
    (h : Carries Kind.betweenReads s t) (hs : AtPlace d l s) : AtPlace d l t := by
  refine ⟨hs.1, fun hread hlive => ?_⟩
  obtain ⟨hstate, hread', hlive'⟩ := state_of_carries h hread hlive
  rw [hstate, atHand_of_state hstate]
  exact hs.2 hread' hlive'

/-- A connection stays at the place of its stream. -/
theorem noted_atPlace (codes : HuffDecodeCodes) (d : FramePlace) :
    Noted codes callHead StaysInStep fun x l s => AtPlace (frameFormat.feed d x) l s where
  carries h hs := atPlace_carries h hs
  read := by
    intro x l s chunk hchunk hread hlive hs hcalls
    obtain ⟨c, hstep, hfeed, hseen, -⟩ := hs.2 hread hlive
    let d' := frameFormat.feed d (x ++ chunk)
    let start := ({ s with pinged := false } : KHttp2).setState fun st => { st with buffer := [] }
    have hinput : s.state.buffer ++ chunk ≠ [] := fun h => hchunk (List.append_eq_nil_iff.mp h).2
    have hfirst : InStep c s.state.handler start.atHand (s.state.buffer ++ chunk) :=
      hstep.of_input fun hnil => absurd hnil hinput
    have hplace : frameFormat.feed c (s.state.buffer ++ chunk) = d' := by
      rw [RecordStream.Format.feed_append, hfeed, ← RecordStream.Format.feed_append]
    have hloop := @Resumable.run_noted _ _ _ _ (exec codes) measure callHead
      (fun h p t l => ∃ c, InStep c h t.atHand p ∧ frameFormat.feed c p = d' ∧ c.seen = l)
      StaysInStep
      (fun l r => l <:+ d'.seen ∧ (r.2 = none → r.1.readProcessing = false) ∧
        ∀ h' rest, r.2 = some (h', rest) → ∃ c, InStep c h' r.1.atHand rest ∧
          frameFormat.feed c rest = d' ∧ c.seen = l ∧ Rested d' l h' rest)
      (fun h t p h' rest hout => measure_exec codes hout)
      (fun h t p l h' rest ⟨c, hin, hd, hl⟩ hP hout => by
        obtain ⟨c', hin', hd', hl'⟩ := (follows_exec codes hin hP.1 hP.2).onward hout
        refine ⟨c', hin', hd'.trans hd, ?_⟩
        rw [hl', hl]
        rfl)
      (fun h t p l h' rest ⟨c, hin, hd, hl⟩ hP hout => by
        obtain ⟨c', hin', hd', hl', hrested⟩ := (follows_exec codes hin hP.1 hP.2).rest hout
        have hnotes : c'.seen = (callHead (h, t, p)).toList ++ l := by
          rw [hl', hl]
          rfl
        rw [hd, hl] at hrested
        refine ⟨?_, fun hnone => (by cases hnone), fun h'' rest' heq => ?_⟩
        · rw [← hnotes, ← hd, ← hd']
          exact RecordStream.Format.seen_feed c' rest
        · cases heq
          exact ⟨c', hin', hd'.trans hd, hnotes, hrested⟩)
      (fun h t p l ⟨c, hin, hd, hl⟩ hP hout => by
        have htaken := (follows_exec codes hin hP.1 hP.2).taken
        rw [hd, hl] at htaken
        refine ⟨htaken, fun _ => ?_, fun h'' rest' heq => by cases heq⟩
        exact (forward_follows codes h t p).stop (by rw [hout]; rfl))
      (measure s.state.handler (s.state.buffer ++ chunk) + 1) s.state.handler start
      (s.state.buffer ++ chunk) l (Nat.lt_succ_self _) ⟨c, hfirst, hplace, hseen⟩ hcalls
    obtain ⟨hsuffix, hstop, hrest⟩ := hloop
    refine onReadResult_of_run (fun h ht => ?_) rfl (fun hnone => ?_) fun h' kept hsome => ?_
    · exact atPlace_carries h ht
    · exact ⟨hsuffix, fun hreading => absurd (hreading.symm.trans (hstop hnone)) (by decide)⟩
    · exact ⟨hsuffix, fun _ _ => hrest h' kept hsome⟩

/-- A new connection is where its stream starts. -/
theorem Starts.atPlace {s : KHttp2} (h : Starts s) : AtPlace s.startPlace [] s := by
  obtain ⟨handler, hmem, hstate⟩ := h.state
  refine ⟨List.nil_suffix, fun _ _ => ⟨s.startPlace, ?_, ?_, rfl, .of_start rfl rfl⟩⟩
  · have hpre : handler.ofHeaders = false ∧ handler ≠ .stateSettingsParams ∧
        handler ≠ .stateHeaderBlock := by
      cases handler <;> first | exact absurd hmem (by decide) | decide
    have hhandler : s.state.handler = handler := congrArg ParserState.handler hstate
    refine ⟨rfl, rfl, fun hin => ?_, fun _ => ?_, fun heq => ?_, fun heq => ?_, fun _ => rfl⟩
    · rw [hhandler, hpre.1] at hin
      cases hin
    · exact congrArg ParserState.padding hstate
    · exact absurd (hhandler.symm.trans heq) hpre.2.1
    · exact absurd (hhandler.symm.trans heq) hpre.2.2
  · have hbuffer : s.state.buffer = [] := congrArg ParserState.buffer hstate
    rw [hbuffer]
    rfl

/-! ## The whole stream -/

/-- A connection that received a stream up to the place `d` and took the headers `heads`, in this
order: they are the first headers of the stream, all of them while the connection is read; and
between two frames with no header block open, it waits for the next frame with nothing kept. -/
structure ReadsFrames (d : FramePlace) (heads : List FrameHead) (s : KHttp2) : Prop where
  taken : heads <+: d.seen.reverse
  all : s.readProcessing = true → s.deleted = false → heads = d.seen.reverse
  between : s.readProcessing = true → s.deleted = false → d.Between → d.seen ≠ [] →
    blockOpen d.seen = false →
      s.state.handler = .stateHead ∧ s.state.buffer = [] ∧ s.state.padding = 0

/-- In every run that meets neither of the two ways to go wrong, the parser reads the frames of the
stream that the connection received. -/
theorem readsFrames_run (codes : HuffDecodeCodes) {s : KHttp2} (hs : Starts s) (es : List Event)
    (hcalls : ∀ call ∈ runCalls codes s es, StaysInStep call.1 call.2.1 call.2.2) :
    ReadsFrames (frameFormat.feed s.startPlace (receivedBytes codes s es))
      ((runCalls codes s es).filterMap callHead) (run codes s es) := by
  have hrun := noted_run (x := []) (noted_atPlace codes s.startPlace) es hs.atPlace hcalls
  rw [List.append_nil, List.nil_append] at hrun
  obtain ⟨hsuffix, hlive⟩ := hrun
  refine ⟨?_, fun hread hdel => ?_, fun hread hdel hbetween hsome hclosed => ?_⟩
  · rw [← List.reverse_suffix, List.reverse_reverse]
    exact hsuffix
  · obtain ⟨c, hstep, hfeed, hseen, hrested⟩ := hlive hread hdel
    rw [hrested.seen, List.reverse_reverse]
  · obtain ⟨c, hstep, hfeed, hseen, hrested⟩ := hlive hread hdel
    rw [hrested.seen] at hsome hclosed
    obtain ⟨hhandler, hnil⟩ := hrested.between hbetween hsome hclosed
    exact ⟨hhandler, hnil, hstep.padding (by rw [hhandler]; rfl)⟩

/-- A request whose header block comes in two frames, the first with padding. -/
def blockInTwoFrames : List Event :=
  [.read (clientPreface ++ [0, 0, 3, 1, 9, 0, 0, 0, 1, 1, 0x82, 0]),
    .read [0, 0, 1, 9, 4, 0, 0, 0, 1, 0x84]]

theorem readsFrames_run_blockInTwoFrames :
    ReadsFrames (frameFormat.feed (server 0 0 fun _ => .zero).startPlace
        (receivedBytes (fun _ _ => ⟨0, 0, 0, 0⟩) (server 0 0 fun _ => .zero) blockInTwoFrames))
      ((runCalls (fun _ _ => ⟨0, 0, 0, 0⟩) (server 0 0 fun _ => .zero) blockInTwoFrames).filterMap
        callHead)
      (run (fun _ _ => ⟨0, 0, 0, 0⟩) (server 0 0 fun _ => .zero) blockInTwoFrames) :=
  readsFrames_run _ (.server 0 0 fun _ => .zero) _ (by decide +kernel)

end KHttp2

end Khttpd
