import Khttpd.Analysis.Steps

/-!
# No lost wake-up

A writer that waits for window is in the queue of waiting streams, and one of its windows is used
up. The only way to lose it is a HEADERS frame for its stream, which takes the stream off the
queue.
-/

set_option autoImplicit false

namespace Khttpd

namespace KHttp2

/-- Every waiting writer is in the queue, on a stream that is not reset. -/
def Queued (s : KHttp2) : Prop :=
  ∀ c, (s.ctx c).waitsForWindow = true → (s.ctx c).rst = false ∧ c ∈ s.activeQueue

/-- A writer that waits for window is linked in the queue, and one of its two windows is used
up. -/
def WaitsSafely (s : KHttp2) : Prop :=
  ∀ c, (s.ctx c).waitsForWindow = true →
    c ∈ s.activeQueue ∧ ((s.ctx c).sendWindow ≤ 0 ∨ s.sendWindow = 0)

/-! ## Windows of waiting writers -/

/-- A step that touches no window. -/
theorem Parked.of_same {s t : KHttp2} (hs : Parked s) (h : SameWindows s t) : Parked t := by
  intro c hc
  rw [h.stream c, h.conn]
  exact hs c (h.waits c hc)

/-- A step of a writer. -/
theorem Parked.sending {s t : KHttp2} (hsound : Sound s) (hs : Parked s) (h : Sending s t) :
    Parked t := by
  have hlow := lower_sending hsound h
  intro c hc
  rcases hs c (hlow.waits c hc) with h | h
  · exact Or.inl ((hlow.stream c).trans h)
  · exact Or.inr (Nat.le_zero.mp (h ▸ hlow.conn))

/-- A stream that is made. -/
theorem Parked.newStream {s t : KHttp2} (hs : Parked s) {ctx : KHttp2Context}
    (hctx : t.ctx = Function.update s.ctx s.nextCtx ctx) (hwait : ctx.writeWait = none)
    (hconn : t.sendWindow = s.sendWindow) : Parked t := by
  intro c hc
  rw [hctx] at hc ⊢
  rw [hconn]
  by_cases hcc : c = s.nextCtx
  · subst hcc
    simp only [Function.update_self, KHttp2Context.waitsForWindow, hwait, Option.any_none] at hc
    cases hc
  · rw [Function.update_of_ne hcc] at hc ⊢
    exact hs c hc

/-- Every move keeps the windows of waiting writers used up. -/
theorem Parked.move {slips : Slip → Prop} {s t : KHttp2} (hsound : Sound s) (hs : Parked s)
    (h : Move slips s t) : Parked t := by
  cases h with
  | sending h => exact hs.sending hsound h
  | openStream p hserver hnew hlast =>
    obtain ⟨ctx, st, trace, -, -, -, -, -, hwait, -, -, heq⟩ :=
      ({ s with lastPeerSid := s.state.sid } : KHttp2).headersNewStream_spec p
    rw [heq]
    exact hs.newStream rfl hwait rfl
  | newClientStream processing admin hclient =>
    rw [newClientStream_spec { s with processing := processing } admin hclient]
    exact hs.newStream rfl rfl rfl
  | linkNode c hclient hnone howner hslip => exact hs.of_same (s.sameWindows_linkNode c)
  | peerSid sid hserver hlast => exact hs.of_same (.of_fields rfl rfl rfl rfl)
  | hold c hnode hlast => exact hs.of_same (.of_fields rfl rfl rfl rfl)
  | letGo => exact hs.of_same (.of_fields rfl rfl rfl rfl)
  | start c hserver hstream hparsed => exact hs.of_same (s.sameWindows_startRequest c)
  | response c hclient => exact hs.of_same (sameWindows_modify rfl rfl)
  | release c howner =>
    exact hs.of_same ((s.sameWindows_releaseStream c).trans (sameWindows_releaseAdminCount _ c))
  | gc c hclient =>
    exact hs.of_same ((s.sameWindows_releaseStream c).trans (.of_fields rfl rfl rfl rfl))
  | wait c e hnode hopen hused =>
    refine Parked.of_same (s := s.modify c fun ctx => { ctx with writeWait := some e }) ?_
      (sameWindows_of_quiet (calm_addQueue _ c).quiet)
    intro c' hc'
    by_cases hc : c' = c
    · subst hc
      simp only [modify, Function.update_self]
      exact hused
    · simp only [modify, Function.update_of_ne hc] at hc' ⊢
      exact hs c' hc'
  | windows hchange hsends hparked => exact hparked hs
  | delete => exact hs
  | drop c hslip hserver hstream hparsed ht =>
    have hsame := ((s.sameWindows_releaseStream c).trans (sameWindows_releaseAdminCount _ c)).trans
      (sameWindows_of_quiet ht)
    exact hs.of_same (hsame.trans ((sameWindows_destroyNode _ c _).trans
      (.of_fields rfl rfl rfl rfl)))
  | unqueue c hslip => exact hs

/-! ## The queue of waiting writers -/

/-- A quiet step keeps waiting writers in the queue. -/
theorem Queued.quiet {s t : KHttp2} (hs : Queued s) (h : Quiet s t) : Queued t := by
  intro c hc
  obtain ⟨hrst, hmem⟩ := hs c ((h.ctx c).waits hc)
  refine ⟨Bool.eq_false_iff.mpr fun hnew => ?_, h.queue c hc hrst hmem⟩
  rcases (h.ctx c).running hnew with hold | hend
  · exact Bool.false_ne_true (hrst.symm.trans hold)
  · exact Bool.false_ne_true (hend.symm.trans hc)

/-- A step that neither resets a stream nor touches the queue. -/
theorem Queued.of_ctx {s t : KHttp2} (hs : Queued s) (hqueue : t.activeQueue = s.activeQueue)
    (h : ∀ c, (t.ctx c).waitsForWindow = true →
      (s.ctx c).waitsForWindow = true ∧ (t.ctx c).rst = (s.ctx c).rst) : Queued t := by
  intro c hc
  obtain ⟨hwaits, hrst⟩ := h c hc
  rw [hrst, hqueue]
  exact hs c hwaits

/-- An assignment to other fields of a stream. -/
theorem Queued.modify {s : KHttp2} (hs : Queued s) {c : CtxId} {f : KHttp2Context → KHttp2Context}
    (hwait : (f (s.ctx c)).writeWait = (s.ctx c).writeWait)
    (hrst : (f (s.ctx c)).rst = (s.ctx c).rst) : Queued (s.modify c f) := by
  refine hs.of_ctx rfl fun c' hc' => ?_
  by_cases hc : c' = c
  · subst hc
    simp only [KHttp2.modify, Function.update_self, KHttp2Context.waitsForWindow, hwait] at hc' ⊢
    exact ⟨hc', hrst⟩
  · simp only [KHttp2.modify, Function.update_of_ne hc] at hc' ⊢
    exact ⟨hc', trivial⟩

/-- A step of a writer. -/
theorem Queued.sending {s t : KHttp2} (hs : Queued s) (h : Sending s t) : Queued t := by
  cases h with
  | quiet h => exact hs.quiet h
  | send c e len hnode hopen hpos hframe hstream hconn =>
    obtain ⟨hctx, -⟩ := s.sendData_spec c e len hnode
    refine hs.of_ctx (s.sendData_keeps c e len hnode).2.1 fun c' hc' => ?_
    have hc : c' ≠ c := by
      rintro rfl
      exact Bool.false_ne_true ((waits_sendData hnode).symm.trans hc')
    rw [hctx, Function.update_of_ne hc] at hc' ⊢
    exact ⟨hc', rfl⟩

/-- A stream that is made. -/
theorem Queued.newStream {s t : KHttp2} (hs : Queued s) {ctx : KHttp2Context}
    (hctx : t.ctx = Function.update s.ctx s.nextCtx ctx) (hwait : ctx.writeWait = none)
    (hqueue : t.activeQueue = s.activeQueue) : Queued t := by
  refine hs.of_ctx hqueue fun c hc => ?_
  rw [hctx] at hc ⊢
  by_cases hcc : c = s.nextCtx
  · subst hcc
    simp only [Function.update_self, KHttp2Context.waitsForWindow, hwait, Option.any_none] at hc
    cases hc
  · rw [Function.update_of_ne hcc] at hc ⊢
    exact ⟨hc, rfl⟩

/-- A stream that is released. -/
theorem Queued.releaseStream {s : KHttp2} (hs : Queued s) (c : CtxId) :
    Queued (s.releaseStream c) := by
  obtain ⟨t, ht, -, -, heq⟩ := s.releaseStream_spec c
  rw [heq]
  cases (s.ctx c).node with
  | none => exact hs.quiet ht
  | some id =>
    have ht' : Queued t := hs.quiet ht
    have hdestroy : Queued (t.destroyNode c (some id)) := ht'
    exact hdestroy.modify rfl rfl

/-- A stream that is handed back. -/
theorem Queued.releaseAdminCount {s : KHttp2} (hs : Queued s) (c : CtxId) :
    Queued (s.releaseAdminCount c) := by
  obtain ⟨-, -, -, -, -, -, -, -, -, -, -, hqueue⟩ := s.releaseAdminCount_spec c
  refine hs.of_ctx hqueue fun c' hc' => ?_
  obtain ⟨mark, hctx⟩ := s.releaseAdminCount_ctx c c'
  rw [hctx] at hc' ⊢
  exact ⟨hc', rfl⟩

/-- A change of windows. -/
theorem Queued.windowChange {s t : KHttp2} (hgood : s.links.Good) (hs : Queued s)
    (h : WindowChange s t) : Queued t := by
  refine hs.of_ctx ?_ fun c hc => ⟨waits_windowChange hgood h c ▸ hc, ?_⟩
  · cases h with
    | initial value h => rw [adjustAll_eq hgood]; rfl
    | _ => rfl
  · cases h with
    | stream c' window hnode h =>
      by_cases hcc : c = c'
      · subst hcc
        simp only [KHttp2.modify, Function.update_self]
        rfl
      · simp only [KHttp2.modify, Function.update_of_ne hcc]
        rfl
    | initial value h =>
      rw [adjustAll_eq hgood]
      dsimp only
      split
      · rw [adjustCtx_keeps]
      · rfl
    | _ => rfl

/-- Every move but the slip keeps waiting writers in the queue. -/
theorem Queued.move {slips : Slip → Prop} (hslips : ¬slips .unqueueWriter) {s t : KHttp2}
    (hgood : s.links.Good) (hs : Queued s) (h : Move slips s t) : Queued t := by
  cases h with
  | sending h => exact hs.sending h
  | openStream p hserver hnew hlast =>
    obtain ⟨ctx, st, trace, -, -, -, -, -, hwait, -, -, heq⟩ :=
      ({ s with lastPeerSid := s.state.sid } : KHttp2).headersNewStream_spec p
    rw [heq]
    exact hs.newStream rfl hwait rfl
  | newClientStream processing admin hclient =>
    rw [newClientStream_spec { s with processing := processing } admin hclient]
    exact hs.newStream rfl rfl rfl
  | linkNode c hclient hnone howner hslip =>
    unfold KHttp2.linkNode
    extract_lets s1
    have hnew : Queued (s1.newNode s1.lastSelfSid c) := hs
    exact hnew.modify rfl rfl
  | peerSid sid hserver hlast => exact hs
  | hold c hnode hlast => exact hs
  | letGo => exact hs
  | start c hserver hstream hparsed =>
    unfold startRequest
    extract_lets s1
    have hset : Queued (s.setState fun st => { st with stream := none }) := hs
    have hs1 : Queued s1 := hset.modify rfl rfl
    exact hs1
  | response c hclient => exact hs.modify rfl rfl
  | release c howner => exact (hs.releaseStream c).releaseAdminCount c
  | gc c hclient => exact hs.releaseStream c
  | wait c e hnode hopen hused =>
    intro c' hc'
    have hqueue : ((s.modify c fun ctx => { ctx with writeWait := some e }).addQueue
      c).activeQueue =
        s.activeQueue.erase c ++ [c] := rfl
    have hadd := calm_addQueue (s.modify c fun ctx => { ctx with writeWait := some e }) c
    by_cases hc : c' = c
    · subst hc
      refine ⟨?_, hqueue ▸ List.mem_append_right _ (List.mem_singleton_self _)⟩
      refine Bool.eq_false_iff.mpr fun hrst => ?_
      simp only [addQueue, removeQueue, KHttp2.modify, Function.update_self] at hrst
      exact Bool.false_ne_true (hopen.symm.trans hrst)
    · have hsame : ((s.modify c fun ctx => { ctx with writeWait := some e }).addQueue c).ctx c' =
          s.ctx c' := by
        simp only [addQueue, removeQueue, KHttp2.modify, Function.update_of_ne hc]
      rw [hsame] at hc' ⊢
      obtain ⟨hrst, hmem⟩ := hs c' hc'
      exact ⟨hrst, hqueue ▸ List.mem_append_left _ ((List.mem_erase_of_ne hc).mpr hmem)⟩
  | windows hchange hsends hparked =>
    have hu := hs.windowChange hgood hchange
    clear hchange hparked
    induction hsends with
    | refl => exact hu
    | tail _ h ih => exact ih.sending h
  | delete => exact hs
  | drop c hslip hserver hstream hparsed ht =>
    have hreleased := ((hs.releaseStream c).releaseAdminCount c).quiet ht
    refine hreleased.of_ctx ?_ fun c' hc' => ?_
    · cases hnode : (KHttp2.ctx _ c).node <;> rfl
    · cases hnode : (KHttp2.ctx _ c).node <;> rw [hnode] at hc' <;> exact ⟨hc', rfl⟩
  | unqueue c hslip => exact absurd hslip hslips

/-! ## Runs -/

/-- A run in which no HEADERS frame takes a stream off the queue whose writer waits there. -/
def KeepsWriters (codes : HuffDecodeCodes) (s : KHttp2) (es : List Event) : Prop :=
  Along codes (fun s e => ¬slipsIn codes s e .unqueueWriter) s es

/-- Along a path without the slip every waiting writer waits safely. -/
theorem waitsSafely_path {slips : Slip → Prop} (hslips : ¬slips .unqueueWriter) {s t : KHttp2}
    (hsound : Sound s) (hparked : Parked s) (hqueued : Queued s) (h : Path slips s t) :
    Parked t ∧ Queued t := by
  induction h with
  | refl => exact ⟨hparked, hqueued⟩
  | tail hpath hmove ih =>
    have hmid := hsound.path hpath
    exact ⟨ih.1.move hmid hmove, ih.2.move hslips hmid.good hmove⟩

/-- What holds before every event of a run, for a weaker condition. -/
theorem Along.imp {codes : HuffDecodeCodes} {P Q : KHttp2 → Event → Prop}
    (h : ∀ s e, P s e → Q s e) (es : List Event) {s : KHttp2} (hp : Along codes P s es) :
    Along codes Q s es := by
  induction es generalizing s with
  | nil => trivial
  | cons e es ih => exact ⟨h s e hp.1, ih hp.2⟩

/-- On a blank connection no writer waits. -/
theorem Blank.waits {s : KHttp2} (h : Blank s) (c : CtxId) : (s.ctx c).waitsForWindow = false := by
  rw [h.ctx c]
  rfl

/-- A server whose peer starts with an initial window of 0, sends a request that is answered,
and then sends trailers while the answer waits for window. -/
def trailersWhileWaiting : List Event :=
  [.read (clientPreface ++ [0, 0, 6, 4, 0, 0, 0, 0, 0, 0, 4, 0, 0, 0, 0] ++
      [0, 0, 1, 1, 4, 0, 0, 0, 1, 0x82]),
    .call 0 (.addStatus 200), .call 0 (.startResponseBody 5 false),
    .call 0 (.write [[1, 2, 3, 4, 5]] 5),
    .read [0, 0, 1, 1, 5, 0, 0, 0, 1, 0x82]]

end KHttp2

end Khttpd
