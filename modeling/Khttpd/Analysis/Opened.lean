import Khttpd.Analysis.Steps

/-!
# A stream is opened once

On servers and clients alike a stream gets a node at most once in its life. A stream that never
had one is new, or belongs to a request that has not sent its header.
-/

set_option autoImplicit false

namespace Khttpd

/-- The event gives a node to a stream. -/
def Ev.opens (c : CtxId) : Ev → Bool
  | .openNode c' _ => c' = c
  | _ => false

/-- How often a stream got a node. -/
def openings (c : CtxId) (trace : List Ev) : ℕ := trace.countP (Ev.opens c)

theorem openings_cons {c : CtxId} {e : Ev} (he : e.opens c = false) (trace : List Ev) :
    openings c (e :: trace) = openings c trace :=
  List.countP_cons_of_neg (by rw [he]; exact Bool.false_ne_true)

theorem openings_open (c : CtxId) (sid : ℕ) (trace : List Ev) :
    openings c (.openNode c sid :: trace) = openings c trace + 1 :=
  List.countP_cons_of_pos (by simp [Ev.opens])

theorem openings_other {c c' : CtxId} (hne : c' ≠ c) (sid : ℕ) (trace : List Ev) :
    openings c (.openNode c' sid :: trace) = openings c trace :=
  openings_cons (by simp [Ev.opens, hne]) trace

theorem openings_connTrace (c : CtxId) (trace : List Ev) :
    openings c (connTrace trace) = openings c trace := by
  simp only [openings, connTrace, List.countP_filter]
  congr 1
  funext e
  cases e <;> simp [Ev.opens, Ev.isConn]

namespace KHttp2

/-- Every stream is opened at most once: it has a node, or the parser holds it, only after it was
opened, and the streams of requests that have no node yet were not opened. -/
structure Opened (s : KHttp2) : Prop where
  once : ∀ c, openings c s.trace ≤ 1
  linked : ∀ c, (s.ctx c).node.isSome → openings c s.trace = 1
  stream : ∀ c, s.state.stream = some c → openings c s.trace = 1
  unlinked : ∀ c ∈ s.owners, (s.ctx c).node = none → openings c s.trace = 0
  fresh : ∀ c, s.nextCtx ≤ c → openings c s.trace = 0

/-- A step that opens no stream. -/
theorem Opened.of_same {s t : KHttp2} (hs : Opened s)
    (htrace : ∀ c, openings c t.trace = openings c s.trace) (hnext : s.nextCtx ≤ t.nextCtx)
    (hnode : ∀ c, (t.ctx c).node.isSome → (s.ctx c).node.isSome)
    (hstream : ∀ c, t.state.stream = some c →
      s.state.stream = some c ∨ (s.ctx c).node.isSome)
    (howners : ∀ c ∈ t.owners, (t.ctx c).node = none →
      openings c s.trace = 0) : Opened t where
  once c := htrace c ▸ hs.once c
  linked c hc := (htrace c).trans (hs.linked c (hnode c hc))
  stream c hc := (htrace c).trans ((hstream c hc).elim (hs.stream c) (hs.linked c))
  unlinked c hc hnone := (htrace c).trans (howners c hc hnone)
  fresh c hc := (htrace c).trans (hs.fresh c (hnext.trans hc))

/-- A step that keeps the table of streams. -/
theorem Opened.of_links {s t : KHttp2} (hs : Opened s) (hlinks : t.links = s.links)
    (htrace : connTrace t.trace = connTrace s.trace) : Opened t := by
  have hnode : ∀ c, (t.ctx c).node = (s.ctx c).node :=
    fun c => congrFun (congrArg Links.node hlinks) c
  have hstream : t.state.stream = s.state.stream := congrArg Links.stream hlinks
  have howners : t.owners = s.owners := congrArg Links.owners hlinks
  have hnext : t.nextCtx = s.nextCtx := congrArg Links.nextCtx hlinks
  refine hs.of_same (fun c => ?_) hnext.ge (fun c hc => hnode c ▸ hc)
    (fun c hc => Or.inl (hstream ▸ hc)) fun c hc hnone => ?_
  · rw [← openings_connTrace, htrace, openings_connTrace]
  · rw [howners] at hc
    rw [hnode] at hnone
    exact hs.unlinked c hc hnone

theorem Opened.quiet {s t : KHttp2} (hs : Opened s) (h : Quiet s t) : Opened t :=
  hs.of_links (links_of_quiet h) h.conn

/-- A step of a writer. -/
theorem Opened.sending {s t : KHttp2} (hs : Opened s) (h : Sending s t) : Opened t := by
  cases h with
  | quiet h => exact hs.quiet h
  | send c e len hnode hopen hpos hframe hstream hconn =>
    obtain ⟨-, -, htrace⟩ := s.sendData_spec c e len hnode
    have hlinks := (s.sendData_keeps c e len hnode).1
    have hnodes : ∀ c', ((s.sendData c e len).ctx c').node = (s.ctx c').node :=
      fun c' => congrFun (congrArg Links.node hlinks) c'
    have howners : (s.sendData c e len).owners = s.owners := congrArg Links.owners hlinks
    have hnext : (s.sendData c e len).nextCtx = s.nextCtx := congrArg Links.nextCtx hlinks
    have hheld : (s.sendData c e len).state.stream = s.state.stream :=
      congrArg Links.stream hlinks
    refine hs.of_same (fun c' => ?_) hnext.ge (fun c' hc' => hnodes c' ▸ hc')
      (fun c' hc' => Or.inl (hheld ▸ hc')) fun c' hc' hnone => ?_
    · rw [htrace]
      exact openings_cons rfl _
    · rw [howners] at hc'
      rw [hnodes] at hnone
      exact hs.unlinked c' hc' hnone

/-- A change of windows. -/
theorem Opened.windowChange {s t : KHttp2} (hgood : s.links.Good) (hs : Opened s)
    (h : WindowChange s t) : Opened t := by
  have hlinks := links_windowChange hgood h
  have hnodes : ∀ c', (t.ctx c').node = (s.ctx c').node :=
    fun c' => congrFun (congrArg Links.node hlinks) c'
  have howners : t.owners = s.owners := congrArg Links.owners hlinks
  have hnext : t.nextCtx = s.nextCtx := congrArg Links.nextCtx hlinks
  have hheld : t.state.stream = s.state.stream := congrArg Links.stream hlinks
  refine hs.of_same (fun c' => ?_) hnext.ge (fun c' hc' => hnodes c' ▸ hc')
    (fun c' hc' => Or.inl (hheld ▸ hc')) fun c' hc' hnone => ?_
  · cases h with
    | initial value h =>
      rw [adjustAll_eq hgood]
      exact openings_cons rfl _
    | _ => exact openings_cons rfl _
  · rw [howners] at hc'
    rw [hnodes] at hnone
    exact hs.unlinked c' hc' hnone

/-- A stream that is released. -/
theorem openings_releaseStream (s : KHttp2) (c c' : CtxId) :
    openings c' (s.releaseStream c).trace = openings c' s.trace := by
  obtain ⟨u, hu, -, -, heq⟩ := s.releaseStream_spec c
  have htrace : openings c' u.trace = openings c' s.trace := by
    rw [← openings_connTrace, hu.conn, openings_connTrace]
  rw [heq, ← htrace]
  cases (s.ctx c).node with
  | none => rfl
  | some id => exact openings_cons rfl _

theorem openings_releaseAdminCount (s : KHttp2) (c c' : CtxId) :
    openings c' (s.releaseAdminCount c).trace = openings c' s.trace := by
  obtain ⟨-, -, -, -, -, -, -, htrace, -⟩ := s.releaseAdminCount_spec c
  rw [htrace]
  exact openings_cons rfl _

/-- A stream that is released and is nobody's any more. -/
theorem Opened.released {s t : KHttp2} (hsound : Sound s) (hs : Opened s) {c : CtxId}
    (stream : Option CtxId)
    (hlinks : t.links = { s.links.free c with owners := s.owners.erase c, stream := stream })
    (hstream : stream = none ∨ stream = s.state.stream)
    (htrace : ∀ c', openings c' t.trace = openings c' (s.releaseStream c).trace) : Opened t := by
  have hnode : ∀ c', (t.ctx c').node = if c' = c then none else (s.ctx c').node := fun c' => by
    have h := congrFun (congrArg Links.node hlinks) c'
    simp only [Links.node_free] at h
    exact h
  have howners : t.owners = s.owners.erase c := congrArg Links.owners hlinks
  have hnext : t.nextCtx = s.nextCtx :=
    (congrArg Links.nextCtx hlinks).trans (s.links.free_keeps c).2.2.2.1
  have hheld : t.state.stream = stream := congrArg Links.stream hlinks
  refine hs.of_same (fun c' => (htrace c').trans (s.openings_releaseStream c c')) hnext.ge
    (fun c' hc' => ?_) (fun c' hc' => ?_) fun c' hc' hnone => ?_
  · rw [hnode] at hc'
    split at hc'
    · cases hc'
    · exact hc'
  · rw [hheld] at hc'
    rcases hstream with h | h
    · rw [h] at hc'
      cases hc'
    · exact Or.inl (h ▸ hc')
  · rw [howners] at hc'
    obtain ⟨hne, hmem⟩ := hsound.good.distinct.mem_erase_iff.mp hc'
    rw [hnode, if_neg hne] at hnone
    exact hs.unlinked c' hmem hnone

/-- Every move opens a stream at most once. -/
theorem Opened.move {slips : Slip → Prop} {s t : KHttp2} (hsound : Sound s) (hs : Opened s)
    (h : Move slips s t) : Opened t := by
  cases h with
  | sending h => exact hs.sending h
  | openStream p hserver hnew hlast =>
    obtain ⟨ctx, st, trace, hnode, -, -, -, -, -, hstream, htrace, heq⟩ :=
      ({ s with lastPeerSid := s.state.sid } : KHttp2).headersNewStream_spec p
    have hopenings : ∀ c, openings c trace =
        if s.nextCtx = c then openings c s.trace + 1 else openings c s.trace := by
      intro c
      rw [← openings_connTrace, htrace]
      split
      · rename_i hc
        subst hc
        exact (openings_open ..).trans (by rw [openings_connTrace])
      · rename_i hc
        exact (openings_other hc ..).trans (openings_connTrace ..)
    have hzero := hs.fresh s.nextCtx (Nat.le_refl _)
    rw [heq]
    refine ⟨fun c => ?_, fun c hc => ?_, fun c hc => ?_, fun c hc hnone => ?_, fun c hc => ?_⟩
    · dsimp only
      rw [hopenings]
      split
      · rename_i hc
        subst hc
        omega
      · exact hs.once c
    · dsimp only at hc ⊢
      rw [hopenings]
      split
      · rename_i hc
        subst hc
        omega
      · rename_i hne
        rw [Function.update_of_ne (Ne.symm hne)] at hc
        exact hs.linked c hc
    · dsimp only at hc ⊢
      rw [hstream] at hc
      obtain rfl : s.nextCtx = c := Option.some.inj hc
      rw [hopenings, if_pos rfl, hzero]
    · dsimp only at hc hnone ⊢
      have hne : s.nextCtx ≠ c := fun heq => by
        exact Nat.lt_irrefl _ (heq ▸ hsound.good.known c hc)
      rw [Function.update_of_ne (Ne.symm hne)] at hnone
      rw [hopenings, if_neg hne]
      exact hs.unlinked c hc hnone
    · dsimp only at hc ⊢
      rw [hopenings, if_neg (by omega)]
      exact hs.fresh c (Nat.le_of_succ_le hc)
  | newClientStream processing admin hclient =>
    rw [newClientStream_spec { s with processing := processing } admin hclient]
    have hctx : ∀ c, c ≠ s.nextCtx → ∀ ctx, Function.update s.ctx s.nextCtx ctx c = s.ctx c :=
      fun c hc ctx => Function.update_of_ne hc ..
    refine hs.of_same (fun _ => rfl) (Nat.le_succ _) (fun c hc => ?_) (fun c hc => Or.inl hc)
      fun c hc hnone => ?_
    · by_cases hne : c = s.nextCtx
      · subst hne
        dsimp only at hc
        rw [Function.update_self] at hc
        cases hc
      · dsimp only at hc
        rw [hctx c hne] at hc
        exact hc
    · rcases List.mem_cons.mp hc with rfl | hc
      · exact hs.fresh _ (Nat.le_refl _)
      · have hne : c ≠ s.nextCtx := fun heq =>
          Nat.lt_irrefl _ (heq ▸ hsound.good.known c hc)
        dsimp only at hnone
        rw [hctx c hne] at hnone
        exact hs.unlinked c hc hnone
  | linkNode c hclient hnone howner hslip =>
    have hopenings : ∀ c', openings c' (s.linkNode c).trace =
        if c = c' then openings c' s.trace + 1 else openings c' s.trace := by
      intro c'
      change openings c' (.openNode c _ :: s.trace) = _
      split
      · rename_i hc
        subst hc
        exact openings_open ..
      · rename_i hc
        exact openings_other hc ..
    have hctx : ∀ c', c' ≠ c → (s.linkNode c).ctx c' = s.ctx c' := fun c' hc => by
      simp only [KHttp2.linkNode, modify, Function.update_of_ne hc]
      rfl
    have hself : (s.linkNode c).ctx c = { s.ctx c with node := some (s.lastSelfSid + 2) } := by
      simp only [KHttp2.linkNode, modify, Function.update_self]
      rfl
    have hzero := hs.unlinked c howner hnone
    refine ⟨fun c' => ?_, fun c' hc' => ?_, fun c' hc' => ?_, fun c' hc' hnot => ?_,
      fun c' hc' => ?_⟩
    · rw [hopenings]
      split
      · rename_i hc
        subst hc
        omega
      · exact hs.once c'
    · rw [hopenings]
      split
      · rename_i hc
        subst hc
        omega
      · rename_i hc
        rw [hctx c' (Ne.symm hc)] at hc'
        exact hs.linked c' hc'
    · have hone := hs.stream c' hc'
      have hne : c ≠ c' := by
        rintro rfl
        omega
      rw [hopenings, if_neg hne]
      exact hone
    · have hne : c' ≠ c := by
        rintro rfl
        rw [hself] at hnot
        cases hnot
      rw [hctx c' hne] at hnot
      rw [hopenings, if_neg (Ne.symm hne)]
      exact hs.unlinked c' hc' hnot
    · have hne : c ≠ c' := by
        rintro rfl
        exact absurd (hsound.good.known c howner) (Nat.not_lt.mpr hc')
      rw [hopenings, if_neg hne]
      exact hs.fresh c' hc'
  | peerSid sid hserver hlast =>
    exact hs.of_same (fun _ => rfl) (Nat.le_refl _) (fun _ h => h) (fun _ h => Or.inl h) hs.unlinked
  | hold c hnode hlast =>
    refine hs.of_same (fun _ => rfl) (Nat.le_refl _) (fun _ h => h) (fun c' hc' => ?_) hs.unlinked
    obtain rfl : c = c' := Option.some.inj hc'
    exact Or.inr hnode
  | letGo =>
    exact hs.of_same (fun _ => rfl) (Nat.le_refl _) (fun _ h => h) (fun _ h => by cases h)
      hs.unlinked
  | start c hserver hstream hparsed =>
    have hnode := (hsound.served hserver).parsing c hstream hparsed
    have hnodes : ∀ c', ((s.startRequest c).ctx c').node = (s.ctx c').node := fun c' => by
      by_cases hc : c' = c
      · subst hc
        simp only [startRequest, log, modify, setState, Function.update_self]
      · simp only [startRequest, log, modify, setState, Function.update_of_ne hc]
    refine hs.of_same (fun _ => openings_cons rfl _) (Nat.le_refl _) (fun c' hc' => hnodes c' ▸ hc')
      (fun _ h => by cases h) fun c' hc' hnone => ?_
    rw [hnodes] at hnone
    rcases List.mem_cons.mp hc' with rfl | hc'
    · exact absurd hnone (Option.isSome_iff_ne_none.mp hnode)
    · exact hs.unlinked c' hc' hnone
  | response c hclient =>
    have hnodes : ∀ c', ((s.modify c fun ctx => { ctx with parsedHeader := true }).ctx c').node =
        (s.ctx c').node := fun c' => by
      by_cases hc : c' = c
      · subst hc
        simp only [modify, Function.update_self]
      · simp only [modify, Function.update_of_ne hc]
    exact hs.of_same (fun _ => rfl) (Nat.le_refl _) (fun c' hc' => hnodes c' ▸ hc')
      (fun _ h => Or.inl h) fun c' hc' hnone => hs.unlinked c' hc' (hnodes c' ▸ hnone)
  | release c howner =>
    refine hs.released (c := c) hsound s.state.stream ((s.links_release c).trans ?_) (Or.inr rfl)
      fun c' => openings_releaseAdminCount _ c c'
    simp only [Links.mk.injEq, true_and, and_true]
    exact (s.links.free_keeps c).2.2.1
  | gc c hclient =>
    refine hs.released (c := c) hsound s.state.stream ?_ (Or.inr rfl) fun _ => rfl
    calc (s.gc c).links = { (s.releaseStream c).links with owners := s.owners.erase c } := rfl
      _ = _ := by
        rw [links_releaseStream]
        simp only [Links.mk.injEq, true_and, and_true]
        exact (s.links.free_keeps c).2.2.1
  | wait c e hnode hopen hused =>
    refine Opened.quiet ?_ (calm_addQueue _ c).quiet
    exact hs.of_links (s.links_writeEvent c e) rfl
  | windows hchange hsends hparked =>
    have hu := hs.windowChange hsound.good hchange
    clear hchange hparked
    induction hsends with
    | refl => exact hu
    | tail _ h ih => exact ih.sending h
  | delete =>
    exact hs.of_same (fun _ => rfl) (Nat.le_refl _) (fun _ h => h) (fun _ h => Or.inl h) hs.unlinked
  | drop c hslip hserver hstream hparsed ht =>
    rename_i t
    have hlinks : t.links = { s.links.free c with owners := s.owners.erase c } :=
      (links_of_quiet ht).trans (s.links_release c)
    have hnone : (t.ctx c).node = none := by
      have h := congrFun (congrArg Links.node hlinks) c
      simp only [Links.node_free, if_true] at h
      exact h
    rw [hnone]
    refine hs.released (c := c) hsound none ?_ (Or.inl rfl) fun c' => ?_
    · calc ((t.destroyNode c none).setState fun st => { st with stream := none }).links
          = { t.links with stream := none } := rfl
        _ = _ := by rw [hlinks]
    · refine (openings_cons rfl _).trans ?_
      rw [← openings_connTrace c' t.trace, ht.conn, openings_connTrace, openings_releaseAdminCount]
  | unqueue c hslip =>
    exact hs.of_same (fun _ => rfl) (Nat.le_refl _) (fun _ h => h) (fun _ h => Or.inl h) hs.unlinked

/-- A path. -/
theorem Opened.path {slips : Slip → Prop} {s t : KHttp2} (hsound : Sound s) (hs : Opened s)
    (h : Path slips s t) : Opened t := by
  induction h with
  | refl => exact hs
  | tail hpath hmove ih => exact ih.move (hsound.path hpath) hmove

/-- Nothing is open on a blank connection. -/
theorem Blank.opened {s : KHttp2} (h : Blank s) : Opened s := by
  have hzero : ∀ c, openings c s.trace = 0 := fun c => by rw [h.trace]; rfl
  refine ⟨fun c => (hzero c).trans_le (Nat.zero_le _), fun c hc => ?_, fun c hc => ?_,
    fun c _ _ => hzero c, fun c _ => hzero c⟩
  · rw [h.ctx c] at hc
    cases hc
  · rw [h.stream] at hc
    cases hc

theorem Starts.opened {s : KHttp2} (h : Starts s) : Opened s := by
  obtain ⟨b, hb, hpath⟩ : ∃ b, Blank b ∧ Path (fun _ => True) b s := h.path
  exact hb.opened.path hb.sound hpath

end KHttp2

end Khttpd
