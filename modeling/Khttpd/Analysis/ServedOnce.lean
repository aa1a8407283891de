import Mathlib.Data.List.Pairwise
import Khttpd.Analysis.Wakeup

/-!
# A stream identifier is served once

On a server the identifiers of the streams that are opened increase strictly, and so do those of
the requests that are started. The source lets a peer open a stream again under the last
identifier it used; a run without such a frame serves every identifier at most once.
-/

set_option autoImplicit false

namespace Khttpd

/-- The streams for which a node was made, with their identifiers, latest first. -/
def openedStreams (trace : List Ev) : List (CtxId × ℕ) :=
  trace.filterMap fun e =>
    match e with
    | .openNode c sid => some (c, sid)
    | _ => none

/-- The streams for which a request fiber was started, with their identifiers, latest first. -/
def startedStreams (trace : List Ev) : List (CtxId × ℕ) :=
  trace.filterMap fun e =>
    match e with
    | .startFiber c sid => some (c, sid)
    | _ => none

theorem openedStreams_connTrace (trace : List Ev) :
    openedStreams (connTrace trace) = openedStreams trace := by
  simp only [openedStreams, connTrace, List.filterMap_filter]
  congr 1
  funext e
  cases e <;> simp [Ev.isConn]

theorem startedStreams_connTrace (trace : List Ev) :
    startedStreams (connTrace trace) = startedStreams trace := by
  simp only [startedStreams, connTrace, List.filterMap_filter]
  congr 1
  funext e
  cases e <;> simp [Ev.isConn]

/-- What a connection remembers of the streams it opened. -/
structure Lives where
  links : Links
  lastPeerSid : ℕ
  opened : List (CtxId × ℕ)
  started : List (CtxId × ℕ)

/-- Every identifier was opened and served at most once, in increasing order. A stream that is
not started yet, and that the parser holds, has an identifier above all that were served. -/
structure Lives.Once (l : Lives) : Prop where
  opened : (l.opened.map Prod.snd).Pairwise (· > ·)
  started : (l.started.map Prod.snd).Pairwise (· > ·)
  peer : ∀ x ∈ l.opened, x.2 ≤ l.lastPeerSid
  fresh : ∀ x ∈ l.opened, x.1 < l.links.nextCtx
  held : ∀ c sid, l.links.node c = some sid → (c, sid) ∈ l.opened
  begun : ∀ x ∈ l.started, x ∈ l.opened ∧ l.links.parsedHeader x.1 = true
  parsing : ∀ c, l.links.stream = some c → l.links.parsedHeader c = false →
    ∃ sid, l.links.node c = some sid ∧ ∀ x ∈ l.started, x.2 < sid

namespace Lives

/-- Two streams were not opened under one identifier. -/
theorem Once.injective {l : Lives} (h : l.Once) {c c' sid : ℕ} (hc : (c, sid) ∈ l.opened)
    (hc' : (c', sid) ∈ l.opened) : c = c' := by
  have hnodup : (l.opened.map Prod.snd).Nodup := h.opened.imp fun hlt => Nat.ne_of_gt hlt
  exact congrArg Prod.fst (List.inj_on_of_nodup_map hnodup hc hc' rfl)

/-- A new stream under an identifier that the peer did not use. -/
theorem Once.openStream {l : Lives} (h : l.Once) {sid : ℕ} (hlast : l.lastPeerSid < sid)
    {links : Links} (hnext : links.nextCtx = l.links.nextCtx + 1)
    (hnode : links.node = Function.update l.links.node l.links.nextCtx (some sid))
    (hparsed : ∀ c, c ≠ l.links.nextCtx → links.parsedHeader c = l.links.parsedHeader c)
    (hstream : links.stream = some l.links.nextCtx) :
    Once ⟨links, sid, (l.links.nextCtx, sid) :: l.opened, l.started⟩ := by
  have hbelow : ∀ x ∈ l.opened, x.2 < sid := fun x hx => Nat.lt_of_le_of_lt (h.peer x hx) hlast
  refine ⟨?_, h.started, fun x hx => ?_, fun x hx => ?_, fun c id hc => ?_,
    fun x hx => ?_, fun c hc _ => ?_⟩
  · simp only [List.map_cons, List.pairwise_cons, List.forall_mem_map]
    exact ⟨hbelow, h.opened⟩
  · rcases List.mem_cons.mp hx with rfl | hx
    · exact Nat.le_refl _
    · exact Nat.le_of_lt (hbelow x hx)
  · simp only [hnext]
    rcases List.mem_cons.mp hx with rfl | hx
    · exact Nat.lt_succ_self _
    · exact Nat.lt_succ_of_lt (h.fresh x hx)
  · simp only [hnode] at hc
    by_cases hcc : c = l.links.nextCtx
    · subst hcc
      rw [Function.update_self, Option.some.injEq] at hc
      exact hc ▸ List.mem_cons_self
    · rw [Function.update_of_ne hcc] at hc
      exact List.mem_cons_of_mem _ (h.held c id hc)
  · obtain ⟨hmem, hbegun⟩ := h.begun x hx
    refine ⟨List.mem_cons_of_mem _ hmem, ?_⟩
    exact (hparsed x.1 (Nat.ne_of_lt (h.fresh x hmem))).trans hbegun
  · simp only [hstream, Option.some.injEq] at hc
    subst hc
    refine ⟨sid, ?_, fun x hx => hbelow x (h.begun x hx).1⟩
    rw [hnode, Function.update_self]

/-- The parser takes hold of a stream whose request runs, or of the one that was opened last. -/
theorem Once.hold {l : Lives} (h : l.Once) {c : CtxId}
    (hlast : l.links.parsedHeader c = true ∨
      ∃ sid, l.links.node c = some sid ∧ l.lastPeerSid ≤ sid) :
    Once { l with links := { l.links with stream := some c } } := by
  refine ⟨h.opened, h.started, h.peer, h.fresh, h.held, h.begun, fun c' hc' hparsed => ?_⟩
  cases hc'
  obtain ⟨sid, hnode, hle⟩ := hlast.resolve_left fun h' =>
    Bool.false_ne_true (hparsed.symm.trans h')
  refine ⟨sid, hnode, fun x hx => ?_⟩
  obtain ⟨hmem, hbegun⟩ := h.begun x hx
  refine Nat.lt_of_le_of_ne ((h.peer x hmem).trans hle) fun heq => ?_
  -- a request under the same identifier would be of the same stream
  have hopened : (x.1, sid) ∈ l.opened := heq ▸ hmem
  have hsame : x.1 = c := h.injective hopened (h.held c sid hnode)
  exact Bool.false_ne_true (hparsed.symm.trans (hsame ▸ hbegun))

/-- The parser lets its stream go. -/
theorem Once.letGo {l : Lives} (h : l.Once) :
    Once { l with links := { l.links with stream := none } } :=
  ⟨h.opened, h.started, h.peer, h.fresh, h.held, h.begun, fun _ hc => nomatch hc⟩

/-- A request is started for the stream of the parser. -/
theorem Once.start {l : Lives} (h : l.Once) {c : CtxId} (hstream : l.links.stream = some c)
    (hparsed : l.links.parsedHeader c = false) (links : Links)
    (hnext : links.nextCtx = l.links.nextCtx)
    (hnode : links.node = l.links.node)
    (hparsed' : links.parsedHeader = Function.update l.links.parsedHeader c true)
    (hnone : links.stream = none) :
    Once { l with links := links, started := (c, (l.links.node c).getD 0) :: l.started } := by
  obtain ⟨sid, hsid, habove⟩ := h.parsing c hstream hparsed
  have hheld := h.held c sid hsid
  simp only [hsid, Option.getD_some]
  refine ⟨h.opened, ?_, h.peer, ?_, ?_, fun x hx => ?_, fun c' hc' => ?_⟩
  · simp only [List.map_cons, List.pairwise_cons, List.forall_mem_map]
    exact ⟨habove, h.started⟩
  · simp only [hnext]
    exact h.fresh
  · simp only [hnode]
    exact h.held
  · simp only [hparsed']
    rcases List.mem_cons.mp hx with rfl | hx
    · exact ⟨hheld, Function.update_self ..⟩
    · obtain ⟨hmem, hbegun⟩ := h.begun x hx
      refine ⟨hmem, ?_⟩
      by_cases hcc : x.1 = c
      · rw [hcc, Function.update_self]
      · rw [Function.update_of_ne hcc, hbegun]
  · exact absurd (hnone.symm.trans hc') nofun

/-- A stream is released that the parser does not wait for. -/
theorem Once.release {l : Lives} (h : l.Once) {c : CtxId} {links : Links}
    (hnext : links.nextCtx = l.links.nextCtx)
    (hnode : ∀ c', links.node c' = if c' = c then none else l.links.node c')
    (hparsed : links.parsedHeader = l.links.parsedHeader)
    (hstream : ∀ c', links.stream = some c' → l.links.parsedHeader c' = false →
      l.links.stream = some c' ∧ c' ≠ c) : Once { l with links := links } := by
  refine ⟨h.opened, h.started, h.peer, ?_, fun c' sid hc' => ?_, ?_, fun c' hc' hno => ?_⟩
  · simp only [hnext]
    exact h.fresh
  · simp only [hnode] at hc'
    split at hc'
    · cases hc'
    · exact h.held c' sid hc'
  · simp only [hparsed]
    exact h.begun
  · simp only [hparsed] at hno
    obtain ⟨hold, hne⟩ := hstream c' hc' hno
    simp only [hnode, if_neg hne]
    exact h.parsing c' hold hno

end Lives

namespace KHttp2

/-- What a connection remembers of its streams. -/
def lives (s : KHttp2) : Lives :=
  ⟨s.links, s.lastPeerSid, openedStreams s.trace, startedStreams s.trace⟩

/-- The identifiers are served at most once, in increasing order, and no identifier that was
used opens a stream again. -/
def ServedOnce (s : KHttp2) : Prop :=
  ((startedStreams s.trace).map Prod.snd).Pairwise (· > ·) ∧
    ((openedStreams s.trace).map Prod.snd).Pairwise (· > ·)

/-! ## Moves -/

theorem lives_of_quiet {s t : KHttp2} (h : Quiet s t) : t.lives = s.lives := by
  simp only [lives, links_of_quiet h, h.lastPeerSid, Lives.mk.injEq, true_and]
  rw [← openedStreams_connTrace, h.conn, openedStreams_connTrace,
    ← startedStreams_connTrace, h.conn, startedStreams_connTrace]
  exact ⟨rfl, rfl⟩

theorem lives_sending {s t : KHttp2} (h : Sending s t) : t.lives = s.lives := by
  cases h with
  | quiet h => exact lives_of_quiet h
  | send c e len hnode hopen hpos hframe hstream hconn =>
    have hsome : (s.ctx c).node.isNone = false := by
      rw [← Option.not_isSome, hnode, Bool.not_true]
    have hpeer : (s.sendData c e len).lastPeerSid = s.lastPeerSid := by
      simp only [sendData, pushFrame, log, modify, hsome, Bool.false_eq_true, if_false]
    simp only [lives, (s.sendData_keeps c e len hnode).1, hpeer,
      (s.sendData_spec c e len hnode).2.2]
    rfl

theorem lives_windowChange {s t : KHttp2} (hgood : s.links.Good) (h : WindowChange s t) :
    t.lives = s.lives := by
  have hlinks := links_windowChange hgood h
  cases h with
  | initial value h =>
    simp only [lives, hlinks]
    rw [adjustAll_eq hgood]
    rfl
  | _ =>
    simp only [lives, hlinks]
    rfl

/-- Releasing a stream, seen from what the connection remembers. -/
theorem lives_releaseStream (s : KHttp2) (c : CtxId) :
    (s.releaseStream c).lives = { s.lives with links := s.links.free c } := by
  have hlinks := s.links_releaseStream c
  obtain ⟨t, ht, -, -, heq⟩ := s.releaseStream_spec c
  have hlives := lives_of_quiet ht
  simp only [lives, Lives.mk.injEq] at hlives
  simp only [lives, hlinks]
  rw [heq]
  cases (s.ctx c).node with
  | none => simp only [hlives]
  | some id =>
    obtain ⟨-, hpeer, hopened, hstarted⟩ := hlives
    rw [← hpeer, ← hopened, ← hstarted]
    rfl

/-- A stream that was released and handed back, seen from what the connection remembers. -/
theorem lives_release (s : KHttp2) (c : CtxId) :
    ((s.releaseStream c).releaseAdminCount c).lives =
      { s.lives with links := { s.links.free c with owners := s.owners.erase c } } := by
  have hlinks := s.links_release c
  have hlives := s.lives_releaseStream c
  have hpeer : ((s.releaseStream c).releaseAdminCount c).lastPeerSid =
      (s.releaseStream c).lastPeerSid := by
    simp only [releaseAdminCount]
    split <;> split <;> rfl
  obtain ⟨-, -, -, -, -, -, -, htrace, -⟩ := (s.releaseStream c).releaseAdminCount_spec c
  simp only [lives, Lives.mk.injEq] at hlives ⊢
  obtain ⟨-, hpeer', hopened, hstarted⟩ := hlives
  exact ⟨hlinks, hpeer.trans hpeer', by rw [htrace]; exact hopened, by rw [htrace]; exact hstarted⟩

/-- Every move but the slip keeps identifiers from being served twice. -/
theorem once_move {slips : Slip → Prop} (hslips : ¬slips .reuseSid) {s t : KHttp2}
    (hsound : Sound s) (hserver : s.clientModel = false) (hs : s.lives.Once)
    (h : Move slips s t) : t.lives.Once := by
  have hnot : s.clientModel = true → False := fun h => Bool.false_ne_true (hserver.symm.trans h)
  cases h with
  | sending h => exact lives_sending h ▸ hs
  | openStream p hserver hnew hlast =>
    obtain ⟨ctx, st, trace, hnode, hparsed, -, -, -, -, hstream, htrace, heq⟩ :=
      ({ s with lastPeerSid := s.state.sid } : KHttp2).headersNewStream_spec p
    have hopened : openedStreams trace = (s.nextCtx, s.state.sid) :: openedStreams s.trace := by
      rw [← openedStreams_connTrace, htrace, ← openedStreams_connTrace s.trace]
      rfl
    have hstarted : startedStreams trace = startedStreams s.trace := by
      rw [← startedStreams_connTrace, htrace, ← startedStreams_connTrace s.trace]
      rfl
    rw [heq]
    simp only [lives, hopened, hstarted]
    refine hs.openStream (hlast.resolve_left hslips) rfl ?_ (fun c hc => ?_) hstream
    · funext c
      by_cases hc : c = s.nextCtx
      · subst hc
        simp only [links, lives, Function.update_self, hnode]
      · simp only [links, lives, Function.update_of_ne hc]
    · simp only [links, lives] at hc ⊢
      rw [Function.update_of_ne hc]
  | peerSid sid hserver hlast =>
    exact ⟨hs.opened, hs.started, fun x hx => (hs.peer x hx).trans hlast, hs.fresh,
      hs.held, hs.begun, hs.parsing⟩
  | newClientStream processing admin hclient => exact (hnot hclient).elim
  | linkNode c hclient hnone howner hslip => exact (hnot hclient).elim
  | hold c hnode hlast =>
    exact hs.hold (hlast.imp id fun h => h.resolve_left fun hclient => hnot hclient)
  | letGo => exact hs.letGo
  | start c hserver hstream hparsed =>
    have hstart : (s.startRequest c).lives = { s.lives with
        links := (s.startRequest c).links
        started := (c, (s.links.node c).getD 0) :: s.lives.started } := by
      simp only [lives, startRequest, log, modify, setState, Function.update_self, links]
      rfl
    rw [hstart]
    refine hs.start hstream hparsed _ rfl ?_ ?_ rfl
    · funext c'
      by_cases hc : c' = c
      · subst hc
        simp only [links, startRequest, log, modify, setState, Function.update_self, lives]
      · simp only [links, startRequest, log, modify, setState, Function.update_of_ne hc, lives]
    · funext c'
      by_cases hc : c' = c
      · subst hc
        simp only [links, startRequest, log, modify, setState, Function.update_self]
      · simp only [links, startRequest, log, modify, setState, Function.update_of_ne hc, lives]
  | response c hclient => exact (hnot hclient).elim
  | release c howner =>
    rw [lives_release]
    obtain ⟨hparsed, -, hstream, hnext, -⟩ := s.links.free_keeps c
    have hbegun := ((hsound.served hserver).owned c (howner.resolve_left hnot)).2
    refine hs.release (c := c) hnext (s.links.node_free c) hparsed
      fun c' hc' hno => ⟨hstream.symm.trans hc', ?_⟩
    rintro rfl
    exact Bool.false_ne_true (hno.symm.trans hbegun)
  | gc c hclient => exact (hnot hclient).elim
  | wait c e hnode hopen hused =>
    have hwait : (s.modify c fun ctx => { ctx with writeWait := some e }).lives = s.lives := by
      simp only [lives, links_writeEvent]
      rfl
    rw [lives_of_quiet (calm_addQueue _ c).quiet, hwait]
    exact hs
  | windows hchange hsends hparked =>
    have hu := lives_windowChange hsound.good hchange ▸ hs
    clear hchange hparked
    induction hsends with
    | refl => exact hu
    | tail _ h ih => exact lives_sending h ▸ ih
  | delete => exact hs
  | drop c hslip hserver hstream hparsed ht =>
    rename_i t
    obtain ⟨hparsed, -, -, hnext, -⟩ := s.links.free_keeps c
    have hlives : t.lives = { s.lives with
        links := { s.links.free c with owners := s.owners.erase c } } :=
      (lives_of_quiet ht).trans (s.lives_release c)
    have hnone : (t.ctx c).node = none := by
      have h := congrArg (fun l => l.links.node c) hlives
      simp only [Links.node_free, if_true] at h
      exact h
    have hdrop : ((t.destroyNode c (t.ctx c).node).setState fun st =>
        { st with stream := none }).lives = { s.lives with
          links := { s.links.free c with owners := s.owners.erase c, stream := none } } := by
      rw [hnone]
      calc ((t.destroyNode c none).setState fun st => { st with stream := none }).lives
          = { t.lives with links := { t.lives.links with stream := none } } := rfl
        _ = _ := by rw [hlives]
    rw [hdrop]
    refine hs.release hnext (s.links.node_free c) hparsed fun c' hc' => ?_
    cases hc'
  | unqueue c hslip => exact hs

/-! ## Runs -/

/-- Nothing is opened on a blank connection. -/
theorem Blank.once {s : KHttp2} (h : Blank s) : s.lives.Once := by
  have hopened : openedStreams s.trace = [] := by
    rw [h.trace]
    rfl
  have hstarted : startedStreams s.trace = [] := by
    rw [h.trace]
    rfl
  have hnone : ∀ c, (s.ctx c).node = none := fun c => by
    rw [h.ctx c]
    rfl
  simp only [lives, hopened, hstarted]
  exact ⟨.nil, .nil, fun x hx => absurd hx List.not_mem_nil, fun x hx => absurd hx List.not_mem_nil,
    fun c sid hc => absurd ((hnone c).symm.trans hc) nofun,
    fun x hx => absurd hx List.not_mem_nil, fun c hc => absurd (h.stream.symm.trans hc) nofun⟩

/-- Along a path without the slip no identifier is served twice. -/
theorem once_path {slips : Slip → Prop} (hslips : ¬slips .reuseSid) {s t : KHttp2}
    (hsound : Sound s) (hserver : s.clientModel = false) (hs : s.lives.Once)
    (h : Path slips s t) : t.lives.Once := by
  induction h with
  | refl => exact hs
  | tail hpath hmove ih =>
    exact once_move hslips (hsound.path hpath) ((hsound.clientModel_path hpath).trans hserver) ih
      hmove

/-- A run in which no HEADERS frame comes for the last identifier after its stream is gone. -/
def OpensFresh (codes : HuffDecodeCodes) (s : KHttp2) (es : List Event) : Prop :=
  Along codes (fun s e => ¬slipsIn codes s e .reuseSid) s es

instance OpensFresh.decidable (codes : HuffDecodeCodes) (s : KHttp2) (es : List Event) :
    Decidable (OpensFresh codes s es) :=
  have : ∀ s e, Decidable (slipsIn codes s e .reuseSid) := fun s e =>
    inferInstanceAs (Decidable (∃ call ∈ stepCalls codes s e,
      call.1 = .stateHeaders ∧ call.2.1.reopensSid call.2.2 = true))
  inferInstanceAs (Decidable (Along codes (fun s e => ¬slipsIn codes s e .reuseSid) s es))

/-- In every state that such a run of a server reaches, every identifier was served at most once,
in increasing order, and opened at most one stream. -/
theorem servedOnce_run (codes : HuffDecodeCodes) {s : KHttp2} (hs : Starts s)
    (hserver : s.clientModel = false) (es : List Event) (hfresh : OpensFresh codes s es) :
    ServedOnce (run codes s es) := by
  have hslips : Along codes (fun s e => ∀ slip, slipsIn codes s e slip → slip ≠ .reuseSid)
      s es := by
    refine Along.imp (fun t e hno slip hslip heq => ?_) es hfresh
    subst heq
    exact hno hslip
  obtain ⟨hsound, hhalted⟩ := sound_of_starts hs
  obtain ⟨b, hb, hpath⟩ : ∃ b, Blank b ∧ Path (fun slip => slip ≠ .reuseSid) b s := hs.path
  have hclient := hb.sound.clientModel_path hpath
  have honce := once_path (fun h => h rfl) hb.sound (hclient.symm.trans hserver) hb.once
    (hpath.trans (path_run codes es hsound hhalted hslips))
  exact ⟨honce.started, honce.opened⟩

/-- The result at two requests, of which the first is answered before the second comes. -/
theorem servedOnce_run_twoRequests :
    ServedOnce (run (fun _ _ => ⟨0, 0, 0, 0⟩) (server 0 0 fun _ => .zero)
      [.read (clientPreface ++ [0, 0, 1, 1, 5, 0, 0, 0, 1, 0x82]), .call 0 .finish,
        .read [0, 0, 1, 1, 5, 0, 0, 0, 3, 0x82]]) :=
  servedOnce_run _ (.server 0 0 fun _ => .zero) (by decide +kernel) _ (by decide +kernel)

/-- A peer that asks for a resource under the identifier 1, and again after it was answered. -/
def sameSidTwice : List Event :=
  [.read (clientPreface ++ [0, 0, 1, 1, 5, 0, 0, 0, 1, 0x82]), .call 0 .finish,
    .read [0, 0, 1, 1, 5, 0, 0, 0, 1, 0x82]]

/-- The identifier is served twice. -/
theorem sameSidTwice_not_servedOnce :
    ¬ServedOnce (run (fun _ _ => ⟨0, 0, 0, 0⟩) (server 0 0 fun _ => .zero) sameSidTwice) := by
  have hstarted : (startedStreams (run (fun _ _ => ⟨0, 0, 0, 0⟩) (server 0 0 fun _ => .zero)
      sameSidTwice).trace).map Prod.snd = [1, 1] := by decide +kernel
  rintro ⟨h, -⟩
  rw [hstarted] at h
  exact absurd h (by decide)

end KHttp2

end Khttpd
