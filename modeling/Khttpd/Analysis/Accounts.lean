import Mathlib.Data.Finset.Card
import Khttpd.Analysis.Cookies
import Khttpd.Analysis.HeaderPool
import Khttpd.Analysis.ServedOnce

/-!
# The accounts of a server

`processing` counts the requests that run, and `destroy_node` takes every stream out of the table
once. Both hold in every run of a server in which `ReleaseStateStream` never finds a stream whose
header block is not complete: the sink of such a stream is handed to `release_admin` though no
request was started for it, and its node is destroyed again.
-/

set_option autoImplicit false

namespace Khttpd

/-- The calls of `destroy_node`, latest first: for which stream, on which node, and whether the
node was linked. -/
def destroyedNodes (trace : List Ev) : List (CtxId × Option ℕ × Bool) :=
  trace.filterMap fun e =>
    match e with
    | .destroyNode c node linked => some (c, node, linked)
    | _ => none

theorem destroyedNodes_connTrace (trace : List Ev) :
    destroyedNodes (connTrace trace) = destroyedNodes trace := by
  simp only [destroyedNodes, connTrace, List.filterMap_filter]
  congr 1
  funext e
  cases e <;> simp [Ev.isConn]

/-- What a connection owes to its streams. -/
structure Ledger where
  links : Links
  processing : ℤ
  opened : List CtxId
  started : List CtxId
  released : List CtxId
  destroyed : List (CtxId × Option ℕ × Bool)

/-- The accounts are in order: the requests that run are those that were started and not handed
back, `processing` is their number, and a stream that was opened holds its node until it is handed
back, when the node is destroyed. -/
structure Ledger.Balanced (l : Ledger) : Prop where
  processing : l.processing = l.links.owners.length
  running : ∀ c, c ∈ l.links.owners ↔ c ∈ l.started ∧ c ∉ l.released
  linked : ∀ d ∈ l.destroyed, d.2.1.isSome = true ∧ d.2.2 = true
  once : (l.destroyed.map Prod.fst).Nodup
  destroyed : ∀ c, c ∈ l.destroyed.map Prod.fst ↔ c ∈ l.released
  held : ∀ c, (l.links.node c).isSome = true ↔ c ∈ l.opened ∧ c ∉ l.released
  begun : ∀ c, (l.links.node c).isSome = true → l.links.parsedHeader c = true → c ∈ l.links.owners
  known : ∀ c ∈ l.opened, c < l.links.nextCtx
  whole : ∀ c ∈ l.released, c ∈ l.opened

namespace Ledger

variable {l : Ledger}

/-- A new stream. -/
theorem Balanced.openStream (h : l.Balanced) {links : Links} (sid : ℕ)
    (hnext : links.nextCtx = l.links.nextCtx + 1)
    (hnode : links.node = Function.update l.links.node l.links.nextCtx (some sid))
    (hparsed : links.parsedHeader = Function.update l.links.parsedHeader l.links.nextCtx false)
    (howners : links.owners = l.links.owners) :
    Balanced { l with links := links, opened := l.links.nextCtx :: l.opened } := by
  have hnew : l.links.nextCtx ∉ l.released := fun hmem =>
    Nat.lt_irrefl _ (h.known _ (h.whole _ hmem))
  refine ⟨?_, fun c => ?_, h.linked, h.once, h.destroyed, fun c => ?_, fun c hc hdone => ?_,
    fun c hc => ?_, fun c hc => List.mem_cons_of_mem _ (h.whole c hc)⟩
  · simp only [howners]
    exact h.processing
  · simp only [howners]
    exact h.running c
  · simp only [hnode, List.mem_cons]
    by_cases hc : c = l.links.nextCtx
    · subst hc
      simp [hnew]
    · rw [Function.update_of_ne hc, h.held c]
      simp only [hc, false_or]
  · simp only [hparsed] at hdone
    by_cases hcc : c = l.links.nextCtx
    · subst hcc
      simp only [Function.update_self, Bool.false_eq_true] at hdone
    · simp only [hnode, Function.update_of_ne hcc] at hc
      rw [Function.update_of_ne hcc] at hdone
      simp only [howners]
      exact h.begun c hc hdone
  · simp only [hnext]
    rcases List.mem_cons.mp hc with rfl | hc
    · exact Nat.lt_succ_self _
    · exact Nat.lt_succ_of_lt (h.known c hc)

/-- The parser moves. -/
theorem Balanced.setStream (h : l.Balanced) (stream : Option CtxId) :
    Balanced { l with links := { l.links with stream := stream } } :=
  ⟨h.processing, h.running, h.linked, h.once, h.destroyed, h.held, h.begun, h.known, h.whole⟩

/-- A request is started. -/
theorem Balanced.start (h : l.Balanced) {links : Links} {c : CtxId}
    (hc : (l.links.node c).isSome = true) (hnext : links.nextCtx = l.links.nextCtx)
    (hnode : links.node = l.links.node)
    (hparsed : ∀ c', c' ≠ c → links.parsedHeader c' = l.links.parsedHeader c')
    (howners : links.owners = c :: l.links.owners) :
    Balanced { l with
      links := links
      processing := l.processing + 1
      started := c :: l.started } := by
  have hout : c ∉ l.released := ((h.held c).mp hc).2
  refine ⟨?_, fun c' => ?_, h.linked, h.once, h.destroyed, fun c' => ?_, fun c' hc' hdone => ?_,
    fun c' hc' => ?_, h.whole⟩
  · simp only [howners, h.processing, List.length_cons, Nat.cast_add, Nat.cast_one]
  · simp only [howners, List.mem_cons, h.running c']
    by_cases hne : c' = c
    · subst hne
      simp [hout]
    · simp only [hne, false_or]
  · simp only [hnode]
    exact h.held c'
  · simp only [howners, List.mem_cons]
    by_cases hne : c' = c
    · exact Or.inl hne
    · simp only [hnode, hparsed c' hne] at hc' hdone
      exact Or.inr (h.begun c' hc' hdone)
  · simp only [hnext]
    exact h.known c' hc'

/-- A request that runs hands its stream back. -/
theorem Balanced.release (h : l.Balanced) (hdistinct : l.links.owners.Nodup) {links : Links}
    {c : CtxId} (hc : c ∈ l.links.owners) {id : ℕ} (hnext : links.nextCtx = l.links.nextCtx)
    (hnode : ∀ c', links.node c' = if c' = c then none else l.links.node c')
    (hparsed : links.parsedHeader = l.links.parsedHeader)
    (howners : links.owners = l.links.owners.erase c)
    (hlinked : (l.links.node c).isSome = true) :
    Balanced { l with
      links := links
      processing := l.processing - 1
      released := c :: l.released
      destroyed := (c, some id, true) :: l.destroyed } := by
  obtain ⟨hopened, hout⟩ := (h.held c).mp hlinked
  refine ⟨?_, fun c' => ?_, fun d hd => ?_, ?_, fun c' => ?_, fun c' => ?_,
    fun c' hc' hdone => ?_, fun c' hc' => ?_, fun c' hc' => ?_⟩
  · have hpos : 0 < l.links.owners.length := List.length_pos_of_mem hc
    simp only [howners, List.length_erase_of_mem hc, h.processing]
    omega
  · simp only [howners, hdistinct.mem_erase_iff, h.running c', List.mem_cons, not_or]
    exact ⟨fun ⟨hne, hs, hr⟩ => ⟨hs, hne, hr⟩, fun ⟨hs, hne, hr⟩ => ⟨hne, hs, hr⟩⟩
  · rcases List.mem_cons.mp hd with rfl | hd
    · exact ⟨rfl, rfl⟩
    · exact h.linked d hd
  · simp only [List.map_cons, List.nodup_cons, h.destroyed c]
    exact ⟨hout, h.once⟩
  · simp only [List.map_cons, List.mem_cons, h.destroyed c']
  · simp only [hnode, List.mem_cons, not_or]
    split
    · rename_i heq
      simp [heq]
    · rename_i hne
      rw [h.held c']
      simp only [hne, not_false_eq_true, true_and]
  · simp only [hnode] at hc'
    simp only [hparsed] at hdone
    simp only [howners, hdistinct.mem_erase_iff]
    split at hc'
    · cases hc'
    · rename_i hne
      exact ⟨hne, h.begun c' hc' hdone⟩
  · simp only [hnext]
    exact h.known c' hc'
  · rcases List.mem_cons.mp hc' with rfl | hc'
    · exact hopened
    · exact h.whole c' hc'

end Ledger

namespace Links

/-- Only new streams get a node, and no header block is opened again. -/
structure Ages (l l' : Links) : Prop where
  nextCtx : l.nextCtx ≤ l'.nextCtx
  node : ∀ c, (l'.node c).isSome = true → (l.node c).isSome = true ∨ l.nextCtx ≤ c
  parsedHeader : ∀ c, c < l.nextCtx → l.parsedHeader c = true → l'.parsedHeader c = true

theorem Ages.refl (l : Links) : Ages l l := ⟨Nat.le_refl _, fun _ h => Or.inl h, fun _ _ h => h⟩

theorem Ages.of_eq {l l' : Links} (h : l' = l) : Ages l l' := by
  subst h
  exact .refl _

theorem Ages.trans {a b c : Links} (hab : Ages a b) (hbc : Ages b c) : Ages a c where
  nextCtx := hab.nextCtx.trans hbc.nextCtx
  node i hi := by
    rcases hbc.node i hi with h | h
    · exact hab.node i h
    · exact Or.inr (hab.nextCtx.trans h)
  parsedHeader i hi h := hbc.parsedHeader i (Nat.lt_of_lt_of_le hi hab.nextCtx)
    (hab.parsedHeader i hi h)

/-- A stream lets its node go. -/
theorem ages_free (l : Links) (c : CtxId) (owners : List CtxId) :
    Ages l { l.free c with owners := owners } := by
  obtain ⟨hparsed, -, -, hnext, -⟩ := l.free_keeps c
  refine ⟨hnext.ge, fun i hi => Or.inl ?_, fun i _ h => ?_⟩
  · simp only [node_free] at hi
    split at hi
    · cases hi
    · exact hi
  · simp only [hparsed]
    exact h

end Links

namespace KHttp2

/-- What a connection owes to its streams. -/
def ledger (s : KHttp2) : Ledger where
  links := s.links
  processing := s.processing
  opened := (openedStreams s.trace).map Prod.fst
  started := (startedStreams s.trace).map Prod.fst
  released := releasedStreams s.trace
  destroyed := destroyedNodes s.trace

/-! ## Moves -/

/-- A step that keeps the table of streams and the counted events of streams. -/
theorem ledger_of_conn {s t : KHttp2} (hlinks : t.links = s.links)
    (hprocessing : t.processing = s.processing) (hconn : connTrace t.trace = connTrace s.trace) :
    t.ledger = s.ledger := by
  simp only [ledger, hlinks, hprocessing]
  rw [← openedStreams_connTrace t.trace, ← startedStreams_connTrace t.trace,
    ← releasedStreams_connTrace t.trace, ← destroyedNodes_connTrace t.trace, hconn,
    openedStreams_connTrace, startedStreams_connTrace, releasedStreams_connTrace,
    destroyedNodes_connTrace]

theorem ledger_of_quiet {s t : KHttp2} (h : Quiet s t) : t.ledger = s.ledger :=
  ledger_of_conn (links_of_quiet h) h.processing h.conn

theorem ledger_sending {s t : KHttp2} (h : Sending s t) : t.ledger = s.ledger := by
  cases h with
  | quiet h => exact ledger_of_quiet h
  | send c e len hnode hopen hpos hframe hstream hconn =>
    have hsome : (s.ctx c).node.isNone = false := by
      rw [← Option.not_isSome, hnode, Bool.not_true]
    have hprocessing : (s.sendData c e len).processing = s.processing := by
      simp only [sendData, pushFrame, log, modify, hsome, Bool.false_eq_true, if_false]
    simp only [ledger, (s.sendData_keeps c e len hnode).1, hprocessing,
      (s.sendData_spec c e len hnode).2.2]
    rfl

theorem ledger_windowChange {s t : KHttp2} (hgood : s.links.Good) (h : WindowChange s t) :
    t.ledger = s.ledger := by
  have hlinks := links_windowChange hgood h
  cases h with
  | initial value h =>
    simp only [ledger, hlinks]
    rw [adjustAll_eq hgood]
    rfl
  | _ =>
    simp only [ledger, hlinks]
    rfl

/-- A stream that holds its node lets it go. -/
theorem ledger_releaseStream {s : KHttp2} (hgood : s.links.Good) {c : CtxId} {id : ℕ}
    (hnode : (s.ctx c).node = some id) :
    (s.releaseStream c).ledger = { s.ledger with
      links := s.links.free c
      destroyed := (c, some id, true) :: s.ledger.destroyed } := by
  have hlinks := s.links_releaseStream c
  obtain ⟨t, ht, -, -, heq⟩ := s.releaseStream_spec c
  have hledger := ledger_of_quiet ht
  have hlinked : (t.streamsIndex (streamIndex id)).any (fun n => n.id = id) = true := by
    rw [ht.streamsIndex]
    exact List.any_eq_true.mpr ⟨_, hgood.linked c id hnode, decide_eq_true rfl⟩
  have htrace : (s.releaseStream c).trace = .destroyNode c (some id) true :: t.trace := by
    rw [heq, hnode]
    simp only [destroyNode, modify, log, hlinked]
  have hprocessing : (s.releaseStream c).processing = s.processing := by
    rw [heq, hnode, ← ht.processing]
    rfl
  simp only [ledger, Ledger.mk.injEq] at hledger ⊢
  obtain ⟨-, -, hopened, hstarted, hreleased, hdestroyed⟩ := hledger
  rw [htrace, ← hopened, ← hstarted, ← hreleased, ← hdestroyed]
  exact ⟨hlinks, hprocessing, rfl, rfl, rfl, rfl⟩

/-- A stream that holds its node is handed back. -/
theorem ledger_release {s : KHttp2} (hgood : s.links.Good) {c : CtxId} {id : ℕ}
    (hnode : (s.ctx c).node = some id) :
    ((s.releaseStream c).releaseAdminCount c).ledger = { s.ledger with
      links := { s.links.free c with owners := s.owners.erase c }
      processing := s.processing - 1
      released := c :: s.ledger.released
      destroyed := (c, some id, true) :: s.ledger.destroyed } := by
  have hlinks := s.links_release c
  have hledger := ledger_releaseStream hgood hnode
  obtain ⟨-, -, -, -, -, -, hprocessing, htrace, -⟩ := (s.releaseStream c).releaseAdminCount_spec c
  simp only [ledger, Ledger.mk.injEq] at hledger ⊢
  obtain ⟨-, hold, hopened, hstarted, hreleased, hdestroyed⟩ := hledger
  rw [htrace, hprocessing, hold]
  exact ⟨hlinks, rfl, hopened, hstarted, congrArg (c :: ·) hreleased, hdestroyed⟩

/-- Every move of a server but the slip keeps the accounts in order. -/
theorem balanced_move {slips : Slip → Prop} (hslips : ¬slips .dropIncomplete) {s t : KHttp2}
    (hsound : Sound s) (hserver : s.clientModel = false) (hs : s.ledger.Balanced)
    (h : Move slips s t) : t.ledger.Balanced := by
  have hnot : s.clientModel = true → False := fun h => Bool.false_ne_true (hserver.symm.trans h)
  cases h with
  | sending h => exact ledger_sending h ▸ hs
  | openStream p hserver hnew hlast =>
    obtain ⟨ctx, st, trace, hnode, hparsed, -, -, -, -, -, htrace, heq⟩ :=
      ({ s with lastPeerSid := s.state.sid } : KHttp2).headersNewStream_spec p
    have hopened : openedStreams trace = (s.nextCtx, s.state.sid) :: openedStreams s.trace := by
      rw [← openedStreams_connTrace, htrace, ← openedStreams_connTrace s.trace]
      rfl
    have hstarted : startedStreams trace = startedStreams s.trace := by
      rw [← startedStreams_connTrace, htrace, ← startedStreams_connTrace s.trace]
      rfl
    have hreleased : releasedStreams trace = releasedStreams s.trace := by
      rw [← releasedStreams_connTrace, htrace, ← releasedStreams_connTrace s.trace]
      rfl
    have hdestroyed : destroyedNodes trace = destroyedNodes s.trace := by
      rw [← destroyedNodes_connTrace, htrace, ← destroyedNodes_connTrace s.trace]
      rfl
    rw [heq]
    simp only [ledger, hopened, hstarted, hreleased, hdestroyed, List.map_cons]
    refine hs.openStream s.state.sid rfl ?_ ?_ rfl
    · funext c
      by_cases hc : c = s.nextCtx
      · subst hc
        simp only [links, ledger, Function.update_self, hnode]
      · simp only [links, ledger, Function.update_of_ne hc]
    · funext c
      by_cases hc : c = s.nextCtx
      · subst hc
        simp only [links, ledger, Function.update_self, hparsed]
      · simp only [links, ledger, Function.update_of_ne hc]
  | peerSid sid hserver hlast => exact hs
  | newClientStream processing admin hclient => exact (hnot hclient).elim
  | linkNode c hclient hnone howner hslip => exact (hnot hclient).elim
  | hold c hnode hlast => exact hs.setStream (some c)
  | letGo => exact hs.setStream none
  | start c hserver hstream hparsed =>
    have hstart : (s.startRequest c).ledger = { s.ledger with
        links := (s.startRequest c).links
        processing := s.ledger.processing + 1
        started := c :: s.ledger.started } := rfl
    rw [hstart]
    refine hs.start ((hsound.served hserver).parsing c hstream hparsed) rfl ?_ (fun c' hc => ?_) rfl
    · funext c'
      by_cases hc : c' = c
      · subst hc
        simp only [links, startRequest, log, modify, setState, Function.update_self, ledger]
      · simp only [links, startRequest, log, modify, setState, Function.update_of_ne hc, ledger]
    · simp only [links, startRequest, log, modify, setState, Function.update_of_ne hc, ledger]
  | response c hclient => exact (hnot hclient).elim
  | release c howner =>
    have hmem := howner.resolve_left hnot
    have hsome := ((hsound.served hserver).owned c hmem).1
    obtain ⟨id, hid⟩ := Option.isSome_iff_exists.mp hsome
    obtain ⟨hparsed, -, -, hnext, -⟩ := s.links.free_keeps c
    rw [ledger_release hsound.good hid]
    exact hs.release hsound.good.distinct hmem hnext (s.links.node_free c) hparsed rfl hsome
  | gc c hclient => exact (hnot hclient).elim
  | wait c e hnode hopen hused =>
    have hwait : (s.modify c fun ctx => { ctx with writeWait := some e }).ledger = s.ledger :=
      ledger_of_conn (s.links_writeEvent c e) rfl rfl
    rw [ledger_of_quiet (calm_addQueue _ c).quiet, hwait]
    exact hs
  | windows hchange hsends hparked =>
    have hu := ledger_windowChange hsound.good hchange ▸ hs
    clear hchange hparked
    induction hsends with
    | refl => exact hu
    | tail _ h ih => exact ledger_sending h ▸ ih
  | delete => exact hs
  | drop c hslip hserver hstream hparsed ht => exact (hslips hslip).elim
  | unqueue c hslip => exact hs

/-- Along a path without the slip the accounts of a server stay in order. -/
theorem balanced_path {slips : Slip → Prop} (hslips : ¬slips .dropIncomplete) {s t : KHttp2}
    (hsound : Sound s) (hserver : s.clientModel = false) (hs : s.ledger.Balanced)
    (h : Path slips s t) : t.ledger.Balanced := by
  induction h with
  | refl => exact hs
  | tail hpath hmove ih =>
    exact balanced_move hslips (hsound.path hpath) ((hsound.clientModel_path hpath).trans hserver)
      ih hmove

/-! ## No stream is lost -/

theorem ages_sending {s t : KHttp2} (h : Sending s t) : s.links.Ages t.links := by
  cases h with
  | quiet h => exact .of_eq (links_of_quiet h)
  | send c e len hnode hopen hpos hframe hstream hconn =>
    exact .of_eq (s.sendData_keeps c e len hnode).1

theorem ages_move {slips : Slip → Prop} {s t : KHttp2} (hsound : Sound s)
    (hserver : s.clientModel = false) (h : Move slips s t) : s.links.Ages t.links := by
  have hnot : s.clientModel = true → False := fun h => Bool.false_ne_true (hserver.symm.trans h)
  cases h with
  | sending h => exact ages_sending h
  | openStream p hserver hnew hlast =>
    obtain ⟨ctx, st, trace, -, -, -, -, -, -, -, -, heq⟩ :=
      ({ s with lastPeerSid := s.state.sid } : KHttp2).headersNewStream_spec p
    rw [heq]
    refine ⟨Nat.le_succ _, fun c hc => ?_, fun c hc h => ?_⟩
    · by_cases hnew : c = s.nextCtx
      · exact Or.inr (Nat.le_of_eq hnew.symm)
      · simp only [links, Function.update_of_ne hnew] at hc
        exact Or.inl hc
    · simp only [links] at hc h ⊢
      rw [Function.update_of_ne (Nat.ne_of_lt hc)]
      exact h
  | peerSid sid hserver hlast => exact .refl _
  | newClientStream processing admin hclient => exact (hnot hclient).elim
  | linkNode c hclient hnone howner hslip => exact (hnot hclient).elim
  | hold c hnode hlast => exact ⟨Nat.le_refl _, fun _ h => Or.inl h, fun _ _ h => h⟩
  | letGo => exact ⟨Nat.le_refl _, fun _ h => Or.inl h, fun _ _ h => h⟩
  | start c hserver hstream hparsed =>
    refine ⟨Nat.le_refl _, fun c' hc' => Or.inl ?_, fun c' _ h => ?_⟩
    · by_cases hc : c' = c
      · subst hc
        simpa only [links, startRequest, log, modify, setState, Function.update_self] using hc'
      · simpa only [links, startRequest, log, modify, setState, Function.update_of_ne hc] using hc'
    · by_cases hc : c' = c
      · subst hc
        simp only [links, startRequest, log, modify, setState, Function.update_self]
      · simpa only [links, startRequest, log, modify, setState, Function.update_of_ne hc] using h
  | response c hclient => exact (hnot hclient).elim
  | release c howner =>
    rw [links_release]
    exact s.links.ages_free c _
  | gc c hclient => exact (hnot hclient).elim
  | wait c e hnode hopen hused =>
    have hwait := links_of_quiet (calm_addQueue
      (s.modify c fun ctx => { ctx with writeWait := some e }) c).quiet
    exact .of_eq (hwait.trans (s.links_writeEvent c e))
  | windows hchange hsends hparked =>
    have hu := Links.Ages.of_eq (links_windowChange hsound.good hchange)
    clear hchange hparked
    induction hsends with
    | refl => exact hu
    | tail _ h ih => exact ih.trans (ages_sending h)
  | delete => exact .refl _
  | drop c hslip hserver hstream hparsed ht =>
    rename_i t
    have hlinks := (links_of_quiet ht).trans (s.links_release c)
    have hnone : (t.ctx c).node = none := by
      have h := congrFun (congrArg Links.node hlinks) c
      simp only [Links.node_free, if_true] at h
      exact h
    have hages := s.links.ages_free c (s.owners.erase c)
    rw [← hlinks] at hages
    rw [hnone]
    exact ⟨hages.nextCtx, hages.node, hages.parsedHeader⟩
  | unqueue c hslip => exact .refl _

theorem ages_path {slips : Slip → Prop} {s t : KHttp2} (hsound : Sound s)
    (hserver : s.clientModel = false) (h : Path slips s t) : s.links.Ages t.links := by
  induction h with
  | refl => exact .refl _
  | tail hpath hmove ih =>
    exact ih.trans (ages_move (hsound.path hpath) ((hsound.clientModel_path hpath).trans hserver)
      hmove)

/-- A stream whose header block is not complete is the stream of the parser. -/
def Held (s : KHttp2) : Prop :=
  ∀ c, (s.ctx c).node.isSome = true → (s.ctx c).parsedHeader = false → s.state.stream = some c

/-- A step after which no stream is new. -/
theorem held_of_ages {s t : KHttp2} (ht : Sound t) (hheld : Held s)
    (hages : s.links.Ages t.links) (hnext : t.nextCtx = s.nextCtx)
    (hstream : ∀ c, s.state.stream = some c → (s.ctx c).parsedHeader = false →
      (t.ctx c).parsedHeader = false → t.state.stream = some c) : Held t := by
  intro c hnode hparsed
  have hknown : c < s.nextCtx := by
    refine Nat.lt_of_not_le fun hle => ?_
    exact Option.isSome_iff_ne_none.mp hnode (ht.good.fresh c (hnext.trans_le hle))
  have hold : (s.ctx c).node.isSome = true :=
    (hages.node c hnode).resolve_right (Nat.not_le.mpr hknown)
  have hopen : (s.ctx c).parsedHeader = false := Bool.eq_false_iff.mpr fun h =>
    Bool.false_ne_true (hparsed.symm.trans (hages.parsedHeader c hknown h))
  exact hstream c (hheld c hold hopen) hopen hparsed

/-- A handler that was quiet lets no stream go, unless it deletes the connection. -/
theorem stream_of_quietOut {s : KHttp2} {r : KHttp2 × Ret} (h : QuietOut s r)
    (hlive : r.1.deleted = false) : r.1.state.stream = s.state.stream := by
  rcases h with h | ⟨t, status, ht, rfl⟩
  · exact h.stream
  · have hclose := t.calm_closeStreams true status
    have hsame : (t.close true status).state = (t.closeStreams true status).state := by
      rcases (t.closeStreams true status).deleted_tryDelete with hdel | ⟨hsame, -⟩
      · exact absurd (hlive.symm.trans hdel) Bool.false_ne_true
      · exact congrArg KHttp2.state hsame
    exact (congrArg ParserState.stream (hsame.trans hclose.state)).trans ht.stream

/-- `state_header_complete` is still where it does not end the block of an available stream. -/
theorem stillOut_stateHeaderComplete {s : KHttp2} (hserver : s.clientModel = false) {p : Bytes}
    (h : ∀ c, ¬EndsBlock c (.stateHeaderComplete, s, p)) : StillOut s (s.stateHeaderComplete p) := by
  unfold stateHeaderComplete
  split
  · exact .refl s _
  · rename_i hlength
    split
    · exact s.stillOut_handleContinuation p _
    · rename_i hflag
      extract_lets s1
      have h1 : s1 = s := by
        dsimp only [s1]
        split
        · rfl
        · rename_i c hstream
          have havailable : (s.ctx c).isAvailable = false := by
            refine Bool.eq_false_iff.mpr fun havailable => h c ⟨rfl, ?_, ?_, hstream, havailable⟩
            · simpa using hlength
            · simpa using hflag
          simp [onHeaderSuccess, hserver, havailable]
      rw [h1]
      exact .after (s.still_setState rfl) (stillOut_endFrame _ p)

/-- A HEADERS frame makes one stream at most, which the parser holds then. -/
theorem stateHeaders_opens (s : KHttp2) (p : Bytes) :
    (s.stateHeaders p).1.nextCtx = s.nextCtx ∨
      (s.stateHeaders p).1.nextCtx = s.nextCtx + 1 ∧
        (s.stateHeaders p).1.state.stream = some s.nextCtx := by
  have hfail : ∀ (t : KHttp2) (status : ℕ), t.nextCtx = s.nextCtx →
      (t.fail status).1.nextCtx = s.nextCtx := fun t status ht =>
    (t.cookieFree_fail status).nextCtx.trans ht
  have hstream : ∀ (t : KHttp2) (depend : ℕ) (q : Bytes), t.nextCtx = s.nextCtx →
      (t.headersStream depend q).1.nextCtx = s.nextCtx ∨
        (t.headersStream depend q).1.nextCtx = s.nextCtx + 1 ∧
          (t.headersStream depend q).1.state.stream = some s.nextCtx := by
    intro t depend q ht
    unfold headersStream
    extract_lets sid t1
    split
    · split
      · exact Or.inl ht
      · exact Or.inl ((t.cookieFree_headersForStream _ q).nextCtx.trans ht)
    · split
      · exact Or.inl (hfail t _ ht)
      · split
        · exact Or.inl ((t.cookieFree_sendRstStream _ _ _).nextCtx.trans ht)
        · split
          · exact Or.inl ((t1.cookieFree_sendRstStream _ _ _).nextCtx.trans ht)
          · split
            · exact Or.inl ((t1.cookieFree_headersForStream _ q).nextCtx.trans ht)
            · obtain ⟨ctx, st, trace, -, -, -, -, -, -, hnew, -, heq⟩ := t1.headersNewStream_spec q
              rw [heq]
              exact Or.inr ⟨congrArg (· + 1) ht, hnew.trans (congrArg some ht)⟩
  unfold stateHeaders
  extract_lets s1 padded priority size s2 s3 s4 depend
  have h3 : s3.nextCtx = s.nextCtx := by
    dsimp only [s3]
    split <;> rfl
  have h4 : s4.nextCtx = s.nextCtx := by
    dsimp only [s4]
    split
    · exact h3
    · exact h3
  split
  · exact Or.inl (hfail s1 _ rfl)
  · split
    · exact Or.inl (hfail s1 _ rfl)
    · split
      · exact Or.inl (s1.cookieFree_stateSave _ _).nextCtx
      · split
        · exact Or.inl (hfail s3 _ h3)
        · exact hstream s4 depend _ h4

/-- No other handler makes a stream. -/
theorem nextCtx_exec (codes : HuffDecodeCodes) {h : Handler} (hh : h ≠ .stateHeaders) {s : KHttp2}
    (hserver : s.clientModel = false) (p : Bytes) : (exec codes h s p).1.nextCtx = s.nextCtx := by
  cases hspecial : isSpecial h with
  | false =>
    rcases quietOut_exec codes hspecial s p with hquiet | ⟨t, status, ht, heq⟩
    · exact hquiet.nextCtx
    · rw [heq]
      exact (t.cookieFree_fail status).nextCtx.trans ht.nextCtx
  | true =>
    cases h with
    | stateData => exact (s.cookieFree_stateData p).nextCtx
    | stateHeaders => exact absurd rfl hh
    | stateHeaderComplete =>
      by_cases hend : ∃ c, EndsBlock c (.stateHeaderComplete, s, p)
      · obtain ⟨c, hend⟩ := hend
        exact ((s.blockEnded_headerSuccess c hserver).before
          (endsBlock_stateHeaderComplete hserver hend)).nextCtx
      · exact (cookieFree_stateHeaderComplete hserver fun c hc => hend ⟨c, hc⟩).nextCtx
    | stateSettingsParams => exact (s.cookieFree_stateSettingsParams p).nextCtx
    | stateWindowUpdate => exact (s.cookieFree_stateWindowUpdate p).nextCtx
    | stateComplete => exact s.cookieFree_releaseStateStream.nextCtx
    | _ => cases hspecial

/-- A handler of a server that does not slip loses no stream. -/
theorem held_exec (codes : HuffDecodeCodes) {h : Handler} {s : KHttp2} {p : Bytes} (hs : Sound s)
    (hserver : s.clientModel = false) (hpool : s.state.Pooled h) (hheld : Held s)
    (hslip : s.incomplete = true → ¬callReleases codes (h, s, p)) :
    Held (exec codes h s p).1 := by
  have hpath : Path (fun _ => True) s (exec codes h s p).1 :=
    pathOut_exec codes hs (fun _ _ => trivial) (fun _ _ _ _ => trivial) (fun _ _ => trivial)
      fun _ _ => trivial
  have ht := hs.path hpath
  have hages := ages_path hs hserver hpath
  have hbetween : h.inBlock = false → h.endsFrame = false → s.state.stream = none := by
    intro hblock hend
    unfold ParserState.Pooled at hpool
    rw [hblock] at hpool
    exact hpool.2 hend
  by_cases hheaders : h = .stateHeaders
  · subst hheaders
    have hnone := hbetween rfl rfl
    rcases s.stateHeaders_opens p with hnext | ⟨hnext, hstream⟩
    · refine held_of_ages ht hheld hages hnext fun c hc => ?_
      exact absurd (hnone.symm.trans hc) (Option.some_ne_none c).symm
    · intro c hnode hparsed
      by_cases hnew : c = s.nextCtx
      · subst hnew
        exact hstream
      · -- an older stream was held before, but the parser held none
        have hlt : c < s.nextCtx + 1 := by
          refine Nat.lt_of_not_le fun hle => ?_
          exact Option.isSome_iff_ne_none.mp hnode (ht.good.fresh c (hnext.trans_le hle))
        have hknown : c < s.nextCtx := Nat.lt_of_le_of_ne (Nat.le_of_lt_succ hlt) hnew
        have hold := (hages.node c hnode).resolve_right (Nat.not_le.mpr hknown)
        have hopen : (s.ctx c).parsedHeader = false := Bool.eq_false_iff.mpr fun h =>
          Bool.false_ne_true (hparsed.symm.trans (hages.parsedHeader c hknown h))
        exact absurd (hnone.symm.trans (hheld c hold hopen)) (Option.some_ne_none c).symm
  · refine held_of_ages ht hheld hages (nextCtx_exec codes hheaders hserver p)
      fun c hstream hopen hparsed => ?_
    have hincomplete : s.incomplete = true := by
      simp only [incomplete, hserver, hstream, Option.any_some, hopen, Bool.not_false,
        Bool.and_true]
    obtain ⟨hcomplete, hlive⟩ := not_or.mp (hslip hincomplete)
    have hkeep : QuietOut s (exec codes h s p) → (exec codes h s p).1.state.stream = some c :=
      fun hquiet => (stream_of_quietOut hquiet (Bool.eq_false_iff.mpr hlive)).trans hstream
    have hnot : h.inBlock = false → h.endsFrame = false →
        (exec codes h s p).1.state.stream = some c := fun hblock hend =>
      absurd ((hbetween hblock hend).symm.trans hstream) (Option.some_ne_none c).symm
    cases hspecial : isSpecial h with
    | false => exact hkeep (quietOut_exec codes hspecial s p)
    | true =>
      cases h with
      | stateData => exact hnot rfl rfl
      | stateHeaders => exact absurd rfl hheaders
      | stateHeaderComplete =>
        by_cases hend : ∃ c, EndsBlock c (.stateHeaderComplete, s, p)
        · obtain ⟨c', hend⟩ := hend
          obtain rfl : c' = c := Option.some.inj (hend.2.2.2.1.symm.trans hstream)
          have hended := ((s.blockEnded_headerSuccess c' hserver).before
            (endsBlock_stateHeaderComplete hserver hend)).parsedHeader c'
          rw [if_pos rfl] at hended
          exact absurd (hparsed.symm.trans hended) Bool.false_ne_true
        · exact hkeep (stillOut_stateHeaderComplete hserver fun c hc => hend ⟨c, hc⟩).quiet
      | stateSettingsParams => exact hnot rfl rfl
      | stateWindowUpdate => exact hnot rfl rfl
      | stateComplete => exact absurd rfl hcomplete
      | _ => cases hspecial

/-- Between two reads no stream is lost, unless a header block is dropped at the end of the
connection. -/
theorem held_between {s t : KHttp2} (hs : Sound s) (hserver : s.clientModel = false)
    (hpath : Path (fun _ => True) s t) (hfree : CookieFree s t)
    (heffects : Effects Kind.betweenReads s t)
    (hslip : s.incomplete = true → ¬t.deleted = true) (hheld : Held s) : Held t := by
  refine held_of_ages (hs.path hpath) hheld (ages_path hs hserver hpath) hfree.nextCtx
    fun c hstream hopen _ => ?_
  have hincomplete : s.incomplete = true := by
    simp only [incomplete, hserver, hstream, Option.any_some, hopen, Bool.not_false, Bool.and_true]
  rcases (carries_effects heffects).state with hdel | hstate | hkind
  · exact absurd hdel (hslip hincomplete)
  · rw [hstate]
    exact hstream
  · rcases hkind with hkind | hkind <;> cases hkind

/-! ## Runs -/

/-- The requests that were started and not handed back to `release_admin`. -/
def runningRequests (trace : List Ev) : Finset CtxId :=
  ((startedStreams trace).map Prod.fst).toFinset \ (releasedStreams trace).toFinset

/-- The streams for which `destroy_node` was called, latest first. -/
def destroyedStreams (trace : List Ev) : List CtxId := (destroyedNodes trace).map Prod.fst

/-- `processing` is the number of the requests that run, and `destroy_node` is called once for
every stream that is handed back, on its linked node. A stream whose node was not destroyed belongs
to a request that runs, or is the stream of the parser. -/
structure Accounted (s : KHttp2) : Prop where
  processing : s.processing = (runningRequests s.trace).card
  linked : ∀ d ∈ destroyedNodes s.trace, d.2.1.isSome = true ∧ d.2.2 = true
  once : (destroyedStreams s.trace).Nodup
  released : ∀ c, c ∈ destroyedStreams s.trace ↔ c ∈ releasedStreams s.trace
  rest : ∀ c ∈ (openedStreams s.trace).map Prod.fst,
    c ∈ destroyedStreams s.trace ∨ c ∈ runningRequests s.trace ∨ s.state.stream = some c

/-- Accounts in order, of which no stream is lost. -/
theorem accounted_of_balanced {s : KHttp2} (hs : Sound s) (hbalanced : s.ledger.Balanced)
    (hheld : Held s) : Accounted s := by
  have hrunning : ∀ c, c ∈ s.owners ↔ c ∈ runningRequests s.trace := by
    intro c
    simp only [runningRequests, Finset.mem_sdiff, List.mem_toFinset]
    exact hbalanced.running c
  refine ⟨?_, hbalanced.linked, hbalanced.once, hbalanced.destroyed, fun c hc => ?_⟩
  · have howners : s.owners.toFinset = runningRequests s.trace := by
      ext c
      rw [List.mem_toFinset, hrunning c]
    have hdistinct : s.owners.Nodup := hs.good.distinct
    rw [← howners, List.toFinset_card_of_nodup hdistinct]
    exact hbalanced.processing
  · by_cases hreleased : c ∈ releasedStreams s.trace
    · exact Or.inl ((hbalanced.destroyed c).mpr hreleased)
    · have hnode : (s.ctx c).node.isSome = true := (hbalanced.held c).mpr ⟨hc, hreleased⟩
      refine Or.inr ?_
      cases hparsed : (s.ctx c).parsedHeader with
      | true => exact Or.inl ((hrunning c).mp (hbalanced.begun c hnode hparsed))
      | false => exact Or.inr (hheld c hnode hparsed)

/-- A read that does not slip loses no stream. -/
theorem held_onReadResult (codes : HuffDecodeCodes) {s : KHttp2} (hs : Sound s)
    (hserver : s.clientModel = false) (hpool : PooledAt (some s.state.handler) s) (hheld : Held s)
    {chunk : Bytes}
    (hcalls : ∀ call ∈ Resumable.calls (exec codes)
        (measure s.state.handler (s.state.buffer ++ chunk) + 1) s.state.handler
        ({ s with pinged := false }.setState fun st => { st with buffer := [] })
        (s.state.buffer ++ chunk), call.2.1.incomplete = true → ¬callReleases codes call)
    (hlast : (received codes s (.read chunk)).incomplete = true →
      ¬(onReadResult codes s chunk).deleted = true) : Held (onReadResult codes s chunk) := by
  let start := ({ s with pinged := false } : KHttp2).setState fun st => { st with buffer := [] }
  have hstart : Sound start := hs.quiet (.of_view rfl rfl rfl id)
  have hloop := @Resumable.run_indexed _ _ _ (exec codes)
    (fun o _ t => Sound t ∧ t.clientModel = false ∧ PooledAt o t ∧ Held t)
    (fun h t p => t.incomplete = true → ¬callReleases codes (h, t, p))
    (fun h t p ⟨ht, hclient, hpooled, hheld⟩ hslip => by
      have hpath : Path (fun _ => True) t (exec codes h t p).1 :=
        pathOut_exec codes ht (fun _ _ => trivial) (fun _ _ _ _ => trivial) (fun _ _ => trivial)
          fun _ _ => trivial
      have hpool := hpooled h rfl
      exact ⟨ht.path hpath, (ht.clientModel_path hpath).trans hclient,
        pooled_exec codes h t p hpool, held_exec codes ht hclient hpool hheld hslip⟩)
    (measure s.state.handler (s.state.buffer ++ chunk) + 1) s.state.handler start
    (s.state.buffer ++ chunk) ⟨hstart, hserver, hpool, hheld⟩ hcalls
  obtain ⟨hsound, hclient, -, hkept⟩ := hloop
  cases hres : Resumable.run (exec codes) (measure s.state.handler (s.state.buffer ++ chunk) + 1)
    s.state.handler start (s.state.buffer ++ chunk) with
  | mk t out =>
    rw [hres] at hsound hclient hkept
    cases out with
    | none =>
      have hout : onReadResult codes s chunk = t := by
        unfold onReadResult
        rw [receive_none (s := { s with pinged := false }) hres]
      rw [hout]
      exact hkept
    | some next =>
      obtain ⟨h', kept⟩ := next
      have hreceive := receive_some (s := { s with pinged := false }) hres
      have hreceived : received codes s (.read chunk) =
          t.setState fun st => { st with handler := h', buffer := kept } := by
        exact congrArg Prod.fst hreceive
      have hout : onReadResult codes s chunk = (received codes s (.read chunk)).startRead := by
        rw [hreceived]
        unfold onReadResult
        rw [hreceive]
      have hu : Sound (received codes s (.read chunk)) := by
        rw [hreceived]
        exact hsound.quiet (t.quiet_setState rfl)
      rw [hout] at hlast ⊢
      have hend : PathOut (fun _ => True) (received codes s (.read chunk))
        ((received codes s (.read chunk)).startRead, .null) := pathOut_startRead _ .null
      refine held_between hu ?_ (hend fun _ _ => trivial) (cookieFree_startRead _)
        (effects_startRead _) hlast ?_
      · rw [hreceived]
        exact hclient
      · rw [hreceived]
        exact hkept

/-- A step that does not slip loses no stream. -/
theorem held_step (codes : HuffDecodeCodes) {s : KHttp2} (hs : Sound s) (hh : Halted s)
    (hserver : s.clientModel = false) (hrest : Rest PooledAt s) (e : Event)
    (hslip : ¬slipsIn codes s e .dropIncomplete) (hheld : Held s) : Held (step codes s e) := by
  simp only [slipsIn, not_or, not_exists, not_and] at hslip
  obtain ⟨hcalls, hlast⟩ := hslip
  have hpath : Path (fun _ => True) s (step codes s e) := path_step codes hs hh e fun _ _ => trivial
  by_cases henabled : s.enabled e = true
  · have hstep : step codes s e = act codes s e := if_pos henabled
    rw [hstep] at hlast hpath ⊢
    by_cases hread : ∃ chunk, e = .read chunk
    · obtain ⟨chunk, rfl⟩ := hread
      simp only [stepCalls, if_pos henabled] at hcalls
      simp only [enabled, Bool.and_eq_true, Bool.not_eq_true', decide_eq_true_eq] at henabled
      have hpool : PooledAt (some s.state.handler) s := by
        rcases hrest with hdel | hrun | ⟨-, hstop⟩
        · exact absurd (henabled.1.symm.trans hdel) Bool.false_ne_true
        · exact hrun
        · exact absurd (hstop.symm.trans henabled.2.1.1) Bool.false_ne_true
      exact held_onReadResult codes hs hserver hpool hheld hcalls hlast
    · have hnot : ∀ chunk, e ≠ .read chunk := fun chunk he => hread ⟨chunk, he⟩
      refine held_between hs hserver hpath (cookieFree_act codes s e henabled hserver hnot)
        (effects_act codes s e henabled hnot (Or.inl rfl) (Or.inr rfl)) ?_ hheld
      cases e with
      | read chunk => exact absurd rfl (hnot chunk)
      | _ => exact hlast
  · have hstep : step codes s e = s := if_neg henabled
    rw [hstep]
    exact hheld

/-- A server starts with nothing on its accounts. -/
theorem Starts.balanced {s : KHttp2} (h : Starts s) (hserver : s.clientModel = false) :
    s.ledger.Balanced ∧ Held s := by
  have hempty : ∀ t : KHttp2, t.trace = [] → t.owners = [] → t.processing = 0 →
      (∀ c, t.ctx c = .init 0) → t.ledger.Balanced := by
    intro t htrace howners hprocessing hctx
    have hnode : ∀ c, (t.ctx c).node = none := fun c => by
      rw [hctx c]
      rfl
    simp only [ledger, htrace, hprocessing]
    refine ⟨?_, fun c => ?_, fun d hd => ?_, List.nodup_nil, fun c => Iff.rfl, fun c => ?_,
      fun c hc => ?_, fun c hc => ?_, fun c hc => ?_⟩
    · simp only [links, howners, List.length_nil, Nat.cast_zero]
    · simp only [links, howners]
      exact ⟨fun hc => absurd hc List.not_mem_nil, fun hc => hc.1⟩
    · exact absurd hd List.not_mem_nil
    · simp only [links, hnode c]
      exact ⟨fun hc => Bool.noConfusion hc, fun hc => absurd hc.1 List.not_mem_nil⟩
    · simp only [links, hnode c] at hc
      cases hc
    · exact absurd hc List.not_mem_nil
    · exact absurd hc List.not_mem_nil
  have hstart : ∀ (now timeOut : ℕ) (junk : ℕ → Http2FrameHeader) (h : Handler),
      ((init now timeOut junk).setState fun st =>
        { st with handler := h }).greet.startRead.ledger.Balanced ∧
      Held ((init now timeOut junk).setState fun st => { st with handler := h }).greet.startRead := by
    intro now timeOut junk h
    have hquiet := ((init now timeOut junk).setState fun st => { st with handler := h }).quiet_greet
    obtain ⟨-, -, hnow, hlast, hpeer⟩ :=
      ((init now timeOut junk).setState fun st => { st with handler := h }).greet_keeps
    rw [startRead_new (hnow.trans hlast.symm) hpeer, ledger_of_quiet hquiet]
    refine ⟨hempty _ rfl rfl rfl fun _ => rfl, fun c hc => ?_⟩
    rw [(hquiet.ctx c).node] at hc
    cases hc
  cases h with
  | server now timeOut junk => exact hstart now timeOut junk .statePreface
  | serverH2c now timeOut junk => exact hstart now timeOut junk .statePrefaceEnd
  | client now timeOut junk =>
    have hclient : (KHttp2.client now timeOut junk).clientModel = true := by
      have hgreet : ∀ t : KHttp2, t.clientModel = true →
        (t.greet.newClientStream true).clientModel = true := by
        intro t ht
        have hquiet := t.quiet_greet.clientModel.trans ht
        rw [newClientStream_spec t.greet true hquiet]
        exact hquiet
      exact hgreet _ rfl
    exact absurd (hserver.symm.trans hclient) Bool.false_ne_true

/-- A run in which `ReleaseStateStream` never finds a stream whose header block is not complete. -/
def DropsNothing (codes : HuffDecodeCodes) (s : KHttp2) (es : List Event) : Prop :=
  Along codes (fun s e => ¬slipsIn codes s e .dropIncomplete) s es

instance DropsNothing.decidable (codes : HuffDecodeCodes) (s : KHttp2) (es : List Event) :
    Decidable (DropsNothing codes s es) :=
  have : ∀ s e, Decidable (slipsIn codes s e .dropIncomplete) := fun s e =>
    inferInstanceAs (Decidable ((∃ call ∈ stepCalls codes s e, call.2.1.incomplete = true ∧
      (call.1 = .stateComplete ∨ (exec codes call.1 call.2.1 call.2.2).1.deleted = true)) ∨
        (received codes s e).incomplete = true ∧ (step codes s e).deleted = true))
  inferInstanceAs (Decidable (Along codes (fun s e => ¬slipsIn codes s e .dropIncomplete) s es))

/-- In every state that such a run of a server reaches, the accounts are in order. -/
theorem streamsAccounted_run (codes : HuffDecodeCodes) {s : KHttp2} (hs : Starts s)
    (hserver : s.clientModel = false) (es : List Event) (hdrops : DropsNothing codes s es) :
    Accounted (run codes s es) := by
  obtain ⟨hsound, hhalted⟩ := sound_of_starts hs
  obtain ⟨hbalanced, hheld⟩ := hs.balanced hserver
  have hrest : Rest PooledAt s := Or.inr (Or.inl (hs.pooled hserver))
  clear hs
  induction es generalizing s with
  | nil => exact accounted_of_balanced hsound hbalanced hheld
  | cons e es ih =>
    have hstep : Path (fun slip => slip ≠ .dropIncomplete) s (step codes s e) := by
      refine path_step codes hsound hhalted e fun slip hslip heq => ?_
      subst heq
      exact hdrops.1 hslip
    exact ih ((hsound.clientModel_path hstep).trans hserver) hdrops.2 (hsound.path hstep)
      (hhalted.path hsound hstep) (balanced_path (fun h => h rfl) hsound hserver hbalanced hstep)
      (held_step codes hsound hhalted hserver hrest e hdrops.1 hheld)
      (rest_step (indexed_pooled codes) hsound hhalted e (fun _ _ => trivial) hrest)

/-- The result at two requests, of which the first is answered. -/
theorem streamsAccounted_run_twoRequests :
    Accounted (run (fun _ _ => ⟨0, 0, 0, 0⟩) (server 0 0 fun _ => .zero)
      [.read (clientPreface ++ [0, 0, 1, 1, 5, 0, 0, 0, 1, 0x82]), .call 0 .finish,
        .read [0, 0, 1, 1, 5, 0, 0, 0, 3, 0x82]]) :=
  streamsAccounted_run _ (.server 0 0 fun _ => .zero) (by decide +kernel) _ (by decide +kernel)

/-- The peer goes away in the middle of a header block. -/
def brokenHeader : List Event :=
  [.read (clientPreface ++ [0, 0, 1, 1, 0, 0, 0, 0, 1, 0x82]), .readError, .writeError]

/-- `processing` counts a request that was never started, and the node is destroyed twice. -/
theorem brokenHeader_not_accounted :
    ¬Accounted (run (fun _ _ => ⟨0, 0, 0, 0⟩) (server 0 0 fun _ => .zero) brokenHeader) := by
  have hdestroyed : destroyedNodes (run (fun _ _ => ⟨0, 0, 0, 0⟩) (server 0 0 fun _ => .zero)
      brokenHeader).trace = [(0, none, false), (0, some 1, true)] := by decide +kernel
  intro h
  have hlinked := h.linked
  rw [hdestroyed] at hlinked
  exact absurd (hlinked _ List.mem_cons_self).1 Bool.false_ne_true

end KHttp2

end Khttpd
