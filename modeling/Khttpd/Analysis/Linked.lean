import Mathlib.Data.List.Nodup
import Mathlib.Order.Nat
import Khttpd.Analysis.Quiet

/-!
# The table of streams

A stream and its node point at each other: every node of `streams_index` is in the bucket of its
identifier and belongs to the stream that holds it, and a stream that holds a node is found
under its identifier. On a server every request that runs holds its node.
-/

set_option autoImplicit false

namespace Khttpd

/-- The fields of a connection that say who holds which stream. -/
structure Links where
  streamsIndex : ℕ → List KHttp2Node
  node : CtxId → Option ℕ
  parsedHeader : CtxId → Bool
  nextCtx : ℕ
  stream : Option CtxId
  lastSelfSid : ℕ
  clientModel : Bool
  owners : List CtxId

namespace Links

/-- Unlink the node with an identifier from its bucket. -/
def unlink (l : Links) (id : ℕ) : Links :=
  let bucket := (l.streamsIndex (streamIndex id)).eraseP fun n => n.id = id
  { l with streamsIndex := Function.update l.streamsIndex (streamIndex id) bucket }

/-- Put a node in its bucket and give it to its stream. -/
def link (l : Links) (id : ℕ) (c : CtxId) : Links :=
  let bucket := ⟨id, c⟩ :: l.streamsIndex (streamIndex id)
  { l with
    streamsIndex := Function.update l.streamsIndex (streamIndex id) bucket
    node := Function.update l.node c (some id) }

/-- A stream lets its node go. -/
def free (l : Links) (c : CtxId) : Links :=
  let l' := (l.node c).elim l l.unlink
  { l' with node := Function.update l'.node c none }

/-- The table of streams is in order. -/
structure Good (l : Links) : Prop where
  bucket : ∀ i, ∀ n ∈ l.streamsIndex i, streamIndex n.id = i
  held : ∀ i, ∀ n ∈ l.streamsIndex i, l.node n.stream = some n.id
  nodup : ∀ i, ((l.streamsIndex i).map KHttp2Node.id).Nodup
  linked : ∀ c id, l.node c = some id → ⟨id, c⟩ ∈ l.streamsIndex (streamIndex id)
  fresh : ∀ c, l.nextCtx ≤ c → l.node c = none
  known : ∀ c ∈ l.owners, c < l.nextCtx
  distinct : l.owners.Nodup
  selfSid : l.clientModel = true → ∀ i, ∀ n ∈ l.streamsIndex i, n.id ≤ l.lastSelfSid

/-- On a server, the streams whose requests run and the stream of the parser hold their nodes. -/
structure Served (l : Links) : Prop where
  owned : ∀ c ∈ l.owners, (l.node c).isSome ∧ l.parsedHeader c = true
  parsing : ∀ c, l.stream = some c → l.parsedHeader c = false → (l.node c).isSome

/-- Two streams do not hold one node. -/
theorem Good.injective {l : Links} (h : l.Good) {c c' id : ℕ} (hc : l.node c = some id)
    (hc' : l.node c' = some id) : c = c' := by
  have hmem := h.linked c id hc
  have hmem' := h.linked c' id hc'
  have hnodes : (⟨id, c⟩ : KHttp2Node) = ⟨id, c'⟩ :=
    List.inj_on_of_nodup_map (h.nodup _) hmem hmem' rfl
  exact congrArg KHttp2Node.stream hnodes

/-- What is left in a bucket after a node is unlinked. -/
theorem Good.mem_erase {l : Links} (h : l.Good) {id : ℕ} {n : KHttp2Node} {i : ℕ}
    (hn : n ∈ (l.unlink id).streamsIndex i) : n ∈ l.streamsIndex i ∧ n.id ≠ id := by
  simp only [unlink, Function.update_apply] at hn
  split at hn
  · rename_i hi
    subst hi
    refine ⟨List.mem_of_mem_eraseP hn, fun hid => ?_⟩
    have hlt := h.nodup (streamIndex id)
    have hfound : decide (n.id = id) = true := decide_eq_true hid
    obtain ⟨a, l1, l2, hl1, ha, heq, herase⟩ :=
      List.exists_of_eraseP (p := fun n => n.id = id) (List.mem_of_mem_eraseP hn) hfound
    rw [herase] at hn
    rw [heq, List.map_append, List.map_cons, List.nodup_append, List.nodup_cons] at hlt
    have haid : a.id = id := of_decide_eq_true ha
    rcases List.mem_append.mp hn with hn | hn
    · exact hl1 n hn (by simp [hid])
    · exact hlt.2.1.1 (List.mem_map.mpr ⟨n, hn, hid.trans haid.symm⟩)
  · rename_i hi
    exact ⟨hn, fun hid => hi ((h.bucket i n hn).symm.trans (by rw [hid]))⟩

/-- A node with another identifier stays in its bucket. -/
theorem mem_unlink_of_ne {l : Links} {id i : ℕ} {n : KHttp2Node} (hn : n ∈ l.streamsIndex i)
    (hid : n.id ≠ id) : n ∈ (l.unlink id).streamsIndex i := by
  simp only [unlink, Function.update_apply]
  split
  · rename_i hi
    subst hi
    exact (List.mem_eraseP_of_neg (by simp [hid])).mpr hn
  · exact hn

/-- Letting a node go keeps the table in order. -/
theorem Good.free {l : Links} (h : l.Good) (c : CtxId) : (l.free c).Good := by
  cases hnode : l.node c with
  | none =>
    have hsame : l.free c = l := by
      simp only [Links.free, hnode, Option.elim_none]
      rw [← hnode, Function.update_eq_self]
    rw [hsame]
    exact h
  | some id =>
    have hfree : l.free c = { l.unlink id with node := Function.update l.node c none } := by
      simp only [Links.free, hnode, Option.elim_some]
      rfl
    rw [hfree]
    refine ⟨?_, ?_, ?_, ?_, ?_, h.known, h.distinct, ?_⟩
    · exact fun i n hn => h.bucket i n (h.mem_erase hn).1
    · intro i n hn
      obtain ⟨hn, hid⟩ := h.mem_erase hn
      have hheld := h.held i n hn
      have hne : n.stream ≠ c := by
        rintro rfl
        exact hid (Option.some.inj (hheld.symm.trans hnode))
      simp only [Function.update_of_ne hne]
      exact hheld
    · intro i
      simp only [unlink, Function.update_apply]
      split
      · exact (h.nodup _).sublist (List.eraseP_sublist.map _)
      · exact h.nodup i
    · intro c' id' hc'
      simp only [Function.update_apply] at hc'
      split at hc'
      · cases hc'
      · rename_i hne
        refine mem_unlink_of_ne (h.linked c' id' hc') fun hid => ?_
        subst hid
        exact hne (h.injective hc' hnode)
    · intro c' hc'
      simp only [Function.update_apply]
      split
      · rfl
      · exact h.fresh c' hc'
    · exact fun hclient i n hn => h.selfSid hclient i n (h.mem_erase hn).1

/-- Giving a new node to a stream without one keeps the table in order. -/
theorem Good.link {l : Links} (h : l.Good) {id : ℕ} {c : CtxId} (hnone : l.node c = none)
    (hc : c < l.nextCtx) (hnew : ∀ n ∈ l.streamsIndex (streamIndex id), n.id ≠ id)
    (hsid : l.clientModel = true → id ≤ l.lastSelfSid) : (l.link id c).Good := by
  have hmem : ∀ i n, n ∈ (l.link id c).streamsIndex i →
      (n = ⟨id, c⟩ ∧ i = streamIndex id) ∨ n ∈ l.streamsIndex i := by
    intro i n hn
    simp only [Links.link, Function.update_apply] at hn
    split at hn
    · rename_i hi
      subst hi
      rcases List.mem_cons.mp hn with hn | hn
      · exact Or.inl ⟨hn, rfl⟩
      · exact Or.inr hn
    · exact Or.inr hn
  have hold : ∀ i n, n ∈ l.streamsIndex i → n ∈ (l.link id c).streamsIndex i := by
    intro i n hn
    simp only [Links.link, Function.update_apply]
    split
    · rename_i hi
      subst hi
      exact List.mem_cons_of_mem _ hn
    · exact hn
  refine ⟨?_, ?_, ?_, ?_, ?_, h.known, h.distinct, ?_⟩
  · intro i n hn
    rcases hmem i n hn with ⟨rfl, rfl⟩ | hn
    · rfl
    · exact h.bucket i n hn
  · intro i n hn
    simp only [Links.link]
    rcases hmem i n hn with ⟨rfl, rfl⟩ | hn
    · simp only [Function.update_self]
    · have hheld := h.held i n hn
      have hne : n.stream ≠ c := by
        rintro rfl
        exact Option.some_ne_none _ (hheld.symm.trans hnone)
      simp only [Function.update_of_ne hne]
      exact hheld
  · intro i
    simp only [Links.link, Function.update_apply]
    split
    · rw [List.map_cons, List.nodup_cons]
      refine ⟨fun hid => ?_, h.nodup _⟩
      obtain ⟨n, hn, hid⟩ := List.mem_map.mp hid
      exact hnew n hn hid
    · exact h.nodup i
  · intro c' id' hc'
    simp only [Links.link, Function.update_apply] at hc'
    split at hc'
    · rename_i hcc
      subst hcc
      cases hc'
      simp only [Links.link, Function.update_self]
      exact List.mem_cons_self
    · exact hold _ _ (h.linked c' id' hc')
  · intro c' hc'
    have hne : c' ≠ c := by
      rintro rfl
      exact absurd hc' (Nat.not_le.mpr hc)
    simp only [Links.link, Function.update_of_ne hne]
    exact h.fresh c' hc'
  · intro hclient i n hn
    rcases hmem i n hn with ⟨rfl, rfl⟩ | hn
    · exact hsid hclient
    · exact h.selfSid hclient i n hn

/-- Making a stream. -/
def create (l : Links) : Links :=
  { l with
    nextCtx := l.nextCtx + 1
    node := Function.update l.node l.nextCtx none
    parsedHeader := Function.update l.parsedHeader l.nextCtx false }

/-- Making a stream keeps the table in order. -/
theorem Good.create {l : Links} (h : l.Good) : l.create.Good := by
  have hnode : l.create.node = l.node := by
    simp only [Links.create]
    rw [← h.fresh l.nextCtx (Nat.le_refl _), Function.update_eq_self]
  refine ⟨h.bucket, ?_, h.nodup, ?_, ?_, ?_, h.distinct, h.selfSid⟩
  · rw [hnode]
    exact h.held
  · rw [hnode]
    exact h.linked
  · rw [hnode]
    exact fun c hc => h.fresh c (Nat.le_of_succ_le hc)
  · exact fun c hc => Nat.lt_succ_of_lt (h.known c hc)

/-- The node of a stream after another one, or the same one, lets its node go. -/
theorem node_free (l : Links) (c c' : CtxId) :
    (l.free c).node c' = if c' = c then none else l.node c' := by
  simp only [free]
  cases l.node c with
  | none => simp [Function.update_apply]
  | some id => simp [Function.update_apply, unlink]

/-- Letting a node go touches nothing but the table. -/
theorem free_keeps (l : Links) (c : CtxId) :
    (l.free c).parsedHeader = l.parsedHeader ∧ (l.free c).owners = l.owners ∧
      (l.free c).stream = l.stream ∧ (l.free c).nextCtx = l.nextCtx ∧
      (l.free c).clientModel = l.clientModel := by
  simp only [free]
  cases l.node c <;> exact ⟨rfl, rfl, rfl, rfl, rfl⟩

/-- Running requests that are taken off the list keep the table in order. -/
theorem Good.of_owners {l : Links} (h : l.Good) {owners : List CtxId}
    (hsub : owners.Sublist l.owners)
    (stream : Option CtxId) : ({ l with owners := owners, stream := stream } : Links).Good :=
  ⟨h.bucket, h.held, h.nodup, h.linked, h.fresh, fun c hc => h.known c (hsub.subset hc),
    h.distinct.sublist hsub, h.selfSid⟩

/-- A request that ends lets its node go and does not run any more. -/
theorem Served.release {l : Links} (hl : l.Good) (h : l.Served) {c : CtxId}
    (hc : l.parsedHeader c = true) :
    ({ l.free c with owners := l.owners.erase c } : Links).Served := by
  obtain ⟨hparsed, -, hstream, -, -⟩ := l.free_keeps c
  refine ⟨fun c' hc' => ?_, fun c' hc' hnot => ?_⟩
  · obtain ⟨hne, hmem⟩ := hl.distinct.mem_erase_iff.mp hc'
    obtain ⟨hnode, hdone⟩ := h.owned c' hmem
    dsimp only
    rw [node_free, if_neg hne, hparsed]
    exact ⟨hnode, hdone⟩
  · dsimp only at hc' hnot ⊢
    rw [hstream] at hc'
    rw [hparsed] at hnot
    have hne : c' ≠ c := by
      rintro rfl
      exact Bool.false_ne_true (hnot.symm.trans hc)
    rw [node_free, if_neg hne]
    exact h.parsing c' hc' hnot

/-- So does the stream of the parser when the parser drops it. -/
theorem Served.drop {l : Links} (hl : l.Good) (h : l.Served) (c : CtxId) :
    ({ l.free c with owners := l.owners.erase c, stream := none } : Links).Served := by
  obtain ⟨hparsed, -⟩ := l.free_keeps c
  refine ⟨fun c' hc' => ?_, fun c' hc' => by cases hc'⟩
  obtain ⟨hne, hmem⟩ := hl.distinct.mem_erase_iff.mp hc'
  obtain ⟨hnode, hdone⟩ := h.owned c' hmem
  dsimp only
  rw [node_free, if_neg hne, hparsed]
  exact ⟨hnode, hdone⟩

end Links

namespace KHttp2

/-- Who holds which stream. -/
def links (s : KHttp2) : Links where
  streamsIndex := s.streamsIndex
  node c := (s.ctx c).node
  parsedHeader c := (s.ctx c).parsedHeader
  nextCtx := s.nextCtx
  stream := s.state.stream
  lastSelfSid := s.lastSelfSid
  clientModel := s.clientModel
  owners := s.owners

/-- A quiet step leaves the table of streams as it is. -/
theorem links_of_quiet {s t : KHttp2} (h : Quiet s t) : t.links = s.links := by
  have hnode : ∀ c, (t.ctx c).node = (s.ctx c).node := fun c => (h.ctx c).node
  have hparsed : ∀ c, (t.ctx c).parsedHeader = (s.ctx c).parsedHeader :=
    fun c => (h.ctx c).parsedHeader
  simp only [links, h.streamsIndex, h.nextCtx, h.stream, h.lastSelfSid, h.clientModel, h.owners,
    hnode, hparsed]

/-- A node that is found is in the bucket of its identifier. -/
theorem mem_of_getNode {s : KHttp2} {sid : ℕ} {n : KHttp2Node} (h : s.getNode sid = some n) :
    n ∈ s.streamsIndex (streamIndex sid) ∧ n.id = sid :=
  ⟨List.mem_of_find?_eq_some h, by simpa using List.find?_some h⟩

/-- A stream that is found by its identifier holds its node. -/
theorem node_of_getNode {s : KHttp2} (hs : s.links.Good) {sid : ℕ} {n : KHttp2Node}
    (h : s.getNode sid = some n) : (s.ctx n.stream).node = some sid := by
  obtain ⟨hmem, hid⟩ := mem_of_getNode h
  rw [← hid]
  exact hs.held _ n hmem

/-- No node has an identifier that is not found. -/
theorem ne_of_getNode {s : KHttp2} {sid : ℕ} (h : s.getNode sid = none) :
    ∀ n ∈ s.streamsIndex (streamIndex sid), n.id ≠ sid := by
  intro n hn hid
  have hfind := List.find?_eq_none.mp h n hn
  simp [hid] at hfind

/-- A node is among all nodes when its bucket has it. -/
theorem mem_allNodes {s : KHttp2} {n : KHttp2Node} {i : ℕ} (hi : i < indexSize)
    (hn : n ∈ s.streamsIndex i) : n ∈ s.allNodes :=
  List.mem_flatMap.mpr ⟨i, List.mem_range.mpr hi, hn⟩

/-- A node among all nodes belongs to the stream that holds it. -/
theorem node_of_mem_allNodes {s : KHttp2} (hs : s.links.Good) {n : KHttp2Node}
    (hn : n ∈ s.allNodes) : (s.ctx n.stream).node = some n.id := by
  obtain ⟨i, -, hn⟩ := List.mem_flatMap.mp hn
  exact hs.held i n hn

/-- The loops over `streams_index` reach every stream that holds a node. -/
theorem mem_allNodes_of_node {s : KHttp2} (hs : s.links.Good) {c : CtxId}
    (h : (s.ctx c).node.isSome) : ∃ n ∈ s.allNodes, n.stream = c := by
  obtain ⟨id, hid⟩ := Option.isSome_iff_exists.mp h
  have hlt : streamIndex id < indexSize := Nat.mod_lt _ (by decide)
  exact ⟨⟨id, c⟩, mem_allNodes hlt (hs.linked c id hid), rfl⟩

end KHttp2

end Khttpd
