import Mathlib.Logic.Function.Basic
import Mathlib.Data.List.Nodup

/-!
# Linked lists in memory

A memory gives every address the address of the next cell. `Chain next start l` says that the
cells reached from `start` are those of `l`, in this order, and that the last of them has no next
cell. A chain is found from its start alone, so it has no cell twice.
-/

set_option autoImplicit false

namespace LinkedList

variable {α : Type*} {next next' : α → Option α} {start : Option α} {a b : α} {l r : List α}

/-- The cells that are reached from a start. -/
def Chain (next : α → Option α) : Option α → List α → Prop
  | start, [] => start = none
  | start, a :: l => start = some a ∧ Chain next (next a) l

@[simp] theorem chain_nil : Chain next start [] ↔ start = none := Iff.rfl

@[simp] theorem chain_cons : Chain next start (a :: l) ↔ start = some a ∧ Chain next (next a) l :=
  Iff.rfl

/-- A chain starts at its first cell. -/
theorem Chain.start_eq (h : Chain next start l) : start = l.head? := by
  cases l with
  | nil => exact h
  | cons a l => exact h.1

/-- A start has one chain. -/
theorem Chain.unique (h : Chain next start l) (h' : Chain next start r) : l = r := by
  induction l generalizing start r with
  | nil =>
    cases r with
    | nil => rfl
    | cons b r => exact absurd (h.symm.trans h'.1) (by simp)
  | cons a l ih =>
    cases r with
    | nil => exact absurd (h.1.symm.trans h') (by simp)
    | cons b r =>
      obtain rfl : a = b := Option.some.inj (h.1.symm.trans h'.1)
      rw [ih h.2 h'.2]

/-- A chain depends on the cells it passes only. -/
theorem Chain.congr (h : Chain next start l) (heq : ∀ a ∈ l, next' a = next a) :
    Chain next' start l := by
  induction l generalizing start with
  | nil => exact h
  | cons a l ih =>
    refine ⟨h.1, ?_⟩
    rw [heq a (List.mem_cons_self ..)]
    exact ih h.2 fun b hb => heq b (List.mem_cons_of_mem _ hb)

/-- The part of a chain behind a cell. -/
theorem Chain.behind (h : Chain next start (l ++ a :: r)) : Chain next (next a) r := by
  induction l generalizing start with
  | nil => exact h.2
  | cons b l ih => exact ih h.2

/-- Where the cell at the end of a chain is replaced by a chain of its own. -/
theorem Chain.append (h : Chain next start (l ++ [a])) (hr : Chain next (next' a) r)
    (heq : ∀ b ∈ l, next' b = next b) (hkeep : ∀ b ∈ r, next' b = next b) :
    Chain next' start (l ++ a :: r) := by
  induction l generalizing start with
  | nil => exact ⟨h.1, hr.congr hkeep⟩
  | cons b l ih =>
    refine ⟨h.1, ?_⟩
    rw [heq b (List.mem_cons_self ..)]
    exact ih h.2 fun c hc => heq c (List.mem_cons_of_mem _ hc)

/-- The part of a chain up to a cell, cut behind it. -/
theorem Chain.cut (h : Chain next start (l ++ a :: r)) (hcut : next' a = none)
    (heq : ∀ b ∈ l, next' b = next b) : Chain next' start (l ++ [a]) := by
  induction l generalizing start with
  | nil => exact ⟨h.1, hcut⟩
  | cons b l ih =>
    refine ⟨h.1, ?_⟩
    rw [heq b (List.mem_cons_self ..)]
    exact ih h.2 fun c hc => heq c (List.mem_cons_of_mem _ hc)

/-- No cell stands in a chain twice. -/
theorem Chain.nodup (h : Chain next start l) : l.Nodup := by
  induction l generalizing start with
  | nil => exact List.nodup_nil
  | cons a l ih =>
    refine List.nodup_cons.mpr ⟨fun hmem => ?_, ih h.2⟩
    -- a second `a` would have the same cells behind it as the first
    obtain ⟨s, t, rfl⟩ := List.append_of_mem hmem
    have hsame : s ++ a :: t = t := h.2.unique h.2.behind
    have hlen : (s ++ a :: t).length = t.length := congrArg List.length hsame
    simp only [List.length_append, List.length_cons] at hlen
    omega

section Update

variable [DecidableEq α]

/-- A write to a cell outside of a chain keeps it. -/
theorem Chain.update (h : Chain next start l) (hmem : a ∉ l) (v : Option α) :
    Chain (Function.update next a v) start l :=
  h.congr fun _ hb => Function.update_of_ne (ne_of_mem_of_not_mem hb hmem) ..

/-- Linking a cell behind the last one. -/
theorem Chain.insert_last (h : Chain next start (l ++ [a])) (hb : b ∉ l ++ [a])
    (hnext : next b = none) : Chain (Function.update next a (some b)) start (l ++ [a] ++ [b]) := by
  have hnodup := h.nodup
  have hne : b ≠ a := fun hba => hb (by simp [hba])
  have hl : ∀ c ∈ l, c ≠ a := fun c hc hca => by
    simp only [List.nodup_append] at hnodup
    exact hnodup.2.2 c hc a (List.mem_singleton_self a) hca
  rw [List.append_assoc]
  refine h.append (r := [b]) ⟨by simp, hnext⟩ (fun c hc => Function.update_of_ne (hl c hc) ..) ?_
  intro c hc
  rw [List.mem_singleton.mp hc]
  exact Function.update_of_ne hne ..

/-- Unlinking the cell behind `a`. -/
theorem Chain.unlink (h : Chain next start (l ++ a :: b :: r)) :
    Chain (Function.update next a (next b)) start (l ++ a :: r) := by
  have hnodup := h.nodup
  have hbehind : Chain next (next a) (b :: r) := h.behind
  simp only [List.nodup_append, List.nodup_cons, List.mem_cons] at hnodup
  have hl : ∀ c ∈ l, c ≠ a := fun c hc => hnodup.2.2 c hc a (Or.inl rfl)
  have hr : ∀ c ∈ r, c ≠ a := fun c hc hca => hnodup.2.1.1 (Or.inr (hca ▸ hc))
  have hcut : Chain (Function.update next a none) start (l ++ [a]) :=
    h.cut (by simp) fun c hc => Function.update_of_ne (hl c hc) ..
  refine hcut.append (r := r) ?_ ?_ ?_
  · have hself : Function.update next a (next b) a = next b := by simp
    rw [hself]
    exact hbehind.2.update (fun hmem => hr a hmem rfl) none
  · exact fun c hc => by simp [Function.update_of_ne (hl c hc)]
  · exact fun c hc => by simp [Function.update_of_ne (hr c hc)]

end Update

end LinkedList
