import Mathlib.Algebra.Order.Ring.Int

/-!
# Resumable parsers

A parser made of handlers. A call of a handler changes a state, and either goes on with the
rest of the input, or keeps some input and waits for more, or stops for good. `run` is the
loop that calls handlers until the input of one read is used up; `calls` lists what it calls.
-/

set_option autoImplicit false

namespace Resumable

variable {H S α : Type}

/-- How a call of a handler ends. -/
inductive Outcome (H α : Type)
  /-- Go on with `h` unless the input is used up. -/
  | pos (h : H) (rest : List α)
  /-- Go on with `h` at once. -/
  | jump (h : H) (rest : List α)
  /-- Wait for more input, which `h` gets behind `kept`. -/
  | save (h : H) (kept : List α)
  /-- Stop for good. -/
  | null
  deriving DecidableEq, Repr

/-- The loop over one read with at most `fuel` calls. The result is where to resume and the
input kept, or `none` after a stop. -/
def run (exec : H → S → List α → S × Outcome H α) :
    ℕ → H → S → List α → S × Option (H × List α)
  | 0, h, s, p => (s, some (h, p))
  | fuel + 1, h, s, p =>
    match exec h s p with
    | (s, .pos h []) => (s, some (h, []))
    | (s, .pos h (b :: rest)) => run exec fuel h s (b :: rest)
    | (s, .jump h rest) => run exec fuel h s rest
    | (s, .save h kept) => (s, some (h, kept))
    | (s, .null) => (s, none)

/-- The calls that `run` makes. -/
def calls (exec : H → S → List α → S × Outcome H α) :
    ℕ → H → S → List α → List (H × S × List α)
  | 0, _, _, _ => []
  | fuel + 1, h, s, p =>
    (h, s, p) ::
    match exec h s p with
    | (_, .pos _ []) => []
    | (s, .pos h (b :: rest)) => calls exec fuel h s (b :: rest)
    | (s, .jump h rest) => calls exec fuel h s rest
    | (_, .save _ _) => []
    | (_, .null) => []

/-! ## Invariants -/

/-- The handler that an outcome goes on with. -/
def Outcome.next : Outcome H α → Option H
  | .pos h _ => some h
  | .jump h _ => some h
  | .save h _ => some h
  | .null => none

/-- The input that an outcome leaves. -/
def Outcome.rest : Outcome H α → List α
  | .pos _ rest => rest
  | .jump _ rest => rest
  | .save _ kept => kept
  | .null => []

/-- What every call preserves, a run preserves; the invariant may depend on the handler to come
and on the input that is left. -/
theorem run_indexed {exec : H → S → List α → S × Outcome H α} {J : Option H → List α → S → Prop}
    {P : H → S → List α → Prop}
    (hstep : ∀ h s p, J (some h) p s → P h s p →
      J (exec h s p).2.next (exec h s p).2.rest (exec h s p).1) :
    ∀ (fuel : ℕ) (h : H) (s : S) (p : List α), J (some h) p s →
      (∀ c ∈ calls exec fuel h s p, P c.1 c.2.1 c.2.2) →
      J ((run exec fuel h s p).2.map Prod.fst) (((run exec fuel h s p).2.map Prod.snd).getD [])
        (run exec fuel h s p).1
  | 0, _, _, _, hs, _ => hs
  | fuel + 1, h, s, p, hs, hcalls => by
    have hone := hstep h s p hs (hcalls _ List.mem_cons_self)
    have hrest : ∀ c, c ∈ calls exec (fuel + 1) h s p → P c.1 c.2.1 c.2.2 := hcalls
    unfold run
    unfold calls at hrest
    rcases hexec : exec h s p with ⟨t, out⟩
    rw [hexec] at hone
    simp only [hexec] at hrest
    cases out with
    | pos h' rest =>
      cases rest with
      | nil => exact hone
      | cons b rest =>
        exact run_indexed hstep fuel h' t (b :: rest) hone
          fun c hc => hrest c (List.mem_cons_of_mem _ hc)
    | jump h' rest =>
      exact run_indexed hstep fuel h' t rest hone
        fun c hc => hrest c (List.mem_cons_of_mem _ hc)
    | save h' kept => exact hone
    | null => exact hone

/-- What every call preserves, holds before each of the calls of a run. -/
theorem calls_indexed {exec : H → S → List α → S × Outcome H α}
    {J : Option H → List α → S → Prop}
    (hstep : ∀ h s p, J (some h) p s →
      J (exec h s p).2.next (exec h s p).2.rest (exec h s p).1) :
    ∀ (fuel : ℕ) (h : H) (s : S) (p : List α), J (some h) p s →
      ∀ c ∈ calls exec fuel h s p, J (some c.1) c.2.2 c.2.1
  | 0, _, _, _, _, _, hc => absurd hc List.not_mem_nil
  | fuel + 1, h, s, p, hs, c, hc => by
    have hone := hstep h s p hs
    unfold calls at hc
    rcases hexec : exec h s p with ⟨t, out⟩
    rw [hexec] at hone
    simp only [hexec] at hc
    rcases List.mem_cons.mp hc with rfl | hc
    · exact hs
    · cases out with
      | pos h' rest =>
        cases rest with
        | nil => exact absurd hc List.not_mem_nil
        | cons b rest => exact calls_indexed hstep fuel h' t (b :: rest) hone c hc
      | jump h' rest => exact calls_indexed hstep fuel h' t rest hone c hc
      | save h' kept => exact absurd hc List.not_mem_nil
      | null => exact absurd hc List.not_mem_nil

/-- What every call that meets `P` preserves, a run whose calls all meet `P` preserves. -/
theorem run_invariant {exec : H → S → List α → S × Outcome H α} {I : S → Prop}
    {P : H → S → List α → Prop} (hstep : ∀ h s p, I s → P h s p → I (exec h s p).1)
    (fuel : ℕ) (h : H) (s : S) (p : List α) (hs : I s)
    (hcalls : ∀ c ∈ calls exec fuel h s p, P c.1 c.2.1 c.2.2) : I (run exec fuel h s p).1 :=
  run_indexed (J := fun _ _ t => I t) hstep fuel h s p hs hcalls

/-- An outcome goes on with `h`. -/
def Outcome.GoesOn (out : Outcome H α) (h : H) (rest : List α) : Prop :=
  out = .pos h rest ∨ out = .jump h rest

/-- An outcome with which `run` ends, to be resumed with `h`. -/
def Outcome.Waits (out : Outcome H α) (h : H) (rest : List α) : Prop :=
  out = .save h rest ∨ out = .pos h rest ∧ rest = []

theorem Outcome.GoesOn.next {out : Outcome H α} {h : H} {rest : List α} (hout : out.GoesOn h rest) :
    out.next = some h := by
  rcases hout with rfl | rfl
  · rfl
  · rfl

theorem Outcome.Waits.next {out : Outcome H α} {h : H} {rest : List α} (hout : out.Waits h rest) :
    out.next = some h := by
  rcases hout with rfl | ⟨rfl, -⟩
  · rfl
  · rfl

/-- A run whose calls leave notes. What holds of the notes before a call holds after it, and the end
of the run gets them all, the latest first. -/
theorem run_noted {τ : Type} {exec : H → S → List α → S × Outcome H α} {m : H → List α → ℕ}
    {note : H × S × List α → Option τ} {J : H → List α → S → List τ → Prop}
    {P : H → S → List α → Prop} {E : List τ → S × Option (H × List α) → Prop}
    (hdown : ∀ h s p h' rest, (exec h s p).2.GoesOn h' rest → m h' rest < m h p)
    (hstep : ∀ h s p l h' rest, J h p s l → P h s p → (exec h s p).2.GoesOn h' rest →
      J h' rest (exec h s p).1 ((note (h, s, p)).toList ++ l))
    (hwait : ∀ h s p l h' rest, J h p s l → P h s p → (exec h s p).2.Waits h' rest →
      E ((note (h, s, p)).toList ++ l) ((exec h s p).1, some (h', rest)))
    (hstop : ∀ h s p l, J h p s l → P h s p → (exec h s p).2 = .null →
      E ((note (h, s, p)).toList ++ l) ((exec h s p).1, none)) :
    ∀ (fuel : ℕ) (h : H) (s : S) (p : List α) (l : List τ), m h p < fuel → J h p s l →
      (∀ c ∈ calls exec fuel h s p, P c.1 c.2.1 c.2.2) →
      E (((calls exec fuel h s p).filterMap note).reverse ++ l) (run exec fuel h s p)
  | 0, _, _, _, _, hfuel, _, _ => absurd hfuel (Nat.not_lt_zero _)
  | fuel + 1, h, s, p, l, hfuel, hJ, hcalls => by
    have hP := hcalls _ List.mem_cons_self
    have hless := hdown h s p
    have hgo := fun h' rest => hstep h s p l h' rest hJ hP
    have hdone := fun h' rest => hwait h s p l h' rest hJ hP
    have hnull := hstop h s p l hJ hP
    have hnotes : ∀ cs : List (H × S × List α),
        (((h, s, p) :: cs).filterMap note).reverse ++ l =
          (cs.filterMap note).reverse ++ ((note (h, s, p)).toList ++ l) := by
      intro cs
      cases hnote : note (h, s, p) with
      | none => rw [List.filterMap_cons_none hnote, Option.toList_none, List.nil_append]
      | some a =>
        rw [List.filterMap_cons_some hnote, List.reverse_cons, List.append_assoc]
        rfl
    have hrest : ∀ c, c ∈ calls exec (fuel + 1) h s p → P c.1 c.2.1 c.2.2 := hcalls
    unfold run
    unfold calls at hrest ⊢
    rw [hnotes]
    rcases hexec : exec h s p with ⟨t, out⟩
    rw [hexec] at hless hgo hdone hnull
    simp only [hexec] at hrest
    have hmore : ∀ h' rest, out.GoesOn h' rest →
        (∀ c ∈ calls exec fuel h' t rest, P c.1 c.2.1 c.2.2) →
          E (((calls exec fuel h' t rest).filterMap note).reverse ++
            ((note (h, s, p)).toList ++ l)) (run exec fuel h' t rest) := by
      intro h' rest hout hc
      have hm := hless h' rest hout
      exact run_noted hdown hstep hwait hstop fuel h' t rest _ (by omega) (hgo h' rest hout) hc
    cases out with
    | pos h' rest =>
      cases rest with
      | nil => exact hdone h' [] (Or.inr ⟨rfl, rfl⟩)
      | cons b rest =>
        exact hmore h' (b :: rest) (Or.inl rfl) fun c hc => hrest c (List.mem_cons_of_mem _ hc)
    | jump h' rest => exact hmore h' rest (Or.inr rfl) fun c hc => hrest c (List.mem_cons_of_mem _ hc)
    | save h' kept => exact hdone h' kept (Or.inl rfl)
    | null => exact hnull rfl

/-- What happens in a run when it happens in one of its calls: `B` says that it happened, `P` that
a call makes it happen. -/
theorem run_records {exec : H → S → List α → S × Outcome H α} {I B : S → Prop}
    {P : H → S → List α → Prop}
    (hstep : ∀ h s p, I s → I (exec h s p).1 ∧ (B (exec h s p).1 ↔ B s ∨ P h s p)) :
    ∀ (fuel : ℕ) (h : H) (s : S) (p : List α), I s →
      I (run exec fuel h s p).1 ∧
        (B (run exec fuel h s p).1 ↔ B s ∨ ∃ c ∈ calls exec fuel h s p, P c.1 c.2.1 c.2.2)
  | 0, h, s, p, hs => ⟨hs, by simp [run, calls]⟩
  | fuel + 1, h, s, p, hs => by
    have hone := hstep h s p hs
    have hlast : ∀ t, (B t ↔ B s ∨ P h s p) →
        (B t ↔ B s ∨ ∃ c ∈ [(h, s, p)], P c.1 c.2.1 c.2.2) := fun t ht => by
      simpa only [List.mem_singleton, exists_eq_left] using ht
    have hmore : ∀ (h' : H) (t : S) (rest : List α), I t → (B t ↔ B s ∨ P h s p) →
        (B (run exec fuel h' t rest).1 ↔
          B s ∨ ∃ c ∈ (h, s, p) :: calls exec fuel h' t rest, P c.1 c.2.1 c.2.2) := by
      intro h' t rest ht hB
      rw [(run_records hstep fuel h' t rest ht).2, hB, or_assoc]
      simp only [List.mem_cons, exists_eq_or_imp]
    unfold run calls
    rcases hexec : exec h s p with ⟨t, out⟩
    rw [hexec] at hone
    cases out with
    | pos h' rest =>
      cases rest with
      | nil => exact ⟨hone.1, hlast t hone.2⟩
      | cons b rest =>
        exact ⟨(run_records hstep fuel h' t (b :: rest) hone.1).1,
          hmore h' t (b :: rest) hone.1 hone.2⟩
    | jump h' rest =>
      exact ⟨(run_records hstep fuel h' t rest hone.1).1, hmore h' t rest hone.1 hone.2⟩
    | save h' kept => exact ⟨hone.1, hlast t hone.2⟩
    | null => exact ⟨hone.1, hlast t hone.2⟩

end Resumable
