import Mathlib.Order.Basic

/-!
# Runs beside a specification

A system and its specification take the same steps. `Tracks` says that their states stay related
after every part of a run. Where a step keeps the relation exactly when it is no slip, a run tracks
its specification exactly when it avoids every slip.
-/

set_option autoImplicit false

namespace Simulation

variable {S A E : Type}

/-- The specification allows every step of a run. -/
def Allowed (spec : A → E → A) (legal : A → E → Prop) : A → List E → Prop
  | _, [] => True
  | a, e :: es => legal a e ∧ Allowed spec legal (spec a e) es

/-- No step of a run is a slip. -/
def Avoids (step : S → E → S) (slip : S → E → Prop) : S → List E → Prop
  | _, [] => True
  | s, e :: es => ¬slip s e ∧ Avoids step slip (step s e) es

/-- After every part of a run the state is related to that of the specification. -/
def Tracks (step : S → E → S) (spec : A → E → A) (R : S → A → Prop) (s : S) (a : A)
    (es : List E) : Prop :=
  ∀ front, front <+: es → R (front.foldl step s) (front.foldl spec a)

instance decidableAvoids {step : S → E → S} {slip : S → E → Prop} [∀ s e, Decidable (slip s e)] :
    ∀ (s : S) (es : List E), Decidable (Avoids step slip s es)
  | _, [] => isTrue trivial
  | s, e :: es =>
    have : Decidable (Avoids step slip (step s e) es) := decidableAvoids (step s e) es
    inferInstanceAs (Decidable (¬slip s e ∧ Avoids step slip (step s e) es))

instance decidableAllowed {spec : A → E → A} {legal : A → E → Prop}
    [∀ a e, Decidable (legal a e)] :
    ∀ (a : A) (es : List E), Decidable (Allowed spec legal a es)
  | _, [] => isTrue trivial
  | a, e :: es =>
    have : Decidable (Allowed spec legal (spec a e) es) := decidableAllowed (spec a e) es
    inferInstanceAs (Decidable (legal a e ∧ Allowed spec legal (spec a e) es))

variable {step : S → E → S} {spec : A → E → A} {R : S → A → Prop} {legal : A → E → Prop}
  {slip : S → E → Prop} {s : S} {a : A} {e : E} {es : List E}

theorem tracks_nil : Tracks step spec R s a [] ↔ R s a := by
  unfold Tracks
  constructor
  · intro h
    exact h [] List.prefix_rfl
  · intro h front hfront
    rw [List.prefix_nil.mp hfront]
    exact h

theorem tracks_cons :
    Tracks step spec R s a (e :: es) ↔
      R s a ∧ Tracks step spec R (step s e) (spec a e) es := by
  unfold Tracks
  constructor
  · intro h
    refine ⟨h [] (List.nil_prefix), fun front hfront => ?_⟩
    exact h (e :: front) (List.cons_prefix_cons.mpr ⟨rfl, hfront⟩)
  · rintro ⟨hs, h⟩ front hfront
    cases front with
    | nil => exact hs
    | cons b front =>
      obtain ⟨rfl, hrest⟩ := List.cons_prefix_cons.mp hfront
      exact h front hrest

/-- A tracked run starts in related states. -/
theorem Tracks.start (h : Tracks step spec R s a es) : R s a := h [] List.nil_prefix

/-- A run tracks its specification exactly when it avoids every slip. -/
theorem tracks_iff_avoids
    (hstep : ∀ s a e, R s a → legal a e → (R (step s e) (spec a e) ↔ ¬slip s e))
    (hs : R s a) (hes : Allowed spec legal a es) :
    Tracks step spec R s a es ↔ Avoids step slip s es := by
  induction es generalizing s a with
  | nil =>
    rw [tracks_nil]
    exact iff_of_true hs trivial
  | cons e es ih =>
    have hone := hstep s a e hs hes.1
    rw [tracks_cons]
    constructor
    · rintro ⟨-, h⟩
      exact ⟨hone.mp h.start, (ih h.start hes.2).mp h⟩
    · rintro ⟨hslip, h⟩
      have hnext := hone.mpr hslip
      exact ⟨hs, (ih hnext hes.2).mpr h⟩

end Simulation
