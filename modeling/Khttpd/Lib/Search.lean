import Mathlib.Data.List.Basic

/-!
# Searching for one of several things

`first test cs l` is the first element of `l` that one of the tests `test c` accepts, for `c` in
`cs`. The search may take one test after the other, each on what is in front of what was found so
far (`first_cons_none`, `first_cons_some`), and may go through `l` piece by piece (`first_append`).
-/

set_option autoImplicit false

namespace Search

variable {α κ : Type*} (test : κ → α → Bool)

/-- The first element that one of the tests accepts. -/
def first (cs : List κ) (l : List α) : Option α := l.find? fun a => cs.any fun c => test c a

@[simp] theorem first_nil (l : List α) : first test [] l = none := by
  simp [first]

/-- Nothing in the first piece: the search goes on in the second one. -/
theorem first_append (cs : List κ) (l₁ l₂ : List α) :
    first test cs (l₁ ++ l₂) = (first test cs l₁).or (first test cs l₂) :=
  List.find?_append

/-- A test that accepts nothing plays no part. -/
theorem first_cons_none {c : κ} {cs : List κ} {l : List α} (h : l.find? (test c) = none) :
    first test (c :: cs) l = first test cs l := by
  rw [List.find?_eq_none] at h
  unfold first
  induction l with
  | nil => rfl
  | cons a l ih =>
    obtain ⟨ha, hl⟩ := List.forall_mem_cons.mp h
    have hcons : (List.any (c :: cs) fun c => test c a) = cs.any fun c => test c a := by
      rw [List.any_cons, Bool.eq_false_iff.mpr ha, Bool.false_or]
    rw [List.find?_cons, List.find?_cons, hcons, ih hl]

/-- What the other tests accept counts in front of what the first one found. -/
theorem first_cons_some {c : κ} {cs : List κ} {b : α} {front back : List α}
    (hb : test c b = true) (hfront : front.find? (test c) = none) :
    first test (c :: cs) (front ++ b :: back) = (first test cs front).or (some b) := by
  have hhere : first test (c :: cs) (b :: back) = some b := by
    rw [first, List.find?_cons, List.any_cons, hb, Bool.true_or]
  rw [first_append, first_cons_none test hfront, hhere]

end Search
