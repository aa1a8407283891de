import Mathlib.Algebra.Order.BigOperators.Group.List
import Mathlib.Algebra.Order.Ring.Int

/-!
# Bounded queues

A queue is given by the sizes of its items, the oldest first. `retain limit` drops the oldest
items until the rest has room in `limit`: what is left is the longest suffix that fits.
-/

set_option autoImplicit false

namespace BoundedQueue

variable {limit c : ℕ} {q r : List ℕ}

/-- Drop the oldest items while the queue is larger than `limit`. -/
def retain (limit : ℕ) : List ℕ → List ℕ
  | [] => []
  | c :: q => if (c :: q).sum ≤ limit then c :: q else retain limit q

@[simp] theorem retain_nil : retain limit [] = [] := rfl

theorem retain_of_le (h : q.sum ≤ limit) : retain limit q = q := by
  cases q with
  | nil => rfl
  | cons c q => exact if_pos h

theorem retain_cons_of_lt (h : limit < (c :: q).sum) : retain limit (c :: q) = retain limit q :=
  if_neg h.not_ge

/-- What is left fits. -/
theorem sum_retain_le (limit : ℕ) (q : List ℕ) : (retain limit q).sum ≤ limit := by
  induction q with
  | nil => exact Nat.zero_le _
  | cons c q ih =>
    rcases Nat.lt_or_ge limit (c :: q).sum with h | h
    · rw [retain_cons_of_lt h]
      exact ih
    · rw [retain_of_le h]
      exact h

/-- What is left is a suffix. -/
theorem retain_suffix (limit : ℕ) (q : List ℕ) : retain limit q <:+ q := by
  induction q with
  | nil => exact List.suffix_rfl
  | cons c q ih =>
    rcases Nat.lt_or_ge limit (c :: q).sum with h | h
    · rw [retain_cons_of_lt h]
      exact ih.trans (List.suffix_cons c q)
    · exact (retain_of_le h).symm ▸ List.suffix_rfl

/-- A suffix is no larger than the whole. -/
theorem sum_suffix_le (h : r <:+ q) : r.sum ≤ q.sum := by
  obtain ⟨front, rfl⟩ := h
  rw [List.sum_append]
  exact Nat.le_add_left _ _

/-- Every suffix that fits is left. -/
theorem suffix_retain (h : r <:+ q) (hr : r.sum ≤ limit) : r <:+ retain limit q := by
  induction q with
  | nil => exact h
  | cons c q ih =>
    rcases Nat.lt_or_ge limit (c :: q).sum with hlt | hle
    · rw [retain_cons_of_lt hlt]
      rcases List.suffix_cons_iff.mp h with rfl | h
      · exact absurd hr hlt.not_ge
      · exact ih h
    · rw [retain_of_le hle]
      exact h

/-- Dropping items before others come is the same as dropping them afterwards. -/
theorem retain_retain_append (limit : ℕ) (q r : List ℕ) :
    retain limit (retain limit q ++ r) = retain limit (q ++ r) := by
  induction q with
  | nil => rfl
  | cons c q ih =>
    rcases Nat.lt_or_ge limit (c :: q).sum with h | h
    · have hlong : limit < (c :: (q ++ r)).sum := by
        rw [← List.cons_append, List.sum_append]
        omega
      rw [retain_cons_of_lt h, List.cons_append, retain_cons_of_lt hlong, ih]
    · rw [retain_of_le h]

/-- A new item that fits takes its room from the older ones. -/
theorem retain_concat_of_le (q : List ℕ) (h : c ≤ limit) :
    retain limit (q ++ [c]) = retain (limit - c) q ++ [c] := by
  induction q with
  | nil => exact retain_of_le (by simpa using h)
  | cons b q ih =>
    have hsum : (b :: (q ++ [c])).sum = (b :: q).sum + c := by
      rw [← List.cons_append, List.sum_append, List.sum_singleton]
    rcases Nat.lt_or_ge (limit - c) (b :: q).sum with hlt | hle
    · rw [retain_cons_of_lt hlt, List.cons_append, retain_cons_of_lt (by omega), ih]
    · rw [retain_of_le hle, retain_of_le (by rw [List.cons_append]; omega)]

/-- A new item that is larger than the queue may be empties it. -/
theorem retain_concat_of_lt (q : List ℕ) (h : limit < c) : retain limit (q ++ [c]) = [] := by
  induction q with
  | nil => exact retain_cons_of_lt (by simpa using h)
  | cons b q ih =>
    have hlong : limit < (b :: (q ++ [c])).sum := by
      rw [← List.cons_append, List.sum_append, List.sum_singleton]
      omega
    rw [List.cons_append, retain_cons_of_lt hlong, ih]

end BoundedQueue
