import Khttpd.Model.HpackTable

/-!
# Bytes in a memory

What `memWrite` leaves for `memRead`: the bytes written, and every range that they do not touch.
-/

set_option autoImplicit false

namespace Khttpd

variable {m m' : ℕ → Byte} {a a' b n k : ℕ}

@[simp] theorem length_memRead (m : ℕ → Byte) (a n : ℕ) : (memRead m a n).length = n := by
  simp [memRead]

@[simp] theorem memRead_zero (m : ℕ → Byte) (a : ℕ) : memRead m a 0 = [] := rfl

/-- Ranges with the same bytes read the same. -/
theorem memRead_congr (h : ∀ i, i < n → m' (a' + i) = m (a + i)) :
    memRead m' a' n = memRead m a n := by
  refine List.map_congr_left ?_
  intro i hi
  exact h i (List.mem_range.mp hi)

/-- A range in two parts. -/
theorem memRead_add (m : ℕ → Byte) (a n k : ℕ) :
    memRead m a (n + k) = memRead m a n ++ memRead m (a + n) k := by
  unfold memRead
  rw [List.range_add, List.map_append, List.map_map]
  refine congrArg _ (List.map_congr_left ?_)
  intro i _
  simp [Nat.add_assoc]

theorem memRead_succ (m : ℕ → Byte) (a n : ℕ) :
    memRead m a (n + 1) = m a :: memRead m (a + 1) n := by
  rw [Nat.add_comm, memRead_add]
  rfl

/-- What was written is read. -/
theorem memRead_memWrite_self (m : ℕ → Byte) (a : ℕ) (data : Bytes) :
    memRead (memWrite m a data) a data.length = data := by
  apply List.ext_getElem
  · simp
  · intro i hi hdata
    simp [memRead, memWrite, hdata]

/-- A range in front of what is written stays as it is. -/
theorem memRead_memWrite_before (m : ℕ → Byte) (data : Bytes) (h : a + n ≤ b) :
    memRead (memWrite m b data) a n = memRead m a n := by
  apply memRead_congr
  intro i hi
  exact if_neg (by omega)

/-- A range behind what is written stays as it is. -/
theorem memRead_memWrite_behind (m : ℕ → Byte) (data : Bytes) (h : b + data.length ≤ a) :
    memRead (memWrite m b data) a n = memRead m a n := by
  apply memRead_congr
  intro i hi
  exact if_neg (by omega)

end Khttpd
