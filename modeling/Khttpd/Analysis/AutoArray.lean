import Mathlib.Algebra.Order.Ring.Int
import Mathlib.Data.List.InsertIdx
import Khttpd.Lib.Simulation
import Khttpd.Model.AutoArray

/-!
# An array of pointers stands for a list

The three shapes of `KAutoArray` (nothing, one pointer in place, a vector) are read back as a list,
and each call is the list operation of its name. Two calls are not: `remove` of one of two elements
leaves `cap` as it was, and the growth of a vector of 2^31 cells or more wraps around.
-/

set_option autoImplicit false

namespace Khttpd

variable {α : Type}

/-- What a call does to a list. -/
def AutoArrayOp.onList (l : List α) (op : AutoArrayOp α) : List α :=
  match op with
  | .insert body index => if index = lastPos then l ++ [body] else l.insertIdx index body
  | .remove index => l.eraseIdx index
  | .removeLast => l.dropLast
  | .shrinkToFit => l

/-- An insertion names a place in the list or its end. -/
def AutoArrayOp.inRange (l : List α) (op : AutoArrayOp α) : Prop :=
  match op with
  | .insert _ index => index ≤ l.length ∨ index = lastPos
  | _ => True

instance decidableInRange (l : List α) (op : AutoArrayOp α) : Decidable (op.inRange l) :=
  match op with
  | .insert _ index => inferInstanceAs (Decidable (index ≤ l.length ∨ index = lastPos))
  | .remove _ | .removeLast | .shrinkToFit => isTrue trivial

namespace KAutoArray

/-- The array stands for a list: its elements are read back, its representation is the one for its
size, and no assertion has failed. -/
structure Stands (a : KAutoArray α) (l : List α) : Prop where
  count : a.count = l.length
  get : ∀ i, a.get i = l[i]?
  inline : a.count ≤ 1 → a.cap = 0 ∧ ∃ body, a.store = .body body
  heap : 2 ≤ a.count → a.count ≤ a.cap ∧ ∃ cells, a.store = .bodys cells ∧ cells.length = a.cap
  passed : a.failed = false

/-- A call takes one of two elements away with `remove`, or makes a vector grow to more cells than
`cap` can count. -/
def slips (a : KAutoArray α) (op : AutoArrayOp α) : Prop :=
  match op with
  | .insert _ _ => 2 ≤ a.count ∧ a.count = a.cap ∧ 2 ^ 32 ≤ a.cap * 2
  | .remove index => a.count = 2 ∧ index < 2
  | _ => False

instance decidableSlips (a : KAutoArray α) (op : AutoArrayOp α) : Decidable (a.slips op) :=
  match op with
  | .insert _ _ =>
    inferInstanceAs (Decidable (2 ≤ a.count ∧ a.count = a.cap ∧ 2 ^ 32 ≤ a.cap * 2))
  | .remove index => inferInstanceAs (Decidable (a.count = 2 ∧ index < 2))
  | .removeLast | .shrinkToFit => isFalse id

/-! ## The three shapes -/

theorem stands_empty (body : Option α) : (⟨.body body, 0, 0, false⟩ : KAutoArray α).Stands [] where
  count := rfl
  get _ := rfl
  inline _ := ⟨rfl, body, rfl⟩
  heap h := absurd h (Nat.not_succ_le_zero 1)
  passed := rfl

theorem stands_single (x : α) : (⟨.body (some x), 1, 0, false⟩ : KAutoArray α).Stands [x] where
  count := rfl
  get i := by
    cases i with
    | zero => rfl
    | succ i => simp [KAutoArray.get]
  inline _ := ⟨rfl, some x, rfl⟩
  heap h := absurd h (Nat.not_succ_le_self 1)
  passed := rfl

/-- A vector whose first cells are the list. -/
def vector (l : List α) (spare : List (Option α)) : KAutoArray α :=
  ⟨.bodys (l.map some ++ spare), l.length, l.length + spare.length, false⟩

theorem stands_vector {l : List α} (hl : 2 ≤ l.length) (spare : List (Option α)) :
    (vector l spare).Stands l where
  count := rfl
  get i := by
    unfold KAutoArray.get
    rcases Nat.lt_or_ge i l.length with h | h
    · have hcount : ¬(vector l spare).count = 1 := by simp only [vector]; omega
      rw [if_neg (by simpa [vector] using h), if_neg hcount]
      simp [cell, bodys, vector, List.getElem?_append_left, h]
    · rw [if_pos (by simpa [vector] using h), List.getElem?_eq_none h]
  inline h := by simp only [vector] at h; omega
  heap _ := ⟨Nat.le_add_right _ _, _, rfl, by simp [vector]⟩
  passed := rfl

theorem Stands.empty {a : KAutoArray α} (h : a.Stands []) :
    ∃ body, a = ⟨.body body, 0, 0, false⟩ := by
  obtain ⟨store, count, cap, failed⟩ := a
  obtain ⟨hcount, -, hinline, -, hpassed⟩ := h
  obtain rfl : count = 0 := hcount
  obtain ⟨hcap, body, hbody⟩ := hinline (Nat.zero_le 1)
  cases hcap
  cases hbody
  cases hpassed
  exact ⟨body, rfl⟩

theorem Stands.single {a : KAutoArray α} {x : α} (h : a.Stands [x]) :
    a = ⟨.body (some x), 1, 0, false⟩ := by
  obtain ⟨store, count, cap, failed⟩ := a
  obtain ⟨hcount, hget, hinline, -, hpassed⟩ := h
  obtain rfl : count = 1 := hcount
  obtain ⟨hcap, body, hbody⟩ := hinline (Nat.le_refl 1)
  cases hcap
  cases hbody
  cases hpassed
  have hbody : body = some x := hget 0
  rw [hbody]

theorem Stands.vector {a : KAutoArray α} {l : List α} (h : a.Stands l) (hl : 2 ≤ l.length) :
    ∃ spare, a = vector l spare := by
  obtain ⟨store, count, cap, failed⟩ := a
  obtain ⟨hcount, hget, -, hheap, hpassed⟩ := h
  obtain rfl : count = l.length := hcount
  obtain ⟨hcap, cells, hcells, hlength⟩ := hheap hl
  cases hcells
  cases hpassed
  obtain rfl : cells.length = cap := hlength
  have hcap : l.length ≤ cells.length := hcap
  have hcell : cells.take l.length = l.map some := by
    refine List.ext_getElem? fun i => ?_
    rcases Nat.lt_or_ge i l.length with hi | hi
    · have hi' : i < cells.length := Nat.lt_of_lt_of_le hi hcap
      have hone : ¬l.length = 1 := by omega
      have hread := hget i
      simp only [KAutoArray.get, ge_iff_le, not_le.mpr hi, if_false, hone, cell, bodys,
        List.getElem?_eq_getElem hi', Option.getD_some, List.getElem?_eq_getElem hi] at hread
      rw [List.getElem?_take_of_lt hi, List.getElem?_eq_getElem hi', List.getElem?_map,
        List.getElem?_eq_getElem hi, hread]
      rfl
    · rw [List.getElem?_eq_none (by simp; omega), List.getElem?_eq_none (by simpa using hi)]
  refine ⟨cells.drop l.length, ?_⟩
  have hsize : l.length + (cells.drop l.length).length = cells.length := by
    rw [List.length_drop]
    omega
  unfold KAutoArray.vector
  rw [← hcell, List.take_append_drop, hsize]

/-! ## The calls -/

/-- A vector of one list that becomes a vector of another with as many cells. -/
theorem stands_cells {l : List α} {cells : List (Option α)} {cap : ℕ} (hl : 2 ≤ l.length)
    (spare : List (Option α)) (hcells : cells = l.map some ++ spare)
    (hcap : cap = l.length + spare.length) :
    (⟨.bodys cells, l.length, cap, false⟩ : KAutoArray α).Stands l := by
  subst hcells hcap
  exact stands_vector hl spare

theorem stands_shrinkToFit {a : KAutoArray α} {l : List α} (h : a.Stands l) :
    a.shrinkToFit.Stands l := by
  unfold shrinkToFit
  split
  · exact h
  · rename_i hmore
    have hl : 2 ≤ l.length := by
      rw [← h.count]
      omega
    obtain ⟨spare, rfl⟩ := h.vector hl
    refine stands_cells hl [] ?_ rfl
    simp [reallocCells, bodys, vector]

theorem stands_removeLast {a : KAutoArray α} {l : List α} (h : a.Stands l) :
    a.removeLast.1.Stands l.dropLast := by
  match l with
  | [] =>
    obtain ⟨body, rfl⟩ := h.empty
    exact stands_empty body
  | [x] =>
    rw [h.single]
    exact stands_empty none
  | [x, y] =>
    obtain ⟨spare, rfl⟩ := h.vector (Nat.le_refl 2)
    have hcap : decide (2 ≤ 2 + spare.length) = true := decide_eq_true (Nat.le_add_right 2 _)
    have hres : (vector [x, y] spare).removeLast.1 = ⟨.body (some x), 1, 0, false⟩ := by
      simp [vector, removeLast, assert, cell, bodys]
    rw [hres]
    exact stands_single x
  | x :: y :: z :: l =>
    obtain ⟨spare, rfl⟩ := h.vector (by simp)
    obtain ⟨front, last, hlast⟩ : ∃ front last, x :: y :: z :: l = front ++ [last] :=
      ⟨_, _, (List.dropLast_concat_getLast (List.cons_ne_nil x _)).symm⟩
    have hfront : front.length = l.length + 2 := by
      have := congrArg List.length hlast
      simp only [List.length_cons, List.length_append, List.length_nil] at this
      omega
    have hres : (vector (x :: y :: z :: l) spare).removeLast.1 =
        ⟨.bodys (front.map some ++ some last :: spare), front.length,
          front.length + (spare.length + 1), false⟩ := by
      rw [hlast, hfront]
      simp only [vector, removeLast, assert, List.length_append, List.length_cons,
        List.length_nil, hfront, List.map_append, List.map_cons, List.map_nil]
      simp [Nat.add_assoc]
      omega
    rw [hres, hlast, List.dropLast_concat]
    exact stands_cells (by omega) (some last :: spare) rfl (by simp)

/-- `remove` keeps the list, except where it leaves one of two elements. -/
theorem stands_remove {a : KAutoArray α} {l : List α} (h : a.Stands l) (index : ℕ) :
    (a.remove index).1.Stands (l.eraseIdx index) ↔ ¬(a.count = 2 ∧ index < 2) := by
  have hcount := h.count
  by_cases hout : index ≥ a.count
  · have hres : (a.remove index).1 = a := by
      unfold remove
      rw [if_pos hout]
    rw [hres, List.eraseIdx_of_length_le (by omega)]
    exact iff_of_true h (by omega)
  · match l with
    | [] =>
      simp only [List.length_nil] at hcount
      omega
    | [x] =>
      obtain rfl : index = 0 := by
        simp only [List.length_cons, List.length_nil] at hcount
        omega
      rw [h.single]
      exact iff_of_true (stands_empty none) (by simp)
    | [x, y] =>
      obtain ⟨spare, rfl⟩ := h.vector (Nat.le_refl 2)
      have hin : index < 2 := Nat.lt_of_not_le hout
      refine iff_of_false (fun hstands => ?_) (by simp [vector, hin])
      have hres : ((vector [x, y] spare).remove index).1.count = 1 ∧
          ((vector [x, y] spare).remove index).1.cap = 2 + spare.length := by
        unfold remove
        rw [if_neg hout]
        exact ⟨rfl, rfl⟩
      have hcap := (hstands.inline hres.1.le).1
      omega
    | x :: y :: z :: l =>
      generalize hlist : x :: y :: z :: l = l' at h hcount ⊢
      have hlong : 3 ≤ l'.length := by simp [← hlist]
      obtain ⟨spare, rfl⟩ := h.vector (by omega)
      have hin : index < l'.length := Nat.lt_of_not_le hout
      have hlen : (l'.eraseIdx index).length = l'.length - 1 := List.length_eraseIdx_of_lt hin
      refine iff_of_true ?_ (by simp only [vector]; omega)
      have hres : ((vector l' spare).remove index).1 =
          ⟨.bodys (memmoveCells (l'.map some ++ spare) index (index + 1) (l'.length - index - 1)),
            (l'.eraseIdx index).length, l'.length + spare.length, false⟩ := by
        have hone : ¬(vector l' spare).count = 1 := by omega
        have htwo : ¬(vector l' spare).count = 2 := by omega
        rw [hlen]
        unfold remove
        rw [if_neg hout, if_neg hone, if_neg htwo]
        rfl
      rw [hres]
      -- the cell of the last element becomes spare
      refine stands_cells (by omega) ((l'.map some ++ spare).drop (l'.length - 1)) ?_ ?_
      · unfold memmoveCells
        have htail : index + (l'.length - index - 1) = l'.length - 1 := by omega
        have hback : l'.length - index - 1 = l'.length - (index + 1) := by omega
        rw [htail, hback, List.eraseIdx_eq_take_drop_succ, List.map_append, List.map_take,
          List.map_drop]
        congr 2
        · exact List.take_append_of_le_length (by simp; omega)
        · rw [List.drop_append_of_le_length (by simp; omega)]
          have hsize : ((l'.map some).drop (index + 1)).length = l'.length - (index + 1) := by simp
          rw [← hsize, List.take_left]
      · simp only [List.length_drop, List.length_append, List.length_map]
        omega

theorem insertIdx_eq_take_drop {β : Type} (x : β) {l : List β} {i : ℕ} (hi : i ≤ l.length) :
    l.insertIdx i x = l.take i ++ x :: l.drop i := by
  induction l generalizing i with
  | nil =>
    obtain rfl : i = 0 := Nat.le_zero.mp hi
    rfl
  | cons y l ih =>
    cases i with
    | zero => rfl
    | succ i =>
      rw [List.insertIdx_succ_cons, ih (Nat.le_of_succ_le_succ hi)]
      rfl

/-- Moving the cells behind a place up by one makes room for an element there. -/
theorem set_memmoveCells {β : Type} (front back : List β) (first x : β) (rest : List β) :
    (memmoveCells (front ++ back ++ first :: rest) (front.length + 1) front.length
      back.length).set front.length x = front ++ x :: back ++ rest := by
  obtain ⟨y, behind, hbehind⟩ : ∃ y behind, back ++ first :: rest = y :: behind := by
    cases back with
    | nil => exact ⟨first, rest, rfl⟩
    | cons y back => exact ⟨y, back ++ first :: rest, rfl⟩
  have htake : (front ++ back ++ first :: rest).take (front.length + 1) = front ++ [y] := by
    rw [List.append_assoc, hbehind, List.take_length_add_append]
    rfl
  have hmoved : ((front ++ back ++ first :: rest).drop front.length).take back.length = back := by
    rw [List.append_assoc, List.drop_left, List.take_left]
  have hdrop : (front ++ back ++ first :: rest).drop (front.length + 1 + back.length) = rest := by
    have hsize : front.length + 1 + back.length = (front ++ back ++ [first]).length := by
      simp only [List.length_append, List.length_cons, List.length_nil]
      omega
    have hsplit : front ++ back ++ first :: rest = front ++ back ++ [first] ++ rest := by simp
    rw [hsize, hsplit, List.drop_left]
  unfold memmoveCells
  rw [htake, hmoved, hdrop]
  simp

/-- A full vector gets as many cells again, up to 2^32 of them. -/
theorem grow_vector {l : List α} {spare : List (Option α)}
    (hroom : spare = [] → l.length * 2 < 2 ^ 32) (hl : 2 ≤ l.length) :
    ∃ first rest, (vector l spare).grow = vector l (first :: rest) := by
  unfold grow
  cases spare with
  | nil =>
    have hmod : l.length * 2 % 2 ^ 32 = l.length * 2 := Nat.mod_eq_of_lt (hroom rfl)
    have hfull : (vector l []).count = (vector l []).cap := rfl
    obtain ⟨n, hn⟩ : ∃ n, l.length = n + 1 := ⟨l.length - 1, by omega⟩
    refine ⟨none, List.replicate n none, ?_⟩
    rw [if_pos hfull]
    have hcap : (vector l []).cap = l.length := rfl
    simp only [hcap, hmod]
    simp only [vector, reallocCells, bodys, List.append_nil, List.length_map, List.length_cons,
      List.length_replicate]
    rw [List.take_of_length_le (by simp; omega), ← List.replicate_succ, ← hn]
    have hdouble : l.length * 2 - l.length = l.length := by omega
    rw [hdouble]
    congr 1
    omega
  | cons first rest =>
    refine ⟨first, rest, if_neg ?_⟩
    simp only [vector, List.length_cons]
    omega

/-- `insert` puts the element where it belongs, except where the vector cannot grow. -/
theorem stands_insert {a : KAutoArray α} {l : List α} (h : a.Stands l) (body : α) {index : ℕ}
    (hindex : index ≤ l.length ∨ index = lastPos) :
    (a.insert body index).Stands (if index = lastPos then l ++ [body] else l.insertIdx index body) ↔
      ¬(2 ≤ a.count ∧ a.count = a.cap ∧ 2 ^ 32 ≤ a.cap * 2) := by
  match l with
  | [] =>
    obtain ⟨b, rfl⟩ := h.empty
    have hlist : (if index = lastPos then [] ++ [body] else List.insertIdx [] index body) =
        [body] := by
      split
      · rfl
      · rename_i hne
        obtain rfl : index = 0 := by
          rcases hindex with h | h
          · exact Nat.le_zero.mp h
          · exact absurd h hne
        rfl
    rw [hlist]
    exact iff_of_true (stands_single body) (by simp)
  | [x] =>
    rw [h.single]
    refine iff_of_true ?_ (by simp)
    by_cases hzero : index = 0
    · subst hzero
      exact stands_vector (l := [body, x]) (Nat.le_refl 2) []
    · have hlist : (if index = lastPos then [x] ++ [body] else List.insertIdx [x] index body) =
          [x, body] := by
        split
        · rfl
        · rename_i hne
          obtain rfl : index = 1 := by
            rcases hindex with h | h
            · simp only [List.length_cons, List.length_nil] at h
              omega
            · exact absurd h hne
          rfl
      have hres : (⟨.body (some x), 1, 0, false⟩ : KAutoArray α).insert body index =
          vector [x, body] [] := by
        simp [insert, hzero, assert, KAutoArray.body, vector]
      rw [hlist, hres]
      exact stands_vector (l := [x, body]) (Nat.le_refl 2) []
  | x :: y :: l =>
    generalize hlist : x :: y :: l = l' at h hindex ⊢
    have hl : 2 ≤ l'.length := by simp [← hlist]
    obtain ⟨spare, rfl⟩ := h.vector hl
    have hzero : ¬(vector l' spare).count = 0 := by simp only [vector]; omega
    have hone : ¬(vector l' spare).count = 1 := by simp only [vector]; omega
    have hassert : (vector l' spare).assert ((vector l' spare).count ≤ (vector l' spare).cap) =
        vector l' spare := by
      simp [assert, vector]
    by_cases hroom : spare = [] → l'.length * 2 < 2 ^ 32
    · refine iff_of_true ?_ ?_
      · obtain ⟨first, rest, hgrow⟩ := grow_vector hroom hl
        unfold insert
        rw [if_neg hzero, if_neg hone]
        simp only [hassert, hgrow]
        have hcount : (vector l' (first :: rest)).count = l'.length := rfl
        have hbodys : (vector l' (first :: rest)).bodys = l'.map some ++ first :: rest := rfl
        simp only [hcount, hbodys]
        by_cases hend : index = lastPos ∨ index = l'.length
        · have happend : (if index = lastPos then l' ++ [body] else l'.insertIdx index body) =
              l' ++ [body] := by
            split
            · rfl
            · rename_i hne
              rw [hend.resolve_left hne, List.insertIdx_length_self]
          rw [if_pos hend, happend]
          have hlen : (l' ++ [body]).length = l'.length + 1 := by simp
          rw [← hlen]
          refine stands_cells (by omega) rest ?_ ?_
          · rw [List.set_append_right _ _ (by simp)]
            simp
          · simp [vector]
            omega
        · have hlt : index < l'.length := by
            rcases hindex with h | h
            · omega
            · exact absurd (Or.inl h) hend
          have hne : ¬index = lastPos := fun h => hend (Or.inl h)
          have hlen : (l'.insertIdx index body).length = l'.length + 1 :=
            List.length_insertIdx_of_le_length hlt.le body
          rw [if_neg hend, if_neg hlt.not_gt, if_neg hne, ← hlen]
          refine stands_cells (by omega) rest ?_ ?_
          · have hfront : (l'.take index).length = index := List.length_take_of_le hlt.le
            have hback : (l'.drop index).length = l'.length - index := List.length_drop
            have hmove := set_memmoveCells ((l'.take index).map some) ((l'.drop index).map some)
              first (some body) rest
            rw [← List.map_append, List.take_append_drop, List.length_map, List.length_map, hfront,
              hback] at hmove
            rw [hmove, insertIdx_eq_take_drop body hlt.le]
            simp
          · simp [vector]
            omega
      · rintro ⟨-, hfull, hbig⟩
        simp only [vector, Nat.left_eq_add, List.length_eq_zero_iff] at hfull hbig
        have := hroom hfull
        simp only [hfull, List.length_nil] at hbig
        omega
    · obtain ⟨hspare, hbig⟩ := Classical.not_imp.mp hroom
      subst hspare
      refine iff_of_false (fun hstands => ?_) (not_not.mpr ⟨hl, rfl, Nat.le_of_not_lt hbig⟩)
      -- the new `cap` is less than the old one
      have hwrap : ((vector l' []).insert body index).cap < l'.length ∧
          l'.length ≤ ((vector l' []).insert body index).count := by
        have hgrow : (vector l' []).grow.count = l'.length ∧
            (vector l' []).grow.cap = l'.length * 2 % 2 ^ 32 := by
          have hfull : (vector l' []).count = (vector l' []).cap := rfl
          unfold grow
          rw [if_pos hfull]
          exact ⟨rfl, rfl⟩
        have hmod : l'.length * 2 % 2 ^ 32 < l'.length := by omega
        unfold insert
        rw [if_neg hzero, if_neg hone]
        simp only [hassert]
        split
        · simp only [hgrow]
          omega
        · split
          · simp only [hgrow]
            omega
          · simp only [hgrow]
            omega
      have hheap := (hstands.heap (by omega)).1
      omega

/-- A call keeps the list exactly when it is no slip. -/
theorem stands_step {a : KAutoArray α} {l : List α} (h : a.Stands l) {op : AutoArrayOp α}
    (hop : op.inRange l) : (a.step op).Stands (op.onList l) ↔ ¬a.slips op := by
  cases op with
  | insert body index => exact stands_insert h body hop
  | remove index => exact stands_remove h index
  | removeLast => exact iff_of_true (stands_removeLast h) id
  | shrinkToFit => exact iff_of_true (stands_shrinkToFit h) id

/-- The array stands for the list that the same calls make, after every one of them, exactly when
no call takes one of two elements away with `remove` and no vector grows beyond what `cap` can
count. -/
theorem tracks_list {ops : List (AutoArrayOp α)}
    (hops : Simulation.Allowed AutoArrayOp.onList AutoArrayOp.inRange [] ops) :
    Simulation.Tracks step AutoArrayOp.onList Stands init [] ops ↔
      Simulation.Avoids step slips init ops :=
  Simulation.tracks_iff_avoids (fun _ _ _ hs hop => stands_step hs hop) (stands_empty none) hops

/-- A run through both sizes at which the storage changes. -/
theorem tracks_list_three :
    Simulation.Allowed AutoArrayOp.onList AutoArrayOp.inRange []
        [.insert 1 lastPos, .insert 2 0, .insert 3 1, .shrinkToFit, .remove 0, .removeLast] ∧
      Simulation.Tracks step AutoArrayOp.onList Stands init []
        [.insert 1 lastPos, .insert 2 0, .insert 3 1, .shrinkToFit, .remove 0, .removeLast] :=
  ⟨by decide, (tracks_list (by decide)).mpr (by decide)⟩

/-- Taking the first of two elements away leaves `cap` behind, and the next call finds it. -/
theorem remove_first_of_two :
    ¬Simulation.Tracks step AutoArrayOp.onList Stands init []
        [.insert 1 lastPos, .insert 2 lastPos, .remove 0] ∧
      ([.insert 1 lastPos, .insert 2 lastPos, .remove 0, .insert 3 lastPos].foldl step
        (init : KAutoArray ℕ)).failed = true := by
  refine ⟨fun h => ?_, by decide⟩
  have hstands := h _ List.prefix_rfl
  exact absurd (hstands.inline (by decide)).1 (by decide)

end KAutoArray

end Khttpd
