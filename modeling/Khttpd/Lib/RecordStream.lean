import Mathlib.Algebra.Order.Ring.Int

/-!
# Streams of records

A record is a header of fixed size and a payload whose length the header gives. `feed` reads a
stream of records element by element; its state, a `Place`, says where in a record the stream is
and which headers it has had. The reader of a stream is in step with it when both are at the same
place.
-/

set_option autoImplicit false

namespace RecordStream

variable {α β : Type}

/-- The size of a header, what it says, and the length of the payload behind it. -/
structure Format (α β : Type) where
  size : ℕ
  parse : List β → α
  length : α → ℕ

/-- A place in a stream: what is left of a payload, or behind it the part of a header that was read;
and the headers that were read, latest first. -/
structure Place (α β : Type) where
  left : ℕ
  head : List β
  seen : List α

/-- A record has ended, and the next has not started. -/
def Place.Between (c : Place α β) : Prop := c.left = 0 ∧ c.head = []

namespace Format

variable (F : Format α β)

/-- One element. -/
def step (c : Place α β) (b : β) : Place α β :=
  if c.left ≠ 0 then { c with left := c.left - 1 }
  else if c.head.length + 1 < F.size then { c with head := c.head ++ [b] }
  else
    let a := F.parse (c.head ++ [b])
    ⟨F.length a, [], a :: c.seen⟩

/-- A stream, or a part of it. -/
def feed (c : Place α β) (x : List β) : Place α β := x.foldl F.step c

variable {F} {c : Place α β} {x : List β}

theorem feed_append (c : Place α β) (x y : List β) : F.feed c (x ++ y) = F.feed (F.feed c x) y :=
  List.foldl_append

/-- Part of a payload. -/
theorem feed_payload (h : x.length ≤ c.left) :
    F.feed c x = { c with left := c.left - x.length } := by
  induction x generalizing c with
  | nil => rfl
  | cons b x ih =>
    rw [List.length_cons] at h
    have hstep : F.step c b = { c with left := c.left - 1 } := if_pos (by omega)
    have hrest := @ih { c with left := c.left - 1 } (by dsimp only; omega)
    show F.feed (F.step c b) x = _
    rw [hstep, hrest, List.length_cons]
    simp only [Place.mk.injEq, and_true]
    omega

/-- Part of a header. -/
theorem feed_part (hleft : c.left = 0) (h : c.head.length + x.length < F.size) :
    F.feed c x = { c with head := c.head ++ x } := by
  induction x generalizing c with
  | nil =>
    rw [List.append_nil]
    rfl
  | cons b x ih =>
    rw [List.length_cons] at h
    have hstep : F.step c b = { c with head := c.head ++ [b] } :=
      (if_neg (not_not.mpr hleft)).trans (if_pos (by omega))
    have hlength : (c.head ++ [b]).length + x.length < F.size := by
      rw [List.length_append, List.length_singleton]
      omega
    have hrest := @ih { c with head := c.head ++ [b] } hleft hlength
    show F.feed (F.step c b) x = _
    rw [hstep, hrest, List.append_assoc]
    rfl

/-- A header. -/
theorem feed_header (hleft : c.left = 0) (hx : x ≠ []) (h : c.head.length + x.length = F.size) :
    F.feed c x = ⟨F.length (F.parse (c.head ++ x)), [], F.parse (c.head ++ x) :: c.seen⟩ := by
  obtain ⟨y, b, rfl⟩ := List.eq_nil_or_concat x |>.resolve_left hx
  rw [List.concat_eq_append, List.length_append, List.length_singleton] at h
  have hpart : F.feed c y = { c with head := c.head ++ y } := feed_part hleft (by omega)
  have hlast : ¬(c.head ++ y).length + 1 < F.size := by
    rw [List.length_append]
    omega
  rw [List.concat_eq_append, feed_append, hpart, ← List.append_assoc]
  exact (if_neg (not_not.mpr hleft)).trans (if_neg hlast)

/-- What is seen of a stream stays seen. -/
theorem seen_feed (c : Place α β) (x : List β) : c.seen <:+ (F.feed c x).seen := by
  induction x generalizing c with
  | nil => exact List.suffix_refl _
  | cons b x ih =>
    have hstep : c.seen <:+ (F.step c b).seen := by
      unfold step
      split
      · exact List.suffix_refl _
      · split
        · exact List.suffix_refl _
        · exact List.suffix_cons _ _
    exact hstep.trans (ih _)

/-- Elements of a payload. -/
theorem feed_drop {n : ℕ} (hleft : n ≤ c.left) (hx : n ≤ x.length) :
    F.feed { c with left := c.left - n } (x.drop n) = F.feed c x := by
  have hfront : (x.take n).length = n := List.length_take_of_le hx
  have hpayload : F.feed c (x.take n) = { c with left := c.left - n } := by
    rw [feed_payload (by omega), hfront]
  rw [← hpayload, ← feed_append, List.take_append_drop]

/-- Nothing ends within a payload. -/
theorem not_between_feed (h : x.length < c.left) : ¬(F.feed c x).Between := by
  rintro ⟨hleft, -⟩
  rw [feed_payload h.le] at hleft
  exact absurd hleft (Nat.sub_ne_zero_of_lt h)

/-- No header is seen before it is complete. -/
theorem seen_feed_of_lt (hhead : c.head = []) (h : x.length < c.left + F.size) :
    (F.feed c x).seen = c.seen := by
  by_cases hx : x.length ≤ c.left
  · rw [feed_payload hx]
  · have hle : c.left ≤ x.length := by omega
    rw [← feed_drop (Nat.le_refl c.left) hle, feed_part]
    · exact Nat.sub_self _
    · rw [hhead, List.length_drop]
      simp only [List.length_nil]
      omega

/-- A payload may be cut: what is taken out of the middle of it is taken off what is left. -/
theorem feed_cut {n k : ℕ} (hleft : n + k ≤ c.left) (hx : n + k ≤ x.length) :
    F.feed { c with left := c.left - k } (x.take n ++ x.drop (n + k)) = F.feed c x := by
  have hcut : (x.take (n + k)).length = n + k := List.length_take_of_le hx
  have hfront : (x.take n).length = n := List.length_take_of_le (Nat.le_of_add_right_le hx)
  have hshort : F.feed { c with left := c.left - k } (x.take n) =
      { c with left := c.left - k - n } := by
    rw [feed_payload (by dsimp only; omega), hfront]
  have hlong : F.feed c (x.take (n + k)) = { c with left := c.left - (n + k) } := by
    rw [feed_payload (by omega), hcut]
  calc F.feed { c with left := c.left - k } (x.take n ++ x.drop (n + k))
      = F.feed { c with left := c.left - k - n } (x.drop (n + k)) := by rw [feed_append, hshort]
    _ = F.feed { c with left := c.left - (n + k) } (x.drop (n + k)) := by
        rw [Nat.sub_sub, Nat.add_comm k n]
    _ = F.feed c (x.take (n + k) ++ x.drop (n + k)) := by rw [feed_append, hlong]
    _ = F.feed c x := by rw [List.take_append_drop]

/-- The header behind a payload may be taken out: the next payload then follows this one. -/
theorem feed_join {n : ℕ} (hleft : c.left = n) (hhead : c.head = []) (hsize : 0 < F.size)
    (hx : n + F.size ≤ x.length) :
    F.feed ⟨n + F.length (F.parse ((x.drop n).take F.size)), [],
        F.parse ((x.drop n).take F.size) :: c.seen⟩ (x.take n ++ x.drop (n + F.size)) =
      F.feed c x := by
  obtain ⟨left, head, seen⟩ := c
  obtain rfl : left = n := hleft
  obtain rfl : head = [] := hhead
  have hfront : (x.take left).length = left := List.length_take_of_le (by omega)
  have hnext : ((x.drop left).take F.size).length = F.size :=
    List.length_take_of_le (by rw [List.length_drop]; omega)
  have hdrop : x.drop (left + F.size) = (x.drop left).drop F.size := by
    rw [List.drop_drop]
  generalize ha : F.parse ((x.drop left).take F.size) = a
  have hjoined : F.feed ⟨left + F.length a, [], a :: seen⟩ (x.take left) =
      ⟨F.length a, [], a :: seen⟩ := by
    rw [feed_payload (by rw [hfront]; exact Nat.le_add_right _ _), hfront, Nat.add_sub_cancel_left]
  have hpayload : F.feed ⟨left, [], seen⟩ (x.take left) = ⟨0, [], seen⟩ := by
    rw [feed_payload (by rw [hfront]), hfront, Nat.sub_self]
  have hheader : F.feed ⟨0, [], seen⟩ ((x.drop left).take F.size) = ⟨F.length a, [], a :: seen⟩ := by
    have hne : (x.drop left).take F.size ≠ [] := List.ne_nil_of_length_pos (by omega)
    have h := feed_header (F := F) (c := ⟨0, [], seen⟩) rfl hne (by rw [hnext]; exact Nat.zero_add _)
    rw [List.nil_append, ha] at h
    exact h
  calc F.feed ⟨left + F.length a, [], a :: seen⟩ (x.take left ++ x.drop (left + F.size))
      = F.feed ⟨F.length a, [], a :: seen⟩ ((x.drop left).drop F.size) := by
        rw [feed_append, hjoined, hdrop]
    _ = F.feed ⟨0, [], seen⟩ ((x.drop left).take F.size ++ (x.drop left).drop F.size) := by
        rw [feed_append, hheader]
    _ = F.feed ⟨left, [], seen⟩ (x.take left ++ x.drop left) := by
        rw [List.take_append_drop, feed_append, hpayload]
    _ = F.feed ⟨left, [], seen⟩ x := by rw [List.take_append_drop]

end Format

end RecordStream
