import Mathlib.Algebra.Order.Ring.Int

/-!
# Arrays of pointers

`KAutoArray`: a growing array whose only element stands in the object itself, and whose elements
stand in a vector on the heap as soon as there are two. `count`, `cap` and the indexes are
`uint32_t`. Memory is always granted.
-/

set_option autoImplicit false

namespace Khttpd

/-- `last_pos`. -/
def lastPos : ℕ := 2 ^ 32 - 1

/-- The union of `KAutoArray`: a pointer (`none` is NULL), or the cells of a vector, some of them
never written. -/
inductive AutoArrayUnion (α : Type)
  | body (body : Option α)
  | bodys (cells : List (Option α))
  deriving DecidableEq, Repr

/-- `KAutoArray`. `failed` is set when an assertion of the source fails. -/
structure KAutoArray (α : Type) where
  store : AutoArrayUnion α
  count : ℕ
  cap : ℕ
  failed : Bool
  deriving DecidableEq, Repr

variable {α : Type}

/-- `memmove` of `n` cells inside a vector. -/
def memmoveCells (cells : List α) (dst src n : ℕ) : List α :=
  cells.take dst ++ (cells.drop src).take n ++ cells.drop (dst + n)

/-- `kgl_realloc` of a vector to `n` cells. -/
def reallocCells (cells : List (Option α)) (n : ℕ) : List (Option α) :=
  cells.take n ++ List.replicate (n - cells.length) none

namespace KAutoArray

/-- The constructor. -/
def init : KAutoArray α := ⟨.body none, 0, 0, false⟩

/-- The member `body`. -/
def body (a : KAutoArray α) : Option α :=
  match a.store with
  | .body body => body
  | .bodys _ => none

/-- The member `bodys`. -/
def bodys (a : KAutoArray α) : List (Option α) :=
  match a.store with
  | .body _ => []
  | .bodys cells => cells

/-- `bodys[index]`. -/
def cell (a : KAutoArray α) (index : ℕ) : Option α := (a.bodys[index]?).getD none

/-- `assert`. -/
def assert (a : KAutoArray α) (holds : Bool) : KAutoArray α :=
  { a with failed := a.failed || !holds }

/-- `get`. -/
def get (a : KAutoArray α) (index : ℕ) : Option α :=
  if index ≥ a.count then none
  else if a.count = 1 then a.body
  else a.cell index

/-- `shrink_to_fit`. -/
def shrinkToFit (a : KAutoArray α) : KAutoArray α :=
  if a.count < 2 ∨ a.count = a.cap then a
  else { a with store := .bodys (reallocCells a.bodys a.count), cap := a.count }

/-- `remove`. -/
def remove (a : KAutoArray α) (index : ℕ) : KAutoArray α × Option α :=
  if index ≥ a.count then (a, none)
  else if a.count = 1 then
    ({ a.assert (a.cap = 0) with store := .body none, count := 0 }, a.body)
  else if a.count = 2 then
    -- unlike `remove_last`, this branch leaves `cap` alone
    ({ a.assert (2 ≤ a.cap) with store := .body (a.cell (1 - index)), count := 1 }, a.cell index)
  else
    ({ a with
        store := .bodys (memmoveCells a.bodys index (index + 1) (a.count - index - 1))
        count := a.count - 1 },
      a.cell index)

/-- `remove_last`. -/
def removeLast (a : KAutoArray α) : KAutoArray α × Option α :=
  match a.count with
  | 0 => (a, none)
  | 1 => ({ a.assert (a.cap = 0) with store := .body none, count := 0 }, a.body)
  | 2 =>
    ({ a.assert (2 ≤ a.cap) with store := .body (a.cell 0), count := 1, cap := 0 }, a.cell 1)
  | count + 3 => ({ a.assert (count + 3 ≤ a.cap) with count := count + 2 }, a.cell (count + 2))

/-- The growth of a full vector. -/
def grow (a : KAutoArray α) : KAutoArray α :=
  if a.count = a.cap then
    let cap := a.cap * 2 % 2 ^ 32
    { a with store := .bodys (reallocCells a.bodys cap), cap := cap }
  else a

/-- `insert`. The exception for an index out of range leaves a vector that has grown. -/
def insert (a : KAutoArray α) (body : α) (index : ℕ) : KAutoArray α :=
  if a.count = 0 then { a.assert (a.cap = 0) with store := .body (some body), count := 1 }
  else if a.count = 1 then
    let bodys := if index = 0 then [some body, a.body] else [a.body, some body]
    { a.assert (a.cap = 0) with store := .bodys bodys, count := 2, cap := 2 }
  else
    let a := (a.assert (a.count ≤ a.cap)).grow
    if index = lastPos ∨ index = a.count then
      { a with store := .bodys (a.bodys.set a.count (some body)), count := a.count + 1 }
    else if index > a.count then a
    else
      let moved := memmoveCells a.bodys (index + 1) index (a.count - index)
      { a with store := .bodys (moved.set index (some body)), count := a.count + 1 }

end KAutoArray

/-- The calls that change an array. -/
inductive AutoArrayOp (α : Type)
  | insert (body : α) (index : ℕ)
  | remove (index : ℕ)
  | removeLast
  | shrinkToFit
  deriving DecidableEq, Repr

/-- What a call does to an array. -/
def KAutoArray.step (a : KAutoArray α) (op : AutoArrayOp α) : KAutoArray α :=
  match op with
  | .insert body index => a.insert body index
  | .remove index => (a.remove index).1
  | .removeLast => a.removeLast.1
  | .shrinkToFit => a.shrinkToFit

end Khttpd
