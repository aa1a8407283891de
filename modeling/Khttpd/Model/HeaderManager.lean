import Khttpd.Model.Text

/-!
# The list of headers

`KHttpHeaderManager`: a singly linked list of headers with a pointer to its head and one to its
tail. A header is an address; the memory has the `next` pointer of every address, and the headers
at addresses from `count` on are not allocated yet. Reading through a null pointer is `none`.
-/

set_option autoImplicit false

namespace Khttpd

/-! ## Headers -/

/-- The fields of `KHttpHeader` that name it; `name` is the first `name_len` bytes of `buf`. -/
structure KHttpHeader where
  nameIsKnow : Bool
  knowHeader : ℕ
  name : Bytes
  deriving DecidableEq, Repr

/-- `kgl_attr_tolower`. -/
def attrToLower (p : Byte) : Byte := if p = 45 then 95 else toLower p

/-- `kgl_is_attr` of two strings. -/
def isAttr (s1 s2 : Bytes) : Bool := s1.map attrToLower == s2.map attrToLower

/-- `kgl_is_attr` of a header; `headerTypeString` is the table `kgl_header_type_string`. -/
def KHttpHeader.isAttr (headerTypeString : ℕ → Bytes) (header : KHttpHeader) (s2 : Bytes) : Bool :=
  if header.nameIsKnow then Khttpd.isAttr (headerTypeString header.knowHeader) s2
  else Khttpd.isAttr header.name s2

/-- `KHttpHeaderIteratorResult`. -/
inductive KHttpHeaderIteratorResult
  | continue
  | remove
  | free
  deriving DecidableEq, Repr

/-! ## The manager -/

/-- `KHttpHeaderManager` and the memory of its headers: `av` has the fields of the header at each
address, `next` its `next` pointer, and `freed` the addresses given to `xfree_header`. -/
structure KHttpHeaderManager where
  header : Option ℕ
  last : Option ℕ
  next : ℕ → Option ℕ
  av : ℕ → KHttpHeader
  count : ℕ
  freed : List ℕ

namespace KHttpHeaderManager

/-- A manager filled with zeros, and no header. -/
def init : KHttpHeaderManager where
  header := none
  last := none
  next := fun _ => none
  av := fun _ => ⟨false, 0, []⟩
  count := 0
  freed := []

/-- The allocation of a header in `add_header`; the memory of it is filled with zeros. -/
def newHeader (m : KHttpHeaderManager) (av : KHttpHeader) : KHttpHeaderManager :=
  { m with
    next := Function.update m.next m.count none
    av := Function.update m.av m.count av
    count := m.count + 1 }

/-- `append`. -/
def append (m : KHttpHeaderManager) (newT : ℕ) : KHttpHeaderManager :=
  if m.header = none then { m with header := some newT, last := some newT }
  else { m with next := Function.update m.next newT m.header, header := some newT }

/-- `insert`; `none` is the write through a null `last`. -/
def insert (m : KHttpHeaderManager) (newT : ℕ) : Option KHttpHeaderManager :=
  if m.header = none then some { m with header := some newT, last := some newT }
  else m.last.map fun last =>
    { m with next := Function.update m.next last (some newT), last := some newT }

/-- What `iterator` and `remove` do to take the header behind `last` out of the list. -/
def unlink (m : KHttpHeaderManager) (next : Option ℕ) : KHttpHeaderManager :=
  match m.last with
  | some last => { m with next := Function.update m.next last next }
  | none => { m with header := next }

/-- The loop of `iterator` from the header `l` on, over at most `fuel` headers. -/
def iteratorLoop (it : ℕ → KHttpHeaderIteratorResult) :
    ℕ → KHttpHeaderManager → Option ℕ → KHttpHeaderManager
  | 0, m, _ => m
  | _ + 1, m, none => m
  | fuel + 1, m, some l =>
    let next := m.next l
    match it l with
    | .remove => iteratorLoop it fuel (m.unlink next) next
    | .free =>
      let m := m.unlink next
      iteratorLoop it fuel { m with freed := m.freed ++ [l] } next
    | .continue => iteratorLoop it fuel { m with last := some l } next

/-- `iterator`; a list is never longer than the number of headers. -/
def iterator (m : KHttpHeaderManager) (it : ℕ → KHttpHeaderIteratorResult) : KHttpHeaderManager :=
  iteratorLoop it (m.count + 1) { m with last := none } m.header

/-- The loop of `remove` from the header `l` on, with the header that it returns. -/
def removeLoop (headerTypeString : ℕ → Bytes) (attr : Bytes) :
    ℕ → KHttpHeaderManager → Option ℕ → KHttpHeaderManager × Option ℕ
  | 0, m, _ => (m, none)
  | _ + 1, m, none => (m, none)
  | fuel + 1, m, some l =>
    if (m.av l).isAttr headerTypeString attr then (m.unlink (m.next l), some l)
    else removeLoop headerTypeString attr fuel { m with last := some l } (m.next l)

/-- `remove`. -/
def remove (headerTypeString : ℕ → Bytes) (m : KHttpHeaderManager) (attr : Bytes) :
    KHttpHeaderManager × Option ℕ :=
  removeLoop headerTypeString attr (m.count + 1) { m with last := none } m.header

/-- `steal_header`. -/
def stealHeader (m : KHttpHeaderManager) : KHttpHeaderManager × Option ℕ :=
  ({ m with header := none, last := none }, m.header)

/-! ## Runs -/

/-- An operation on a manager. `insert` and `append` get a new header; `iterator` gets what its
callback answers for each header. -/
inductive Op
  | insert (av : KHttpHeader)
  | append (av : KHttpHeader)
  | iterator (it : ℕ → KHttpHeaderIteratorResult)
  | remove (attr : Bytes)
  | stealHeader

/-- What an operation leaves, and the header it returns. -/
def step (headerTypeString : ℕ → Bytes) (m : KHttpHeaderManager) :
    Op → Option (KHttpHeaderManager × Option ℕ)
  | .insert av => ((m.newHeader av).insert m.count).map fun m' => (m', some m.count)
  | .append av => some ((m.newHeader av).append m.count, some m.count)
  | .iterator it => some (m.iterator it, none)
  | .remove attr => some (m.remove headerTypeString attr)
  | .stealHeader => some m.stealHeader

/-- A series of operations, and the headers they return. -/
def run (headerTypeString : ℕ → Bytes) :
    KHttpHeaderManager → List Op → Option (KHttpHeaderManager × List (Option ℕ))
  | m, [] => some (m, [])
  | m, op :: ops =>
    (m.step headerTypeString op).bind fun r =>
      (run headerTypeString r.1 ops).map fun r' => (r'.1, r.2 :: r'.2)

end KHttpHeaderManager

end Khttpd
