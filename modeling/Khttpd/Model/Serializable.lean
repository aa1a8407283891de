import Khttpd.Model.Url

/-!
# Serializable trees

`kgl::serializable` and `kgl::data_value`: the calls that add values, and the text that `build`
writes in the format `json`. A map is the list of its entries in the order of their names.
-/

set_option autoImplicit false

namespace Khttpd

/-- `data_value`; a `serializable` is the list of entries of its `data`. -/
inductive DataValue
  | str (v : Bytes)
  | obj (data : List (Bytes × DataValue))
  | int (i : ℤ)
  | strArray (strs : List Bytes)
  | objArray (objs : List (List (Bytes × DataValue)))
  | intArray (ints : List ℤ)

/-- `serializable`. -/
abbrev Serializable := List (Bytes × DataValue)

/-! ## JSON -/

/-- `build_json_string` of one character. -/
def buildJsonChar (c : Byte) : Bytes :=
  if c = 13 then [92, 114]
  else if c = 10 then [92, 110]
  else if c = 9 then [92, 116]
  else if c = 92 ∨ c = 34 then [92, c]
  else [c]

/-- `build_json_string`. -/
def buildJsonString (v : Bytes) : Bytes := 34 :: v.flatMap buildJsonChar ++ [34]

/-- `operator<<(int64_t)`. -/
def intText (i : ℤ) : Bytes := (if i < 0 then [45] else []) ++ decimal i.natAbs

/-- Texts with `,` between them. -/
def commas (texts : List Bytes) : Bytes := [44].intercalate texts

mutual

/-- `data_value::build` in the format `json`, of a value whose name is written as it is. -/
def DataValue.build (name : Bytes) : DataValue → Bytes
  | .objArray objs => 34 :: name ++ [34, 58, 91] ++ commas (buildObjs objs) ++ [93]
  | .obj data => 34 :: name ++ [34, 58, 123] ++ commas (buildEntries data) ++ [125]
  | .strArray strs => 34 :: name ++ [34, 58, 91] ++ commas (strs.map buildJsonString) ++ [93]
  | .str v => 34 :: name ++ [34, 58] ++ buildJsonString v
  | .int i => 34 :: name ++ [34, 58] ++ intText i
  | .intArray ints => 34 :: name ++ [34, 58, 91] ++ commas (ints.map intText) ++ [93]

/-- The entries that `serializable::build` writes. -/
def buildEntries : List (Bytes × DataValue) → List Bytes
  | [] => []
  | (name, value) :: data => value.build name :: buildEntries data

/-- The objects of an array that `data_value::build` writes. -/
def buildObjs : List (List (Bytes × DataValue)) → List Bytes
  | [] => []
  | data :: objs => (123 :: commas (buildEntries data) ++ [125]) :: buildObjs objs

end

namespace Serializable

/-- `build` in the format `json`. -/
def build (s : Serializable) : Bytes := commas (buildEntries s)

/-! ## The map -/

/-- `data.find(name)`. -/
def find (name : Bytes) : Serializable → Option DataValue
  | [] => none
  | (key, value) :: data => if key = name then some value else find name data

/-- `data.emplace(name, value)` of a name that is not there. -/
def emplace (name : Bytes) (value : DataValue) : Serializable → Serializable
  | [] => [(name, value)]
  | (key, v) :: data =>
    if name < key then (name, value) :: (key, v) :: data
    else (key, v) :: emplace name value data

/-- The entry at `name` with this value. -/
def update (name : Bytes) (value : DataValue) : Serializable → Serializable
  | [] => []
  | (key, v) :: data =>
    if key = name then (key, value) :: data else (key, v) :: update name value data

/-! ## Adding -/

/-- `add(name, value)` of a string: the tree, and what it returns. -/
def addString (name value : Bytes) (s : Serializable) : Serializable × Bool :=
  match find name s with
  | none => (emplace name (.str value) s, true)
  | some (.str v) => (update name (.strArray [v, value]) s, true)
  | some (.strArray strs) => (update name (.strArray (strs ++ [value])) s, true)
  | some _ => (s, false)

/-- `add(name, value)` of an integer. -/
def addInt (name : Bytes) (value : ℤ) (s : Serializable) : Serializable × Bool :=
  match find name s with
  | none => (emplace name (.int value) s, true)
  | some (.int v) => (update name (.intArray [v, value]) s, true)
  | some (.intArray ints) => (update name (.intArray (ints ++ [value])) s, true)
  | some _ => (s, false)

/-- A pointer to a `serializable`: the object of an entry, or what stands at an index of its vector,
counted from `begin()`. -/
inductive Pointer
  | obj
  | element (index : ℤ)
  deriving DecidableEq, Repr

/-- `add(name)`. `rend()` of a vector is the place before its first element. -/
def addObj (name : Bytes) (s : Serializable) : Serializable × Option Pointer :=
  match find name s with
  | none => (emplace name (.obj []) s, some .obj)
  | some (.obj o) => (update name (.objArray [o, []]) s, some (.element (-1)))
  | some (.objArray objs) => (update name (.objArray (objs ++ [[]])) s, some (.element (-1)))
  | some _ => (s, none)

/-- `add_obj_array(name)`. -/
def addObjArray (name : Bytes) (s : Serializable) : Serializable × Option Pointer :=
  match find name s with
  | none => (emplace name (.objArray [[]]) s, some (.element 0))
  | some (.objArray objs) =>
    (update name (.objArray (objs ++ [[]])) s, some (.element objs.length))
  | some _ => (s, none)

/-- The tree after the object that `p` points to was written to; `none` where `p` points to no
object under `name`. -/
def write (name : Bytes) (p : Pointer) (f : Serializable → Serializable) (s : Serializable) :
    Option Serializable :=
  match find name s, p with
  | some (.obj o), .obj => some (update name (.obj (f o)) s)
  | some (.objArray objs), .element index =>
    if 0 ≤ index ∧ index < objs.length then
      some (update name (.objArray (objs.modify index.toNat f)) s)
    else none
  | _, _ => none

end Serializable

/-! ## Runs -/

/-- A call on a `serializable`. Through the pointer that a call returns, the caller sets the fields
of the object. -/
inductive AddCall
  | addString (name value : Bytes)
  | addInt (name : Bytes) (value : ℤ)
  | addObj (name : Bytes) (fields : Serializable → Serializable)
  | addObjArray (name : Bytes) (fields : Serializable → Serializable)

/-- A tree, whether the last call reported success, and whether every pointer was one to an object
of the name that it was asked for. -/
structure AddState where
  tree : Serializable
  added : Bool
  defined : Bool

namespace AddState

/-- The caller sets fields through the pointer that a call returned. -/
def setFields (s : AddState) (name : Bytes) (fields : Serializable → Serializable)
    (r : Serializable × Option Serializable.Pointer) : AddState :=
  match r.2 with
  | none => { s with tree := r.1, added := false }
  | some p =>
    match r.1.write name p fields with
    | some tree => { s with tree := tree, added := true }
    | none => ⟨r.1, true, false⟩

/-- A call. -/
def call (s : AddState) : AddCall → AddState
  | .addString name value =>
    let r := s.tree.addString name value
    { s with tree := r.1, added := r.2 }
  | .addInt name value =>
    let r := s.tree.addInt name value
    { s with tree := r.1, added := r.2 }
  | .addObj name fields => s.setFields name fields (s.tree.addObj name)
  | .addObjArray name fields => s.setFields name fields (s.tree.addObjArray name)

end AddState

end Khttpd
