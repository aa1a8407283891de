import Khttpd.Lib.Simulation
import Khttpd.Model.Serializable

/-!
# Values under repeated names

Whether a value or an array stands at a name, it stands for the list of the values added there. The
second object under a name is the exception: `add` returns what `rend` of the vector points to,
which is none of its objects, and `add_obj_array` refuses a name with one object of `add`.
-/

set_option autoImplicit false

namespace Khttpd

/-- The values added under a name. -/
inductive Values
  | strs (l : List Bytes)
  | ints (l : List ℤ)
  | objs (l : List Serializable)

/-- The values behind others of their kind. -/
def Values.append : Values → Values → Option Values
  | .strs l, .strs l' => some (.strs (l ++ l'))
  | .ints l, .ints l' => some (.ints (l ++ l'))
  | .objs l, .objs l' => some (.objs (l ++ l'))
  | _, _ => none

/-- What a `data_value` holds. -/
def DataValue.values : DataValue → Values
  | .str v => .strs [v]
  | .strArray strs => .strs strs
  | .int i => .ints [i]
  | .intArray ints => .ints ints
  | .obj data => .objs [data]
  | .objArray objs => .objs objs

/-- The values under every name, and whether the last call added one. -/
structure Additions where
  values : Bytes → Option Values
  added : Bool

/-- The name of a call, and the value that it adds. -/
def AddCall.adds : AddCall → Bytes × Values
  | .addString name value => (name, .strs [value])
  | .addInt name value => (name, .ints [value])
  | .addObj name fields => (name, .objs [fields []])
  | .addObjArray name fields => (name, .objs [fields []])

/-- A value comes behind the ones of its name, if it is of their kind. -/
def Additions.call (a : Additions) (c : AddCall) : Additions :=
  let new := match a.values c.adds.1 with
    | none => some c.adds.2
    | some values => values.append c.adds.2
  match new with
  | none => { a with added := false }
  | some new => ⟨Function.update a.values c.adds.1 (some new), true⟩

/-- A tree holds what was added. -/
structure Holds (s : AddState) (a : Additions) : Prop where
  values : ∀ name, (s.tree.find name).map DataValue.values = a.values name
  added : s.added = a.added
  defined : s.defined = true

/-- `add` of a second object, or `add_obj_array` of one behind an object of `add`. -/
def slips (s : AddState) : AddCall → Bool
  | .addObj name _ =>
    match s.tree.find name with
    | some (.obj _) | some (.objArray _) => true
    | _ => false
  | .addObjArray name _ =>
    match s.tree.find name with
    | some (.obj _) => true
    | _ => false
  | _ => false

/-! ## The map -/

namespace Serializable

theorem find_emplace {name : Bytes} {s : Serializable} (h : s.find name = none)
    (value : DataValue) (name' : Bytes) :
    (s.emplace name value).find name' = if name = name' then some value else s.find name' := by
  induction s with
  | nil => rfl
  | cons e s ih =>
    obtain ⟨key, v⟩ := e
    unfold find at h
    by_cases hkey : key = name
    · rw [if_pos hkey] at h
      cases h
    rw [if_neg hkey] at h
    unfold emplace
    by_cases hless : name < key
    · rw [if_pos hless]
      rfl
    · rw [if_neg hless]
      unfold find
      by_cases hkey' : key = name'
      · have hname : name ≠ name' := fun hname => hkey (hkey'.trans hname.symm)
        rw [if_pos hkey', if_neg hname, if_pos hkey']
      · rw [if_neg hkey', if_neg hkey']
        exact ih h

theorem find_update {name : Bytes} {s : Serializable} {old : DataValue}
    (h : s.find name = some old) (value : DataValue) (name' : Bytes) :
    (s.update name value).find name' = if name = name' then some value else s.find name' := by
  induction s with
  | nil => cases h
  | cons e s ih =>
    obtain ⟨key, v⟩ := e
    unfold find at h
    unfold update
    by_cases hkey : key = name
    · rw [if_pos hkey]
      subst hkey
      unfold find
      by_cases hname : key = name'
      · rw [if_pos hname, if_pos hname]
      · rw [if_neg hname, if_neg hname, if_neg hname]
    · rw [if_neg hkey] at h ⊢
      unfold find
      by_cases hkey' : key = name'
      · have hname : name ≠ name' := fun hname => hkey (hkey'.trans hname.symm)
        rw [if_pos hkey', if_neg hname, if_pos hkey']
      · rw [if_neg hkey', if_neg hkey']
        exact ih h

end Serializable

/-! ## One call -/

variable {s : AddState} {a : Additions} {c : AddCall} {t : Serializable} {value old : DataValue}

/-- A tree that has got these values at one name. -/
theorem holds_of_find (h : Holds s a) {name : Bytes}
    (ht : ∀ name', t.find name' = if name = name' then some value else s.tree.find name') :
    Holds ⟨t, true, s.defined⟩ ⟨Function.update a.values name (some value.values), true⟩ := by
  refine ⟨fun name' => ?_, rfl, h.defined⟩
  show (t.find name').map DataValue.values =
    Function.update a.values name (some value.values) name'
  rw [ht name']
  by_cases hname : name = name'
  · rw [if_pos hname, ← hname, Function.update_self, Option.map_some]
  · rw [if_neg hname, Function.update_of_ne (Ne.symm hname), h.values name']

/-- A first value comes under a name. -/
theorem Holds.first (h : Holds s a) (c : AddCall) (value : DataValue)
    (hfind : s.tree.find c.adds.1 = none) (hvalue : value.values = c.adds.2) (hcall : s.call c = ⟨t, true, s.defined⟩)
    (ht : ∀ name, t.find name = if c.adds.1 = name then some value else s.tree.find name) :
    Holds (s.call c) (a.call c) := by
  have hnone : a.values c.adds.1 = none := by
    rw [← h.values, hfind]
    rfl
  have hspec : a.call c = ⟨Function.update a.values c.adds.1 (some value.values), true⟩ := by
    unfold Additions.call
    rw [hnone, hvalue]
  rw [hcall, hspec]
  exact holds_of_find h ht

/-- A value comes behind others of its kind. -/
theorem Holds.more (h : Holds s a) (c : AddCall) (value : DataValue)
    (hfind : s.tree.find c.adds.1 = some old) (happend : old.values.append c.adds.2 = some value.values)
    (hcall : s.call c = ⟨t, true, s.defined⟩)
    (ht : ∀ name, t.find name = if c.adds.1 = name then some value else s.tree.find name) :
    Holds (s.call c) (a.call c) := by
  have hold : a.values c.adds.1 = some old.values := by
    rw [← h.values, hfind]
    rfl
  have hspec : a.call c = ⟨Function.update a.values c.adds.1 (some value.values), true⟩ := by
    unfold Additions.call
    rw [hold]
    dsimp only
    rw [happend]
  rw [hcall, hspec]
  exact holds_of_find h ht

/-- A value of another kind changes nothing. -/
theorem Holds.refused (h : Holds s a) (c : AddCall) (hfind : s.tree.find c.adds.1 = some old)
    (happend : old.values.append c.adds.2 = none) (hcall : s.call c = { s with added := false }) :
    Holds (s.call c) (a.call c) := by
  have hold : a.values c.adds.1 = some old.values := by
    rw [← h.values, hfind]
    rfl
  have hspec : a.call c = { a with added := false } := by
    unfold Additions.call
    rw [hold]
    dsimp only
    rw [happend]
  rw [hcall, hspec]
  exact ⟨h.values, rfl, h.defined⟩

open Serializable

theorem holds_addString (h : Holds s a) (name v : Bytes) :
    Holds (s.call (.addString name v)) (a.call (.addString name v)) := by
  cases hfind : s.tree.find name with
  | none =>
    refine h.first (.addString name v) (.str v) hfind rfl ?_ (find_emplace hfind _)
    simp only [AddState.call, addString, hfind]
  | some old =>
    cases old with
    | str v' =>
      refine h.more (.addString name v) (.strArray [v', v]) hfind rfl ?_ (find_update hfind _)
      simp only [AddState.call, addString, hfind]
    | strArray strs =>
      refine h.more (.addString name v) (.strArray (strs ++ [v])) hfind rfl ?_
        (find_update hfind _)
      simp only [AddState.call, addString, hfind]
    | obj data =>
      refine h.refused (.addString name v) hfind rfl ?_
      simp only [AddState.call, addString, hfind]
    | int i =>
      refine h.refused (.addString name v) hfind rfl ?_
      simp only [AddState.call, addString, hfind]
    | objArray objs =>
      refine h.refused (.addString name v) hfind rfl ?_
      simp only [AddState.call, addString, hfind]
    | intArray ints =>
      refine h.refused (.addString name v) hfind rfl ?_
      simp only [AddState.call, addString, hfind]

theorem holds_addInt (h : Holds s a) (name : Bytes) (i : ℤ) :
    Holds (s.call (.addInt name i)) (a.call (.addInt name i)) := by
  cases hfind : s.tree.find name with
  | none =>
    refine h.first (.addInt name i) (.int i) hfind rfl ?_ (find_emplace hfind _)
    simp only [AddState.call, addInt, hfind]
  | some old =>
    cases old with
    | int i' =>
      refine h.more (.addInt name i) (.intArray [i', i]) hfind rfl ?_ (find_update hfind _)
      simp only [AddState.call, addInt, hfind]
    | intArray ints =>
      refine h.more (.addInt name i) (.intArray (ints ++ [i])) hfind rfl ?_ (find_update hfind _)
      simp only [AddState.call, addInt, hfind]
    | str v =>
      refine h.refused (.addInt name i) hfind rfl ?_
      simp only [AddState.call, addInt, hfind]
    | strArray strs =>
      refine h.refused (.addInt name i) hfind rfl ?_
      simp only [AddState.call, addInt, hfind]
    | obj data =>
      refine h.refused (.addInt name i) hfind rfl ?_
      simp only [AddState.call, addInt, hfind]
    | objArray objs =>
      refine h.refused (.addInt name i) hfind rfl ?_
      simp only [AddState.call, addInt, hfind]

/-! ## Pointers -/

/-- Fields set through a pointer come into the object that it points to. -/
theorem setFields_write {name : Bytes} {fields : Serializable → Serializable} {tree : Serializable}
    {p : Pointer} (h : t.write name p fields = some tree) :
    s.setFields name fields (t, some p) = ⟨tree, true, s.defined⟩ := by
  unfold AddState.setFields
  dsimp only
  rw [h]

theorem setFields_undefined {name : Bytes} {fields : Serializable → Serializable} {p : Pointer}
    (h : t.write name p fields = none) :
    s.setFields name fields (t, some p) = ⟨t, true, false⟩ := by
  unfold AddState.setFields
  dsimp only
  rw [h]

/-- The entry at `name` has this value. -/
theorem find_self {name : Bytes}
    (ht : ∀ name', t.find name' = if name = name' then some value else s.tree.find name') :
    t.find name = some value := by
  rw [ht name, if_pos rfl]

/-- A value is put where another one was put before. -/
theorem find_update_twice {name : Bytes} {value' : DataValue}
    (ht : ∀ name', t.find name' = if name = name' then some value else s.tree.find name')
    (name' : Bytes) :
    (t.update name value').find name' = if name = name' then some value' else s.tree.find name' := by
  rw [find_update (find_self ht), ht]
  split
  · rfl
  · rfl

/-- The place before a vector holds no object. -/
theorem write_rend {name : Bytes} {fields : Serializable → Serializable} {objs : List Serializable}
    (ht : t.find name = some (.objArray objs)) : t.write name (.element (-1)) fields = none := by
  unfold write
  rw [ht]
  rfl

theorem not_holds_of_undefined (t : Serializable) (h : s.call c = ⟨t, true, false⟩) : ¬Holds (s.call c) a := by
  intro hholds
  have hdefined := hholds.defined
  rw [h] at hdefined
  cases hdefined

theorem holds_addObj (h : Holds s a) (name : Bytes) (fields : Serializable → Serializable) :
    Holds (s.call (.addObj name fields)) (a.call (.addObj name fields)) ↔
      slips s (.addObj name fields) = false := by
  cases hfind : s.tree.find name with
  | none =>
    refine iff_of_true ?_ (by simp only [slips, hfind])
    have hnew := find_emplace hfind (.obj [])
    have hwrite : (s.tree.emplace name (.obj [])).write name .obj fields =
        some ((s.tree.emplace name (.obj [])).update name (.obj (fields []))) := by
      unfold write
      rw [find_self hnew]
    refine h.first (.addObj name fields) (.obj (fields [])) hfind rfl ?_ (find_update_twice hnew)
    simp only [AddState.call, addObj, hfind]
    exact setFields_write hwrite
  | some old =>
    cases old with
    | obj data =>
      refine iff_of_false (not_holds_of_undefined (s.tree.update name (.objArray [data, []])) ?_)
        (by simp [slips, hfind])
      simp only [AddState.call, addObj, hfind]
      exact setFields_undefined (write_rend (find_self (find_update hfind _)))
    | objArray objs =>
      refine iff_of_false
        (not_holds_of_undefined (s.tree.update name (.objArray (objs ++ [[]]))) ?_)
        (by simp [slips, hfind])
      simp only [AddState.call, addObj, hfind]
      exact setFields_undefined (write_rend (find_self (find_update hfind _)))
    | str v =>
      refine iff_of_true (h.refused (.addObj name fields) hfind rfl ?_) (by simp only [slips, hfind])
      simp only [AddState.call, addObj, hfind, AddState.setFields]
    | strArray strs =>
      refine iff_of_true (h.refused (.addObj name fields) hfind rfl ?_) (by simp only [slips, hfind])
      simp only [AddState.call, addObj, hfind, AddState.setFields]
    | int i =>
      refine iff_of_true (h.refused (.addObj name fields) hfind rfl ?_) (by simp only [slips, hfind])
      simp only [AddState.call, addObj, hfind, AddState.setFields]
    | intArray ints =>
      refine iff_of_true (h.refused (.addObj name fields) hfind rfl ?_) (by simp only [slips, hfind])
      simp only [AddState.call, addObj, hfind, AddState.setFields]

/-- The pointer to the last object of a vector. -/
theorem write_last {name : Bytes} {fields : Serializable → Serializable}
    {objs : List Serializable} (ht : t.find name = some (.objArray (objs ++ [[]]))) :
    t.write name (.element objs.length) fields =
      some (t.update name (.objArray (objs ++ [fields []]))) := by
  have hrange : (0 : ℤ) ≤ objs.length ∧ (objs.length : ℤ) < (objs ++ [[]]).length := by
    rw [List.length_append, List.length_singleton]
    omega
  have hmodify : (objs ++ [[]]).modify objs.length fields = objs ++ [fields []] := by
    rw [List.modify_eq_take_cons_drop (by simp)]
    simp
  unfold write
  rw [ht]
  dsimp only
  rw [if_pos hrange, Int.toNat_natCast, hmodify]

theorem holds_addObjArray (h : Holds s a) (name : Bytes) (fields : Serializable → Serializable) :
    Holds (s.call (.addObjArray name fields)) (a.call (.addObjArray name fields)) ↔
      slips s (.addObjArray name fields) = false := by
  cases hfind : s.tree.find name with
  | none =>
    refine iff_of_true ?_ (by simp only [slips, hfind])
    have hnew := find_emplace hfind (.objArray ([] ++ [[]]))
    have hwrite := @write_last _ _ fields [] (find_self hnew)
    refine h.first (.addObjArray name fields) (.objArray ([] ++ [fields []])) hfind rfl ?_
      (find_update_twice hnew)
    simp only [AddState.call, addObjArray, hfind]
    exact setFields_write hwrite
  | some old =>
    cases old with
    | objArray objs =>
      refine iff_of_true ?_ (by simp only [slips, hfind])
      have hnew := find_update hfind (.objArray (objs ++ [[]]))
      refine h.more (.addObjArray name fields) (.objArray (objs ++ [fields []])) hfind rfl ?_
        (find_update_twice hnew)
      simp only [AddState.call, addObjArray, hfind]
      exact setFields_write (write_last (find_self hnew))
    | obj data =>
      refine iff_of_false (fun hholds => ?_) (by simp [slips, hfind])
      have hadded := hholds.added
      have hold : a.values name = some (.objs [data]) := by
        rw [← h.values, hfind]
        rfl
      simp only [AddState.call, addObjArray, hfind, AddState.setFields, Additions.call,
        AddCall.adds, hold, Values.append] at hadded
      cases hadded
    | str v =>
      refine iff_of_true (h.refused (.addObjArray name fields) hfind rfl ?_) (by simp only [slips, hfind])
      simp only [AddState.call, addObjArray, hfind, AddState.setFields]
    | strArray strs =>
      refine iff_of_true (h.refused (.addObjArray name fields) hfind rfl ?_) (by simp only [slips, hfind])
      simp only [AddState.call, addObjArray, hfind, AddState.setFields]
    | int i =>
      refine iff_of_true (h.refused (.addObjArray name fields) hfind rfl ?_) (by simp only [slips, hfind])
      simp only [AddState.call, addObjArray, hfind, AddState.setFields]
    | intArray ints =>
      refine iff_of_true (h.refused (.addObjArray name fields) hfind rfl ?_) (by simp only [slips, hfind])
      simp only [AddState.call, addObjArray, hfind, AddState.setFields]

/-! ## Runs -/

/-- The tree holds what was added, before and after every call of a sequence, exactly when none of
them is an `add` of a second object or an `add_obj_array` behind an object of `add`. -/
theorem holds_calls (calls : List AddCall) :
    Simulation.Tracks AddState.call Additions.call Holds ⟨[], false, true⟩
        ⟨fun _ => none, false⟩ calls ↔
      Simulation.Avoids AddState.call (fun s c => slips s c = true) ⟨[], false, true⟩ calls := by
  have hlegal : ∀ (a : Additions) calls,
      Simulation.Allowed Additions.call (fun _ _ => True) a calls := by
    intro a calls
    induction calls generalizing a with
    | nil => trivial
    | cons c calls ih => exact ⟨trivial, ih _⟩
  refine Simulation.tracks_iff_avoids (fun s a c h _ => ?_) ⟨fun _ => rfl, rfl, rfl⟩
    (hlegal _ calls)
  rw [Bool.not_eq_true]
  cases c with
  | addString name v => exact iff_of_true (holds_addString h name v) rfl
  | addInt name i => exact iff_of_true (holds_addInt h name i) rfl
  | addObj name fields => exact holds_addObj h name fields
  | addObjArray name fields => exact holds_addObjArray h name fields

/-- A second object under a name. -/
theorem holds_calls_wrong :
    ¬Simulation.Tracks AddState.call Additions.call Holds ⟨[], false, true⟩
        ⟨fun _ => none, false⟩ [.addObj [97] id, .addObj [97] id] := by
  intro h
  have hdefined := (h _ List.prefix_rfl).defined
  cases hdefined

end Khttpd
