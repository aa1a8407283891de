import Khttpd.Lib.Json
import Khttpd.Model.Serializable

/-!
# The text of a tree

Names are written as they are, and `build_json_string` lets the control characters through that it
has no case for. Every other tree comes back from its text. Such a text is too short for its tree:
none of that weight denotes it.
-/

set_option autoImplicit false

namespace Khttpd

open Json

/-! ## Trees as values -/

mutual

/-- The value that a `data_value` stands for. -/
def DataValue.toJson : DataValue → Value
  | .str v => .string v
  | .obj data => .object (entriesJson data)
  | .int i => .number i
  | .strArray strs => .array (strs.map .string)
  | .objArray objs => .array (objsJson objs)
  | .intArray ints => .array (ints.map fun i : ℤ => .number i)

/-- The members that entries stand for. -/
def entriesJson : List (Bytes × DataValue) → List (Bytes × Value)
  | [] => []
  | (name, value) :: data => (name, value.toJson) :: entriesJson data

/-- The objects that an array stands for. -/
def objsJson : List (List (Bytes × DataValue)) → List Value
  | [] => []
  | data :: objs => .object (entriesJson data) :: objsJson objs

end

/-- A name without quotes, backslashes and control characters. -/
def plainName (name : Bytes) : Bool := name.all fun c => !isSpecial c

/-- A character that `build_json_string` writes as JSON. -/
def plainChar (c : Byte) : Bool := 32 ≤ c || c == 13 || c == 10 || c == 9

/-- A string whose control characters are `\r`, `\n` and `\t`. -/
def plainString (v : Bytes) : Bool := v.all plainChar

mutual

/-- All names and strings in a value are plain. -/
def DataValue.Plain : DataValue → Prop
  | .str v => plainString v = true
  | .obj data => PlainEntries data
  | .int _ => True
  | .strArray strs => ∀ v ∈ strs, plainString v = true
  | .objArray objs => PlainObjs objs
  | .intArray _ => True

@[inherit_doc DataValue.Plain]
def PlainEntries : List (Bytes × DataValue) → Prop
  | [] => True
  | (name, value) :: data => plainName name = true ∧ value.Plain ∧ PlainEntries data

@[inherit_doc DataValue.Plain]
def PlainObjs : List (List (Bytes × DataValue)) → Prop
  | [] => True
  | data :: objs => PlainEntries data ∧ PlainObjs objs

end

/-- What `data_value::build` writes behind the name. -/
def DataValue.text : DataValue → Bytes
  | .objArray objs => 91 :: commas (buildObjs objs) ++ [93]
  | .obj data => 123 :: commas (buildEntries data) ++ [125]
  | .strArray strs => 91 :: commas (strs.map buildJsonString) ++ [93]
  | .str v => buildJsonString v
  | .int i => intText i
  | .intArray ints => 91 :: commas (ints.map intText) ++ [93]

theorem DataValue.build_eq (name : Bytes) (value : DataValue) :
    value.build name = 34 :: name ++ 34 :: 58 :: value.text := by
  cases value with
  | str v => simp [DataValue.build, DataValue.text]
  | obj data => simp [DataValue.build, DataValue.text]
  | int i => simp [DataValue.build, DataValue.text]
  | strArray strs => simp [DataValue.build, DataValue.text]
  | objArray objs => simp [DataValue.build, DataValue.text]
  | intArray ints => simp [DataValue.build, DataValue.text]

/-! ## Numbers -/

theorem digitChar_spec : ∀ n < 10, UInt8.ofNat n.digitChar.toNat = UInt8.ofNat (48 + n) := by
  decide

theorem decimal_of_lt {n : ℕ} (h : n < 10) : decimal n = [UInt8.ofNat (48 + n)] := by
  unfold decimal
  rw [Nat.toDigits_of_lt_base h, List.map_cons, List.map_nil, digitChar_spec n h]

theorem decimal_of_ge {n : ℕ} (h : 10 ≤ n) :
    decimal n = decimal (n / 10) ++ [UInt8.ofNat (48 + n % 10)] := by
  have hlast := decimal_of_lt (Nat.mod_lt n (by decide : 0 < 10))
  unfold decimal at hlast ⊢
  rw [Nat.toDigits_of_base_le (by decide) h, List.map_append, ← hlast,
    Nat.toDigits_of_lt_base (Nat.mod_lt n (by decide))]

theorem digit_spec : ∀ n < 10, isDigit (UInt8.ofNat (48 + n)) = true ∧
    Json.isDigit (UInt8.ofNat (48 + n)) = true ∧ (UInt8.ofNat (48 + n)).toNat - 48 = n ∧
    (UInt8.ofNat (48 + n) = 48 → n = 0) := by
  decide

theorem decimal_spec (n : ℕ) :
    IsDigits (decimal n) ∧ digitsValue (decimal n) = n ∧
      (0 < n → (decimal n).head? ≠ some 48) := by
  induction n using Nat.strong_induction_on with
  | _ n ih =>
    rcases Nat.lt_or_ge n 10 with h | h
    · obtain ⟨-, hdigit, hvalue, hzero⟩ := digit_spec n h
      rw [decimal_of_lt h]
      refine ⟨⟨List.cons_ne_nil _ _, ?_⟩, ?_, ?_⟩
      · rw [List.all_cons, hdigit, List.all_nil, Bool.and_true]
      · rw [digitsValue, List.foldl_cons, List.foldl_nil, hvalue, Nat.mul_zero, Nat.zero_add]
      · intro hpos hhead
        have := hzero (Option.some.inj hhead)
        omega
    · obtain ⟨⟨hne, hall⟩, hvalue, hhead⟩ := ih (n / 10) (by omega)
      obtain ⟨-, hdigit, hlast, -⟩ := digit_spec (n % 10) (Nat.mod_lt n (by decide))
      rw [decimal_of_ge h]
      refine ⟨⟨by simp, ?_⟩, ?_, fun _ => ?_⟩
      · rw [List.all_append, hall, List.all_cons, hdigit, List.all_nil, Bool.and_true,
          Bool.and_true]
      · unfold digitsValue at hvalue ⊢
        rw [List.foldl_append, hvalue, List.foldl_cons, List.foldl_nil, hlast]
        omega
      · rw [List.head?_append_of_ne_nil _ hne]
        exact hhead (by omega)

theorem isWhole_decimal (n : ℕ) : IsWhole (decimal n) := by
  obtain ⟨hdigits, -, hhead⟩ := decimal_spec n
  refine ⟨hdigits, ?_⟩
  rcases Nat.eq_zero_or_pos n with rfl | hpos
  · exact .inl rfl
  · exact .inr (hhead hpos)

/-- An integer is written as the number that it is. -/
theorem numberText_intText (i : ℤ) : NumberText (intText i) i := by
  have hvalue := (decimal_spec i.natAbs).2.1
  have h := NumberText.mk (decide (i < 0)) (isWhole_decimal i.natAbs) FracText.none ExpText.none
  rw [List.append_nil, List.append_nil, List.append_nil, hvalue] at h
  unfold intText
  have hcast : ((i.natAbs : ℕ) : ℚ) = ((i.natAbs : ℤ) : ℚ) := rfl
  rw [hcast] at h
  by_cases hneg : i < 0
  · have habs : (i.natAbs : ℤ) = -i := by omega
    rw [habs] at h
    simpa [hneg] using h
  · have habs : (i.natAbs : ℤ) = i := by omega
    rw [habs] at h
    simpa [hneg] using h

/-! ## Strings -/

theorem stringText_plain {name : Bytes} (h : plainName name = true) : StringText name name := by
  induction name with
  | nil => exact .nil
  | cons c name ih =>
    rw [plainName, List.all_cons, Bool.and_eq_true] at h
    have hc := h.1
    simp only [isSpecial, Bool.not_eq_true', Bool.or_eq_false_iff, decide_eq_false_iff_not,
      beq_eq_false_iff_ne] at hc
    have hchar : CharText [c] [c] := .plain (UInt8.not_lt.mp hc.1.1) hc.1.2 hc.2
    exact .cons hchar (ih h.2)

theorem charText_build {c : Byte} (h : plainChar c = true) : CharText (buildJsonChar c) [c] := by
  unfold buildJsonChar
  split_ifs with hcr hlf htab hslash
  · rw [hcr]
    exact .escape (by decide)
  · rw [hlf]
    exact .escape (by decide)
  · rw [htab]
    exact .escape (by decide)
  · rcases hslash with rfl | rfl
    · exact .escape (by decide)
    · exact .escape (by decide)
  · simp only [plainChar, Bool.or_eq_true, decide_eq_true_eq, beq_iff_eq] at h
    rw [not_or] at hslash
    have hcontrol : 32 ≤ c := by
      rcases h with ((h | h) | h) | h
      · exact h
      · exact absurd h hcr
      · exact absurd h hlf
      · exact absurd h htab
    exact .plain hcontrol hslash.2 hslash.1

theorem stringText_build {v : Bytes} (h : plainString v = true) :
    StringText (v.flatMap buildJsonChar) v := by
  induction v with
  | nil => exact .nil
  | cons c v ih =>
    rw [plainString, List.all_cons, Bool.and_eq_true] at h
    rw [List.flatMap_cons]
    exact .cons (charText_build h.1) (ih h.2)

theorem text_buildJsonString {v : Bytes} (h : plainString v = true) :
    Text (buildJsonString v) (.string v) := .string (stringText_build h)

/-! ## Plain trees -/

/-- An item without white space around it. -/
def bareItem (text : Bytes) (value : Value) : Item := ⟨[], text, [], value, rfl, rfl⟩

theorem bareItem_full (text : Bytes) (value : Value) : (bareItem text value).full = text := by
  simp [bareItem, Item.full]

/-- Items without white space between them. -/
theorem text_array {α : Type} (text : α → Bytes) (value : α → Value) (l : List α)
    (h : ∀ x ∈ l, Text (text x) (value x)) :
    Text (91 :: commas (l.map text) ++ [93]) (.array (l.map value)) := by
  by_cases hnil : l = []
  · subst hnil
    have hempty : ([] : Bytes).all isWs = true := rfl
    exact .emptyArray hempty
  · have hfull : (l.map fun x => bareItem (text x) (value x)).map Item.full = l.map text := by
      rw [List.map_map]
      exact List.map_congr_left fun x _ => bareItem_full _ _
    have hvalue : (l.map fun x => bareItem (text x) (value x)).map Item.value = l.map value := by
      rw [List.map_map]
      exact List.map_congr_left fun x _ => rfl
    have hne : (l.map fun x => bareItem (text x) (value x)) ≠ [] := by simpa using hnil
    have harray := Text.array hne (by simpa [bareItem] using h)
    rw [hfull, hvalue] at harray
    exact harray

theorem buildEntries_eq (data : Serializable) :
    buildEntries data = data.map fun e => e.2.build e.1 := by
  induction data with
  | nil => rfl
  | cons e data ih =>
    obtain ⟨name, value⟩ := e
    rw [buildEntries, ih, List.map_cons]

theorem entriesJson_eq (data : Serializable) :
    entriesJson data = data.map fun e => (e.1, e.2.toJson) := by
  induction data with
  | nil => rfl
  | cons e data ih =>
    obtain ⟨name, value⟩ := e
    rw [entriesJson, ih, List.map_cons]

theorem plainEntries_iff (data : Serializable) :
    PlainEntries data ↔ ∀ e ∈ data, plainName e.1 = true ∧ e.2.Plain := by
  induction data with
  | nil => simp [PlainEntries]
  | cons e data ih =>
    obtain ⟨name, value⟩ := e
    rw [PlainEntries, ih, List.forall_mem_cons, and_assoc]

theorem buildObjs_eq (objs : List Serializable) :
    buildObjs objs = objs.map fun data => 123 :: commas (buildEntries data) ++ [125] := by
  induction objs with
  | nil => rfl
  | cons data objs ih => rw [buildObjs, ih, List.map_cons]

theorem objsJson_eq (objs : List Serializable) :
    objsJson objs = objs.map fun data => .object (entriesJson data) := by
  induction objs with
  | nil => rfl
  | cons data objs ih => rw [objsJson, ih, List.map_cons]

theorem plainObjs_iff (objs : List Serializable) :
    PlainObjs objs ↔ ∀ data ∈ objs, PlainEntries data := by
  induction objs with
  | nil => simp [PlainObjs]
  | cons data objs ih => rw [PlainObjs, ih, List.forall_mem_cons]

/-- The members of plain entries whose values have texts. -/
theorem exists_members {data : Serializable} (hplain : ∀ e ∈ data, plainName e.1 = true)
    (h : ∀ e ∈ data, Text e.2.text e.2.toJson) :
    ∃ members : List Member, members.map Member.full = buildEntries data ∧
      members.map (fun m => (m.key, m.item.value)) = entriesJson data ∧
      ∀ m ∈ members, Text m.item.text m.item.value := by
  induction data with
  | nil => exact ⟨[], rfl, rfl, fun m hm => absurd hm List.not_mem_nil⟩
  | cons e data ih =>
    obtain ⟨name, value⟩ := e
    rw [List.forall_mem_cons] at hplain h
    obtain ⟨members, hfull, hmembers, htext⟩ := ih hplain.2 h.2
    let member : Member :=
      ⟨[], name, [], name, bareItem value.text value.toJson, stringText_plain hplain.1, rfl, rfl⟩
    refine ⟨member :: members, ?_, ?_, List.forall_mem_cons.mpr ⟨h.1, htext⟩⟩
    · rw [List.map_cons, hfull, buildEntries, DataValue.build_eq]
      simp [member, Member.full, bareItem_full]
    · rw [List.map_cons, hmembers]
      rfl

/-- The object of entries whose values have texts. -/
theorem text_object {data : Serializable} (hplain : ∀ e ∈ data, plainName e.1 = true)
    (h : ∀ e ∈ data, Text e.2.text e.2.toJson) :
    Text (123 :: commas (buildEntries data) ++ [125]) (.object (entriesJson data)) := by
  obtain ⟨members, hfull, hmembers, htext⟩ := exists_members hplain h
  by_cases hnil : data = []
  · subst hnil
    have hempty : ([] : Bytes).all isWs = true := rfl
    exact .emptyObject hempty
  · have hne : members ≠ [] := by
      rintro rfl
      cases data with
      | nil => exact hnil rfl
      | cons e data => cases hfull
    have hobject := Text.object hne htext (List.Perm.of_eq hmembers)
    rw [hfull] at hobject
    exact hobject

mutual

/-- A plain value is written as what it is. -/
theorem DataValue.text_toJson : (value : DataValue) → value.Plain → Text value.text value.toJson
  | .str v, h => text_buildJsonString h
  | .obj data, h => text_entries data h
  | .int i, _ => .number (numberText_intText i)
  | .strArray strs, h => text_array _ _ strs fun v hv => text_buildJsonString (h v hv)
  | .objArray objs, h => by
    rw [DataValue.text, DataValue.toJson, buildObjs_eq, objsJson_eq]
    exact text_array _ _ objs (text_objs objs h)
  | .intArray ints, _ => by
    rw [DataValue.text, DataValue.toJson]
    exact text_array _ _ ints fun i _ => .number (numberText_intText i)

theorem text_entries : (data : List (Bytes × DataValue)) → PlainEntries data →
    Text (123 :: commas (buildEntries data) ++ [125]) (.object (entriesJson data)) := by
  intro data h
  exact text_object (fun e he => ((plainEntries_iff data).mp h e he).1) (text_values data h)

theorem text_values : (data : List (Bytes × DataValue)) → PlainEntries data →
    ∀ e ∈ data, Text e.2.text e.2.toJson
  | [], _ => fun e he => absurd he List.not_mem_nil
  | (name, value) :: data, h => List.forall_mem_cons.mpr
    ⟨value.text_toJson h.2.1, text_values data h.2.2⟩

theorem text_objs : (objs : List (List (Bytes × DataValue))) → PlainObjs objs →
    ∀ data ∈ objs, Text (123 :: commas (buildEntries data) ++ [125]) (.object (entriesJson data))
  | [], _ => fun e he => absurd he List.not_mem_nil
  | data :: objs, h => List.forall_mem_cons.mpr ⟨text_entries data h.1, text_objs objs h.2⟩

end

/-! ## Other trees -/

/-- A text of weight `w` is no heavier than `n`, and as heavy only where `p` holds. -/
def Light (w n : ℕ) (p : Prop) : Prop := w ≤ n ∧ (w = n → p)

theorem Light.add {w n w' n' : ℕ} {p p' : Prop} (h : Light w n p) (h' : Light w' n' p') :
    Light (w + w') (n + n') (p ∧ p') := by
  have hle := h.1
  have hle' := h'.1
  refine ⟨by omega, fun heq => ⟨h.2 (by omega), h'.2 (by omega)⟩⟩

theorem Light.mono {w n : ℕ} {p q : Prop} (h : Light w n p) (hpq : p → q) : Light w n q :=
  ⟨h.1, fun heq => hpq (h.2 heq)⟩

theorem Light.addConst {w n : ℕ} {p : Prop} (h : Light w n p) (k : ℕ) : Light (w + k) (n + k) p :=
  ⟨Nat.add_le_add_right h.1 k, fun heq => h.2 (Nat.add_right_cancel heq)⟩

theorem char_spec : ∀ n < 256, Light (weights (buildJsonChar (UInt8.ofNat n)))
      (leastByte (UInt8.ofNat n)) (plainChar (UInt8.ofNat n) = true) ∧
    Light (weight (UInt8.ofNat n)) (leastByte (UInt8.ofNat n))
      ((!isSpecial (UInt8.ofNat n)) = true) := by
  unfold Light
  decide +kernel

theorem light_char (c : Byte) :
    Light (weights (buildJsonChar c)) (leastByte c) (plainChar c = true) ∧
      Light (weight c) (leastByte c) ((!isSpecial c) = true) := by
  have hc := char_spec c.toNat c.toNat_lt
  rwa [UInt8.ofNat_toNat] at hc

theorem light_name (name : Bytes) :
    Light (weights name) (leastBytes name) (plainName name = true) := by
  induction name with
  | nil => exact ⟨le_rfl, fun _ => rfl⟩
  | cons c name ih =>
    rw [weights_cons, leastBytes_cons]
    refine ((light_char c).2.add ih).mono fun h => ?_
    rw [plainName, List.all_cons, h.1]
    exact h.2

theorem light_string (v : Bytes) :
    Light (weights (buildJsonString v)) (Value.string v).least (plainString v = true) := by
  have hchars : Light (weights (v.flatMap buildJsonChar)) (leastBytes v)
      (plainString v = true) := by
    induction v with
    | nil => exact ⟨le_rfl, fun _ => rfl⟩
    | cons c v ih =>
      rw [List.flatMap_cons, weights_append, leastBytes_cons]
      refine ((light_char c).1.add ih).mono fun h => ?_
      rw [plainString, List.all_cons, h.1]
      exact h.2
  have hquote : weight 34 = 1 := rfl
  have hweight : weights (buildJsonString v) = weights (v.flatMap buildJsonChar) + 2 := by
    simp only [buildJsonString, weights_cons, weights_append, weights_nil, List.cons_append, hquote]
    omega
  rw [hweight, Value.least, Nat.add_comm 2]
  exact hchars.addConst 2

theorem weights_commas (ts : List Bytes) :
    weights (commas ts) = (ts.map fun t => weights t + 1).sum - 1 := by
  by_cases hnil : ts = []
  · subst hnil
    rfl
  · have h := weights_intercalate ts hnil
    unfold commas
    omega

/-- Brackets around what has a comma behind each part. -/
theorem Light.bracket {ts : List Bytes} {n : ℕ} {p : Prop}
    (h : Light (ts.map fun t => weights t + 1).sum n p) (hnil : ts = [] → n = 0)
    {front back : Byte} (hfront : weight front = 1) (hback : weight back = 1) :
    Light (weights (front :: commas ts ++ [back])) (2 + (n - 1)) p := by
  have hweight : weights (front :: commas ts ++ [back]) =
      2 + ((ts.map fun t => weights t + 1).sum - 1) := by
    simp only [List.cons_append, weights_cons, weights_append, weights_nil, hfront, hback,
      weights_commas]
    omega
  have hpos : 1 ≤ (ts.map fun t => weights t + 1).sum ∨ n = 0 := by
    cases ts with
    | nil => exact .inr (hnil rfl)
    | cons t ts =>
      rw [List.map_cons, List.sum_cons]
      exact .inl (by omega)
  have hle := h.1
  rw [hweight]
  exact ⟨by omega, fun heq => h.2 (by omega)⟩

theorem light_array {α : Type} {text : α → Bytes} {value : α → Value} {p : α → Prop} (l : List α)
    (h : ∀ x ∈ l, Light (weights (text x)) (value x).least (p x)) :
    Light (weights (91 :: commas (l.map text) ++ [93])) (Value.array (l.map value)).least
      (∀ x ∈ l, p x) := by
  have hsum : Light ((l.map text).map fun t => weights t + 1).sum (leastItems (l.map value))
      (∀ x ∈ l, p x) := by
    induction l with
    | nil => exact ⟨le_rfl, fun _ x hx => absurd hx List.not_mem_nil⟩
    | cons x l ih =>
      rw [List.forall_mem_cons] at h
      simp only [List.map_cons, List.sum_cons, leastItems]
      exact ((h.1.addConst 1).add (ih h.2)).mono List.forall_mem_cons.mpr
  refine hsum.bracket (fun hnil => ?_) rfl rfl
  rw [List.map_eq_nil_iff.mp hnil]
  rfl

theorem light_object {data : Serializable}
    (h : ∀ e ∈ data, Light (weights e.2.text) e.2.toJson.least e.2.Plain) :
    Light (weights (123 :: commas (buildEntries data) ++ [125]))
      (Value.object (entriesJson data)).least (PlainEntries data) := by
  have hquote : weight 34 = 1 := rfl
  have hcolon : weight 58 = 1 := rfl
  have hsum : Light ((buildEntries data).map fun t => weights t + 1).sum
      (leastMembers (entriesJson data)) (PlainEntries data) := by
    induction data with
    | nil => exact ⟨le_rfl, fun _ => trivial⟩
    | cons e data ih =>
      obtain ⟨name, value⟩ := e
      rw [List.forall_mem_cons] at h
      have hone := ((light_name name).add h.1).addConst 4
      have hweight : weights (value.build name) + 1 = weights name + weights value.text + 4 := by
        simp only [DataValue.build_eq, weights_cons, weights_append, List.cons_append, hquote,
          hcolon]
        omega
      have hleast : 3 + leastBytes name + value.toJson.least + 1 =
          leastBytes name + value.toJson.least + 4 := by omega
      simp only [buildEntries, List.map_cons, List.sum_cons, entriesJson, leastMembers, hweight,
        hleast]
      exact (hone.add (ih h.2)).mono fun hplain => ⟨hplain.1.1, hplain.1.2, hplain.2⟩
  refine hsum.bracket (fun hnil => ?_) rfl rfl
  cases data with
  | nil => rfl
  | cons e data => cases hnil

theorem weights_intText (i : ℤ) : weights (intText i) = 0 := by
  have hdigits : ∀ t : Bytes, t.all Json.isDigit = true → weights t = 0 := by
    intro t ht
    refine List.sum_eq_zero fun n hn => ?_
    obtain ⟨c, hc, rfl⟩ := List.mem_map.mp hn
    exact if_pos (.inr (.inl (List.all_eq_true.mp ht c hc)))
  have hdecimal := hdigits _ (decimal_spec i.natAbs).1.2
  unfold intText
  rw [weights_append, hdecimal]
  split
  · rfl
  · rfl

theorem light_int (i : ℤ) : Light (weights (intText i)) (Value.number i).least True := by
  rw [weights_intText]
  exact ⟨Nat.zero_le _, fun _ => trivial⟩

mutual

/-- No value is written with more weight than its texts have, and with as much only if it is
plain. -/
theorem DataValue.light : (value : DataValue) →
    Light (weights value.text) value.toJson.least value.Plain
  | .str v => light_string v
  | .obj data => light_object (light_values data)
  | .int i => light_int i
  | .strArray strs => light_array strs fun v _ => light_string v
  | .objArray objs => by
    rw [DataValue.text, DataValue.toJson, buildObjs_eq, objsJson_eq, DataValue.Plain, plainObjs_iff]
    exact light_array objs (light_objs objs)
  | .intArray ints => (light_array ints fun i _ => light_int i).mono fun _ => trivial

theorem light_values : (data : List (Bytes × DataValue)) →
    ∀ e ∈ data, Light (weights e.2.text) e.2.toJson.least e.2.Plain
  | [] => fun _ he => absurd he List.not_mem_nil
  | (_, value) :: data => List.forall_mem_cons.mpr ⟨value.light, light_values data⟩

theorem light_objs : (objs : List (List (Bytes × DataValue))) →
    ∀ data ∈ objs, Light (weights (123 :: commas (buildEntries data) ++ [125]))
      (Value.object (entriesJson data)).least (PlainEntries data)
  | [] => fun _ he => absurd he List.not_mem_nil
  | data :: objs => List.forall_mem_cons.mpr ⟨light_object (light_values data), light_objs objs⟩

end

/-- The text of a tree, in braces, is JSON that denotes the tree exactly when no name in it has a
quote, a backslash or a control character, and no string a control character other than `\r`, `\n`
and `\t`. -/
theorem build_denotes (s : Serializable) :
    Document (123 :: s.build ++ [125]) (.object (entriesJson s)) ↔ PlainEntries s := by
  constructor
  · intro h
    have hlight := light_object (light_values s)
    exact hlight.2 (Nat.le_antisymm hlight.1 h.least_le)
  · intro h
    have hdocument := @Document.mk [] _ [] _ rfl rfl (text_entries s h)
    rwa [List.nil_append, List.append_nil] at hdocument

/-- A name with a quote, and a string with a byte 1. -/
theorem build_wrong :
    ¬Document (123 :: Serializable.build [(kglString "a\"b", .int 1)] ++ [125])
        (.object (entriesJson [(kglString "a\"b", .int 1)])) ∧
      ¬Document (123 :: Serializable.build [(kglString "a", .str [1])] ++ [125])
        (.object (entriesJson [(kglString "a", .str [1])])) := by
  have hname : ¬PlainEntries [(kglString "a\"b", .int 1)] := fun h => absurd h.1 (by decide)
  have hstring : ¬PlainEntries [(kglString "a", .str [1])] := fun h =>
    absurd (show plainString [1] = true from h.2.1) (by decide)
  have hlight := light_object (light_values [(kglString "a\"b", .int 1)])
  have hlight' := light_object (light_values [(kglString "a", .str [1])])
  exact ⟨fun h => hname (hlight.2 (Nat.le_antisymm hlight.1 h.least_le)),
    fun h => hstring (hlight'.2 (Nat.le_antisymm hlight'.1 h.least_le))⟩

end Khttpd
