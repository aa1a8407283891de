import Mathlib.Algebra.BigOperators.Group.List.Basic
import Mathlib.Algebra.Field.Rat
import Mathlib.Algebra.Order.Ring.Int

/-!
# JSON texts

The grammar of JSON over bytes, as the relation between a text and the value that it denotes. Bytes
from 128 on stand for themselves. A weight on texts, which spares the digits and what belongs to
numbers, gives a lower bound for the text of a value.
-/

set_option autoImplicit false

namespace Json

/-! ## Values -/

/-- The values of JSON. The members of an object may come in any order. -/
inductive Value
  | null
  | bool (b : Bool)
  | number (q : ℚ)
  | string (s : List UInt8)
  | array (items : List Value)
  | object (members : List (List UInt8 × Value))

/-! ## Strings -/

/-- What stands behind a backslash, and the character that it stands for. -/
def escapes : List (UInt8 × UInt8) :=
  [(34, 34), (92, 92), (47, 47), (98, 8), (102, 12), (110, 10), (114, 13), (116, 9)]

/-- The digits of `\u`. -/
def hexDigit (c : UInt8) : Option ℕ :=
  if 48 ≤ c ∧ c ≤ 57 then some (c.toNat - 48)
  else if 65 ≤ c ∧ c ≤ 70 then some (c.toNat - 55)
  else if 97 ≤ c ∧ c ≤ 102 then some (c.toNat - 87)
  else none

/-- The number that the four digits behind `\u` give. -/
def hexValue (digits : List UInt8) : Option ℕ :=
  digits.foldl (fun value c => do return 16 * (← value) + (← hexDigit c)) (some 0)

/-- A piece of a string, and the bytes that it denotes. -/
inductive CharText : List UInt8 → List UInt8 → Prop
  | plain {c : UInt8} (hcontrol : 32 ≤ c) (hquote : c ≠ 34) (hslash : c ≠ 92) : CharText [c] [c]
  | escape {c d : UInt8} (h : (c, d) ∈ escapes) : CharText [92, c] [d]
  | unicode {digits : List UInt8} {n : ℕ} (hlength : digits.length = 4)
      (hvalue : hexValue digits = some n) (hplane : n < 0xD800 ∨ 0xE000 ≤ n) :
      CharText (92 :: 117 :: digits) (String.utf8EncodeChar (Char.ofNat n))
  | pair {high low : List UInt8} {m n : ℕ} (hhigh : high.length = 4) (hlow : low.length = 4)
      (hm : hexValue high = some m) (hn : hexValue low = some n) (hmrange : 0xD800 ≤ m ∧ m < 0xDC00)
      (hnrange : 0xDC00 ≤ n ∧ n < 0xE000) :
      CharText (92 :: 117 :: high ++ 92 :: 117 :: low)
        (String.utf8EncodeChar (Char.ofNat (0x10000 + 0x400 * (m - 0xD800) + (n - 0xDC00))))

/-- What stands between the quotes of a string, and the bytes that it denotes. -/
inductive StringText : List UInt8 → List UInt8 → Prop
  | nil : StringText [] []
  | cons {t ts s ss : List UInt8} (hchar : CharText t s) (hrest : StringText ts ss) :
      StringText (t ++ ts) (s ++ ss)

/-! ## Numbers -/

/-- A decimal digit. -/
def isDigit (c : UInt8) : Bool := 48 ≤ c && c ≤ 57

/-- One digit or more. -/
def IsDigits (t : List UInt8) : Prop := t ≠ [] ∧ t.all isDigit = true

/-- The number that these digits give. -/
def digitsValue (t : List UInt8) : ℕ := t.foldl (fun value c => 10 * value + (c.toNat - 48)) 0

/-- The digits before the point. -/
def IsWhole (t : List UInt8) : Prop := IsDigits t ∧ (t = [48] ∨ t.head? ≠ some 48)

/-- A fraction, and its digits. -/
inductive FracText : List UInt8 → List UInt8 → Prop
  | none : FracText [] []
  | some {digits : List UInt8} (h : IsDigits digits) : FracText (46 :: digits) digits

/-- An exponent. -/
inductive ExpText : List UInt8 → ℤ → Prop
  | none : ExpText [] 0
  | some {e : UInt8} {sign digits : List UInt8} (he : e = 101 ∨ e = 69)
      (hsign : sign = [] ∨ sign = [43] ∨ sign = [45]) (h : IsDigits digits) :
      ExpText (e :: sign ++ digits) (if sign = [45] then -digitsValue digits else digitsValue digits)

/-- A number. -/
inductive NumberText : List UInt8 → ℚ → Prop
  | mk {whole frac digits exp : List UInt8} {e : ℤ} (negative : Bool) (hwhole : IsWhole whole)
      (hfrac : FracText frac digits) (hexp : ExpText exp e) :
      NumberText ((if negative then [45] else []) ++ whole ++ frac ++ exp)
        ((if negative then -1 else 1) * digitsValue (whole ++ digits) * (10 : ℚ) ^ e /
          10 ^ digits.length)

/-! ## Texts -/

/-- White space. -/
def isWs (c : UInt8) : Bool := c == 32 || c == 9 || c == 10 || c == 13

/-- An item of an array, and the white space around it. -/
structure Item where
  before : List UInt8
  text : List UInt8
  after : List UInt8
  value : Value
  blank_before : before.all isWs = true
  blank_after : after.all isWs = true

/-- An item as it is written. -/
def Item.full (i : Item) : List UInt8 := i.before ++ i.text ++ i.after

/-- A member of an object: its name, the white space around it, and its value. -/
structure Member where
  before : List UInt8
  keyText : List UInt8
  behind : List UInt8
  key : List UInt8
  item : Item
  stringText : StringText keyText key
  blank_before : before.all isWs = true
  blank_behind : behind.all isWs = true

/-- A member as it is written. -/
def Member.full (m : Member) : List UInt8 :=
  m.before ++ 34 :: m.keyText ++ 34 :: m.behind ++ 58 :: m.item.full

/-- The texts of a value, without white space around them. -/
inductive Text : List UInt8 → Value → Prop
  | null : Text [110, 117, 108, 108] .null
  | true : Text [116, 114, 117, 101] (.bool true)
  | false : Text [102, 97, 108, 115, 101] (.bool false)
  | number {t : List UInt8} {q : ℚ} (h : NumberText t q) : Text t (.number q)
  | string {t s : List UInt8} (h : StringText t s) : Text (34 :: t ++ [34]) (.string s)
  | emptyArray {t : List UInt8} (h : t.all isWs = true) : Text (91 :: t ++ [93]) (.array [])
  | array {items : List Item} (hne : items ≠ []) (h : ∀ i ∈ items, Text i.text i.value) :
      Text (91 :: [44].intercalate (items.map Item.full) ++ [93]) (.array (items.map Item.value))
  | emptyObject {t : List UInt8} (h : t.all isWs = true) : Text (123 :: t ++ [125]) (.object [])
  | object {members : List Member} {ms : List (List UInt8 × Value)} (hne : members ≠ [])
      (h : ∀ m ∈ members, Text m.item.text m.item.value)
      (hperm : (members.map fun m => (m.key, m.item.value)).Perm ms) :
      Text (123 :: [44].intercalate (members.map Member.full) ++ [125]) (.object ms)

/-- The texts of a value with white space around them. -/
inductive Document : List UInt8 → Value → Prop
  | mk {before t after : List UInt8} {v : Value} (hbefore : before.all isWs = true)
      (hafter : after.all isWs = true) (h : Text t v) : Document (before ++ t ++ after) v

/-! ## Weights -/

/-- The bytes that occur in numbers and the ones of multi-byte characters weigh nothing. -/
def weight (c : UInt8) : ℕ :=
  if 128 ≤ c ∨ isDigit c = true ∨ c = 43 ∨ c = 45 ∨ c = 46 ∨ c = 69 ∨ c = 101 then 0 else 1

/-- The weight of a text. -/
def weights (t : List UInt8) : ℕ := (t.map weight).sum

@[simp] theorem weights_nil : weights [] = 0 := rfl

@[simp] theorem weights_cons (c : UInt8) (t : List UInt8) :
    weights (c :: t) = weight c + weights t := by
  simp [weights]

@[simp] theorem weights_append (t t' : List UInt8) :
    weights (t ++ t') = weights t + weights t' := by
  simp [weights]

/-- The bytes that a string has only behind a backslash. -/
def isSpecial (c : UInt8) : Bool := c < 32 || c == 34 || c == 92

/-- The least weight of a piece of a string that denotes a byte. -/
def leastByte (c : UInt8) : ℕ := if isSpecial c then 2 else weight c

/-- The least weight of what stands between the quotes of a string. -/
def leastBytes (s : List UInt8) : ℕ := (s.map leastByte).sum

@[simp] theorem leastBytes_cons (c : UInt8) (s : List UInt8) :
    leastBytes (c :: s) = leastByte c + leastBytes s := by
  simp [leastBytes]

@[simp] theorem leastBytes_append (s s' : List UInt8) :
    leastBytes (s ++ s') = leastBytes s + leastBytes s' := by
  simp [leastBytes]

mutual

/-- The least weight of a text of a value. -/
def Value.least : Value → ℕ
  | .null => 0
  | .bool _ => 0
  | .number _ => 0
  | .string s => 2 + leastBytes s
  | .array items => 2 + (leastItems items - 1)
  | .object members => 2 + (leastMembers members - 1)

/-- The least weight of items with a comma behind each. -/
def leastItems : List Value → ℕ
  | [] => 0
  | v :: items => v.least + 1 + leastItems items

/-- The least weight of members with a comma behind each. -/
def leastMembers : List (List UInt8 × Value) → ℕ
  | [] => 0
  | (key, v) :: members => 3 + leastBytes key + v.least + 1 + leastMembers members

end

/-- The order of the members does not matter. -/
theorem leastMembers_perm {ms ms' : List (List UInt8 × Value)} (h : ms.Perm ms') :
    leastMembers ms = leastMembers ms' := by
  have hsum : ∀ ms, leastMembers ms =
      (ms.map fun m => 3 + leastBytes m.1 + m.2.least + 1).sum := by
    intro ms
    induction ms with
    | nil => rfl
    | cons m ms ih =>
      obtain ⟨key, v⟩ := m
      rw [leastMembers, ih, List.map_cons, List.sum_cons]
  rw [hsum, hsum, (h.map _).sum_eq]

theorem escapes_weight {c d : UInt8} (h : (c, d) ∈ escapes) :
    leastByte d ≤ weight 92 + weight c := by
  simp only [escapes, List.mem_cons, Prod.mk.injEq, List.not_mem_nil, or_false] at h
  rcases h with ⟨rfl, rfl⟩ | ⟨rfl, rfl⟩ | ⟨rfl, rfl⟩ | ⟨rfl, rfl⟩ | ⟨rfl, rfl⟩ | ⟨rfl, rfl⟩ |
    ⟨rfl, rfl⟩ | ⟨rfl, rfl⟩
  all_goals decide

/-- A byte of a multi-byte character weighs nothing. -/
theorem leastByte_of_ge {c : UInt8} (h : 128 ≤ c) : leastByte c = 0 := by
  have hnat : 128 ≤ c.toNat := h
  have hspecial : isSpecial c = false := by
    have h1 : ¬c < 32 := by
      rw [UInt8.lt_iff_toNat_lt]
      have : (32 : UInt8).toNat = 32 := rfl
      omega
    have h2 : c ≠ 34 := by
      rintro rfl
      exact absurd hnat (by decide)
    have h3 : c ≠ 92 := by
      rintro rfl
      exact absurd hnat (by decide)
    simp [isSpecial, h1, h2, h3]
  simp [leastByte, hspecial, weight, h]

theorem ofNat_ge {n : ℕ} (hlow : 128 ≤ n) (hhigh : n < 256) : 128 ≤ UInt8.ofNat n := by
  rw [UInt8.le_iff_toNat_le, UInt8.toNat_ofNat']
  have h128 : (128 : UInt8).toNat = 128 := rfl
  omega
/-- A character is one byte, or bytes from 128 on. -/
theorem all_utf8 (c : Char) : (∃ b, String.utf8EncodeChar c = [b]) ∨
    ∀ b ∈ String.utf8EncodeChar c, 128 ≤ b := by
  fun_cases String.utf8EncodeChar c with
  | case1 => exact .inl ⟨_, rfl⟩
  | case2 v hsmall h =>
    refine .inr fun b hb => ?_
    simp only [List.mem_cons, List.not_mem_nil, or_false] at hb
    rcases hb with rfl | rfl
    · exact ofNat_ge (by omega) (by omega)
    · exact ofNat_ge (by omega) (by omega)
  | case3 v hsmall hmiddle h =>
    refine .inr fun b hb => ?_
    simp only [List.mem_cons, List.not_mem_nil, or_false] at hb
    rcases hb with rfl | rfl | rfl
    · exact ofNat_ge (by omega) (by omega)
    · exact ofNat_ge (by omega) (by omega)
    · exact ofNat_ge (by omega) (by omega)
  | case4 v hsmall hmiddle h =>
    refine .inr fun b hb => ?_
    simp only [List.mem_cons, List.not_mem_nil, or_false] at hb
    rcases hb with rfl | rfl | rfl | rfl
    · exact ofNat_ge (by omega) (by omega)
    · exact ofNat_ge (by omega) (by omega)
    · exact ofNat_ge (by omega) (by omega)
    · exact ofNat_ge (by omega) (by omega)

theorem leastByte_le (c : UInt8) : leastByte c ≤ 2 := by
  unfold leastByte weight
  split_ifs
  all_goals omega

/-- A character weighs no more than a backslash and a letter. -/
theorem leastBytes_utf8 (c : Char) : leastBytes (String.utf8EncodeChar c) ≤ 2 := by
  rcases all_utf8 c with ⟨b, hb⟩ | hall
  · have hle := leastByte_le b
    rw [hb]
    simpa [leastBytes] using hle
  · have hzero : leastBytes (String.utf8EncodeChar c) = 0 := by
      unfold leastBytes
      refine List.sum_eq_zero fun n hn => ?_
      obtain ⟨b, hb, rfl⟩ := List.mem_map.mp hn
      exact leastByte_of_ge (hall b hb)
    omega

theorem CharText.least_le {t s : List UInt8} (h : CharText t s) : leastBytes s ≤ weights t := by
  have hu : weight 92 + weight 117 = 2 := by decide
  cases h with
  | @plain c hcontrol hquote hslash =>
    have hspecial : isSpecial c = false := by
      have hnot : ¬c < 32 := UInt8.not_lt.mpr hcontrol
      simp [isSpecial, hquote, hslash, hnot]
    simp [leastBytes, leastByte, hspecial]
  | @escape c d h =>
    have hle := escapes_weight h
    simpa [leastBytes] using hle
  | unicode hlength hvalue hplane =>
    refine le_trans (leastBytes_utf8 _) ?_
    simp only [weights_cons]
    omega
  | pair =>
    refine le_trans (leastBytes_utf8 _) ?_
    simp only [weights_cons, weights_append, List.cons_append]
    omega

theorem StringText.least_le {t s : List UInt8} (h : StringText t s) :
    leastBytes s ≤ weights t := by
  induction h with
  | nil => exact le_rfl
  | cons hchar hrest ih =>
    have hle := hchar.least_le
    rw [leastBytes_append, weights_append]
    omega

theorem intercalate_cons_cons (t t' : List UInt8) (ts : List (List UInt8)) :
    [44].intercalate (t :: t' :: ts) = t ++ 44 :: [44].intercalate (t' :: ts) := by
  simp [List.intercalate]

/-- Texts with commas between them. -/
theorem weights_intercalate (ts : List (List UInt8)) (h : ts ≠ []) :
    weights ([44].intercalate ts) + 1 = (ts.map fun t => weights t + 1).sum := by
  induction ts with
  | nil => exact absurd rfl h
  | cons t ts ih =>
    cases ts with
    | nil => simp [List.intercalate]
    | cons t' ts =>
      have hrest := ih (List.cons_ne_nil _ _)
      have hcomma : weight 44 = 1 := rfl
      rw [intercalate_cons_cons, List.map_cons, List.sum_cons, ← hrest, weights_append,
        weights_cons, hcomma]
      omega

theorem leastItems_le (items : List Item) (h : ∀ i ∈ items, i.value.least ≤ weights i.text) :
    leastItems (items.map Item.value) ≤
      ((items.map Item.full).map fun t => weights t + 1).sum := by
  induction items with
  | nil => exact le_rfl
  | cons i items ih =>
    have hone := h i List.mem_cons_self
    have hrest := ih fun i hi => h i (List.mem_cons_of_mem _ hi)
    have hfull : weights i.text ≤ weights i.full := by
      simp only [Item.full, weights_append]
      omega
    simp only [List.map_cons, List.sum_cons, leastItems]
    omega

theorem leastMembers_le (members : List Member)
    (h : ∀ m ∈ members, m.item.value.least ≤ weights m.item.text) :
    leastMembers (members.map fun m => (m.key, m.item.value)) ≤
      ((members.map Member.full).map fun t => weights t + 1).sum := by
  have hquote : weight 34 = 1 := rfl
  have hcolon : weight 58 = 1 := rfl
  induction members with
  | nil => exact le_rfl
  | cons m members ih =>
    have hone := h m List.mem_cons_self
    have hkey := m.stringText.least_le
    have hrest := ih fun m hm => h m (List.mem_cons_of_mem _ hm)
    simp only [List.map_cons, List.sum_cons, leastMembers]
    have hfull : 3 + weights m.keyText + weights m.item.text ≤ weights m.full := by
      simp only [Member.full, Item.full, weights_append, weights_cons, hquote, hcolon]
      omega
    omega

/-- No text of a value weighs less than `least`. -/
theorem Text.least_le {t : List UInt8} {v : Value} (h : Text t v) : v.least ≤ weights t := by
  have hbrackets : weight 91 = 1 ∧ weight 93 = 1 ∧ weight 123 = 1 ∧ weight 125 = 1 ∧
      weight 34 = 1 := ⟨rfl, rfl, rfl, rfl, rfl⟩
  obtain ⟨hopen, hclose, hopen', hclose', hquote⟩ := hbrackets
  induction h with
  | null => exact Nat.zero_le _
  | true => exact Nat.zero_le _
  | false => exact Nat.zero_le _
  | number => exact Nat.zero_le _
  | string h =>
    have hle := h.least_le
    simp only [Value.least, List.cons_append, weights_cons, weights_append, weights_nil, hquote]
    omega
  | emptyArray =>
    simp only [Value.least, leastItems, List.cons_append, weights_cons, weights_append, weights_nil,
      hopen, hclose]
    omega
  | @array items hne h ih =>
    have hsum := weights_intercalate (items.map Item.full) (by simpa using hne)
    have hle := leastItems_le items ih
    simp only [Value.least, List.cons_append, weights_cons, weights_append, weights_nil, hopen,
      hclose]
    omega
  | emptyObject =>
    simp only [Value.least, leastMembers, List.cons_append, weights_cons, weights_append,
      weights_nil, hopen', hclose']
    omega
  | @object members ms hne h hperm ih =>
    have hsum := weights_intercalate (members.map Member.full) (by simpa using hne)
    have hle := leastMembers_le members ih
    rw [leastMembers_perm hperm] at hle
    simp only [Value.least, List.cons_append, weights_cons, weights_append, weights_nil, hopen',
      hclose']
    omega

theorem Document.least_le {t : List UInt8} {v : Value} (h : Document t v) :
    v.least ≤ weights t := by
  obtain ⟨-, -, h⟩ := h
  have hle := h.least_le
  simp only [weights_append]
  omega

end Json
