import Mathlib.Algebra.Order.Ring.Int

/-!
# Lists of tokens

The list syntax of header fields: elements behind each other with commas between them, each a token
with optional white space around it and parameters behind a semicolon.
-/

set_option autoImplicit false

namespace TokenList

/-- Optional white space: space and tab. -/
def isOws (c : UInt8) : Bool := c == 32 || c == 9

/-- The characters of a token: letters, digits and the marks ``!#$%&'*+-.^_`|~``. -/
def isTchar (c : UInt8) : Bool :=
  48 ≤ c && c ≤ 57 || 65 ≤ c && c ≤ 90 || 97 ≤ c && c ≤ 122 ||
    [33, 35, 36, 37, 38, 39, 42, 43, 45, 46, 94, 95, 96, 124, 126].contains c

/-- A token. -/
def IsToken (t : List UInt8) : Prop := t ≠ [] ∧ t.all isTchar = true

instance decidableIsToken (t : List UInt8) : Decidable (IsToken t) :=
  inferInstanceAs (Decidable (t ≠ [] ∧ t.all isTchar = true))

/-- An element of a list. -/
structure Element where
  before : List UInt8
  token : List UInt8
  behind : List UInt8
  params : Option (List UInt8)
  blank_before : before.all isOws = true
  isToken : IsToken token
  blank_behind : behind.all isOws = true
  params_end : ∀ text ∈ params, 44 ∉ text

namespace Element

/-- What follows the token of an element. -/
def tail (e : Element) : List UInt8 := e.behind ++ (e.params.map (59 :: ·)).getD []

/-- An element as it is written. -/
def text (e : Element) : List UInt8 := e.before ++ (e.token ++ e.tail)

/-- The element without the white space before it. -/
def strip (e : Element) : Element := { e with before := [], blank_before := rfl }

end Element

/-- The list of these elements. -/
def render (es : List Element) : List UInt8 := [44].intercalate (es.map Element.text)

theorem render_cons_cons (e e' : Element) (es : List Element) :
    render (e :: e' :: es) = e.text ++ 44 :: render (e' :: es) := by
  simp [render, List.intercalate]

@[simp] theorem render_singleton (e : Element) : render [e] = e.text := by
  simp [render, List.intercalate]

/-! ## Characters -/

theorem isTchar_spec : ∀ n < 256, isTchar (UInt8.ofNat n) = true →
    UInt8.ofNat n ≠ 0 ∧ UInt8.ofNat n ≠ 9 ∧ UInt8.ofNat n ≠ 32 ∧ UInt8.ofNat n ≠ 44 ∧
      UInt8.ofNat n ≠ 59 := by
  decide +kernel

/-- No separator is a character of a token. -/
theorem ne_of_isTchar {c : UInt8} (h : isTchar c = true) :
    c ≠ 0 ∧ c ≠ 9 ∧ c ≠ 32 ∧ c ≠ 44 ∧ c ≠ 59 := by
  have hc := isTchar_spec c.toNat c.toNat_lt
  rw [UInt8.ofNat_toNat] at hc
  exact hc h

theorem isTchar_of_isOws {c : UInt8} (h : isOws c = true) : isTchar c = false ∧ c ≠ 44 := by
  simp only [isOws, Bool.or_eq_true, beq_iff_eq] at h
  rcases h with rfl | rfl
  · exact ⟨rfl, by decide⟩
  · exact ⟨rfl, by decide⟩

namespace Element

theorem token_tchar (e : Element) {c : UInt8} (hc : c ∈ e.token) : isTchar c = true :=
  List.all_eq_true.mp e.isToken.2 c hc

/-- An element has no comma. -/
theorem comma_notMem_text (e : Element) : 44 ∉ e.text := by
  unfold text tail
  simp only [List.mem_append, not_or]
  refine ⟨fun h => ?_, fun h => ?_, fun h => ?_, fun h => ?_⟩
  · exact (isTchar_of_isOws (List.all_eq_true.mp e.blank_before _ h)).2 rfl
  · exact (ne_of_isTchar (e.token_tchar h)).2.2.2.1 rfl
  · exact (isTchar_of_isOws (List.all_eq_true.mp e.blank_behind _ h)).2 rfl
  · cases hparams : e.params with
    | none =>
      rw [hparams] at h
      cases h
    | some text =>
      rw [hparams] at h
      rcases List.mem_cons.mp h with h | h
      · exact absurd h (by decide)
      · exact e.params_end text hparams h

/-- What follows a token does not begin like one. -/
theorem tail_head (e : Element) (rest : List UInt8) (hrest : ∀ c ∈ rest.head?, c = 44) :
    ∀ c ∈ (e.tail ++ rest).head?, isTchar c = false := by
  intro c hc
  unfold tail at hc
  cases hbehind : e.behind with
  | cons b behind =>
    rw [hbehind] at hc
    cases hc
    have hblank := e.blank_behind
    rw [hbehind, List.all_cons, Bool.and_eq_true] at hblank
    exact (isTchar_of_isOws hblank.1).1
  | nil =>
    rw [hbehind] at hc
    cases hparams : e.params with
    | none =>
      rw [hparams] at hc
      rw [hrest c hc]
      rfl
    | some text =>
      rw [hparams] at hc
      cases hc
      rfl

end Element

end TokenList
