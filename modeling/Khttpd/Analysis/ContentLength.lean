import Mathlib.Data.Nat.Digits.Defs
import Khttpd.Model.HeaderParser

/-!
# The value of a Content-length header

`string2int` reads the digits at the head of a value and stops at the first other byte. A value
that fits the grammar is read exactly when its digits come first and their number fits a signed
64-bit word; no other value is refused.
-/

set_option autoImplicit false

namespace Khttpd

/-! ## Decimal numbers -/

/-- The number that a string of digits stands for. -/
def decimalValue (digits : Bytes) : ℕ := Nat.ofDigits 10 (digits.reverse.map fun c => c.toNat - 48)

theorem decimalValue_concat (digits : Bytes) (c : Byte) :
    decimalValue (digits ++ [c]) = decimalValue digits * 10 + (c.toNat - 48) := by
  simp only [decimalValue, List.reverse_append, List.reverse_cons, List.reverse_nil,
    List.nil_append, List.cons_append, List.map_cons, Nat.ofDigits_cons]
  omega

/-- The loop of `kgl_atol` computes the number. -/
theorem foldl_decimal (digits : Bytes) :
    digits.foldl (fun value c => value * 10 + (c.toNat - 48)) 0 = decimalValue digits := by
  induction digits using List.reverseRecOn with
  | nil => rfl
  | append_singleton digits c ih =>
    rw [List.foldl_append, List.foldl_cons, List.foldl_nil, ih, decimalValue_concat]

theorem decimalValue_zero {digits : Bytes} (hdigits : ∀ c ∈ digits, isDigit c = true) :
    decimalValue digits = 0 ↔ ∀ c ∈ digits, c = 48 := by
  induction digits using List.reverseRecOn with
  | nil => simp [decimalValue]
  | append_singleton digits c ih =>
    have hc := hdigits c (List.mem_append_right _ List.mem_cons_self)
    simp only [isDigit, Bool.and_eq_true, decide_eq_true_eq, UInt8.le_iff_toNat_le] at hc
    have hzero : c.toNat - 48 = 0 ↔ c = 48 := by
      rw [← UInt8.toNat_inj]
      have hlow : (48 : UInt8).toNat = 48 := rfl
      omega
    have hrest := ih fun c hc => hdigits c (List.mem_append_left _ hc)
    rw [decimalValue_concat]
    simp only [List.mem_append, List.mem_singleton]
    constructor
    · intro h
      rintro b (hb | rfl)
      · exact hrest.mp (by omega) b hb
      · exact hzero.mp (by omega)
    · intro h
      have h1 := hrest.mpr fun b hb => h b (Or.inl hb)
      have h2 := hzero.mpr (h c (Or.inr rfl))
      omega

/-! ## What `string2int` reads -/

theorem takeWhile_append_stop {p : Byte → Bool} {front back : Bytes}
    (hfront : ∀ c ∈ front, p c = true)
    (hback : ∀ c ∈ back.head?, p c = false) :
    (front ++ back).takeWhile p = front ∧ (front ++ back).dropWhile p = back := by
  cases back with
  | nil =>
    rw [List.append_nil]
    exact ⟨List.takeWhile_eq_self_iff.mpr hfront, List.dropWhile_eq_nil_iff.mpr hfront⟩
  | cons b back =>
    have hb : ¬p b = true := Bool.eq_false_iff.mp (hback b rfl)
    rw [List.takeWhile_append_of_pos hfront, List.dropWhile_append_of_pos hfront,
      List.takeWhile_cons_of_neg hb, List.dropWhile_cons_of_neg hb, List.append_nil]
    exact ⟨rfl, rfl⟩

theorem string2int_eq (val : Bytes) :
    string2int val = (decimalValue (val.takeWhile isDigit) : ℤ).bmod (2 ^ 64) := by
  have htake : (val.takeWhile (· ≠ 0)).takeWhile isDigit = val.takeWhile isDigit := by
    induction val with
    | nil => rfl
    | cons c val ih =>
      by_cases hc : isDigit c = true
      · have hne : c ≠ 0 := by
          rintro rfl
          exact absurd hc (by decide)
        rw [List.takeWhile_cons_of_pos (by simpa using hne), List.takeWhile_cons_of_pos hc,
          List.takeWhile_cons_of_pos hc, ih]
      · rw [List.takeWhile_cons_of_neg hc]
        by_cases hz : c = 0
        · rw [List.takeWhile_cons_of_neg (by simpa using hz)]
          rfl
        · rw [List.takeWhile_cons_of_pos (by simpa using hz), List.takeWhile_cons_of_neg hc]
  unfold string2int kglAtol
  rw [foldl_decimal]
  exact congrArg (fun digits => (decimalValue digits : ℤ).bmod (2 ^ 64)) htake

/-! ## Content-length -/

/-- A value of digits, with spaces around them. -/
structure Decimal (val digits : Bytes) : Prop where
  spaced : ∃ front back, val = front ++ (digits ++ back) ∧ (∀ c ∈ front, khttpIsSpace c = true) ∧
    ∀ c ∈ back, khttpIsSpace c = true
  nonempty : digits ≠ []
  digits : ∀ c ∈ digits, isDigit c = true

/-- The value is refused, or it is a decimal number that `left_read` has exactly. -/
def TakenExactly (val : Bytes) (r : Option KRequestData) : Prop :=
  ∀ d ∈ r, ∃ digits, Decimal val digits ∧ d.leftRead = decimalValue digits ∧
    decimalValue digits ≤ 2 ^ 63 - 1

/-- The digits come first and only spaces behind them, and their number fits; or spaces come first,
and then only zeros and spaces. -/
def PlainLength (val : Bytes) : Prop :=
  val.takeWhile isDigit ≠ [] ∧ (∀ c ∈ val.dropWhile isDigit, khttpIsSpace c = true) ∧
      decimalValue (val.takeWhile isDigit) ≤ 2 ^ 63 - 1 ∨
    ∃ front zeros back, val = front ++ (zeros ++ back) ∧ front ≠ [] ∧ zeros ≠ [] ∧
      (∀ c ∈ front, khttpIsSpace c = true) ∧ (∀ c ∈ zeros, c = 48) ∧
      ∀ c ∈ back, khttpIsSpace c = true

theorem not_digit_of_space {c : Byte} (h : khttpIsSpace c = true) : isDigit c = false := by
  simp only [khttpIsSpace, beq_iff_eq] at h
  subst h
  rfl

theorem not_digit_head {back : Bytes} (h : ∀ c ∈ back, khttpIsSpace c = true) :
    ∀ c ∈ back.head?, isDigit c = false :=
  fun c hc => not_digit_of_space (h c (List.mem_of_mem_head? hc))

/-- A `Content-length` header is never refused. -/
theorem parseHeader_contentLength (P : RequestParser) (d : KRequestData)
    {attr : Bytes} (val : Bytes)
    {isFirst : Bool} (hattr : isContentLength attr = true)
    (hline : ¬(isFirst ∧ d.httpVersion < 0x200)) :
    d.parseHeader P attr val isFirst =
      some { d with leftRead := string2int val, hasContentLen := true } := by
  have hpseudo : ¬(d.httpVersion > 0x100 ∧ attr.head? = some 58) := by
    rintro ⟨-, hhead⟩
    cases attr with
    | nil => cases hhead
    | cons c attr =>
      cases hhead
      simp only [isContentLength, memCaseSame, List.map_cons, beq_iff_eq] at hattr
      have hc : toLower 58 = toLower 67 := (List.cons.inj hattr).1
      exact absurd hc (by decide)
  unfold KRequestData.parseHeader
  rw [if_neg hpseudo, if_neg hline, if_pos hattr]

/-- A `Content-length` header is taken exactly or refused exactly when its digits come first and
their number fits. -/
theorem contentLength_takenExactly_iff (P : RequestParser) (d : KRequestData) {attr : Bytes}
    (val : Bytes) {isFirst : Bool} (hattr : isContentLength attr = true)
    (hline : ¬(isFirst ∧ d.httpVersion < 0x200)) :
    TakenExactly val (d.parseHeader P attr val isFirst) ↔ PlainLength val := by
  rw [parseHeader_contentLength P d val hattr hline]
  unfold TakenExactly
  simp only [Option.mem_some_iff, forall_eq', string2int_eq]
  constructor
  · rintro ⟨digits, ⟨⟨front, back, rfl, hfront, hback⟩, hne, hdigits⟩, hread, hmax⟩
    cases front with
    | nil =>
      obtain ⟨htake, hdrop⟩ := takeWhile_append_stop hdigits (not_digit_head hback)
      refine Or.inl ?_
      rw [List.nil_append, htake, hdrop]
      exact ⟨hne, hback, hmax⟩
    | cons c front =>
      refine Or.inr ⟨c :: front, digits, back, rfl, List.cons_ne_nil _ _, hne, hfront, ?_, hback⟩
      have hstop : ¬isDigit c = true :=
        Bool.eq_false_iff.mp (not_digit_of_space (hfront c List.mem_cons_self))
      rw [List.cons_append, List.takeWhile_cons_of_neg hstop] at hread
      have hzero : decimalValue digits = 0 := Int.ofNat_eq_zero.mp hread.symm
      exact (decimalValue_zero hdigits).mp hzero
  · rintro (⟨hne, hback, hmax⟩ | ⟨front, zeros, back, rfl, hfront, hne, hspaces, hzeros, hback⟩)
    · refine ⟨val.takeWhile isDigit,
        ⟨⟨[], val.dropWhile isDigit, ?_, ?_, hback⟩, hne, ?_⟩, ?_, hmax⟩
      · rw [List.nil_append, List.takeWhile_append_dropWhile]
      · exact fun c hc => absurd hc List.not_mem_nil
      · exact fun c hc => List.mem_takeWhile_imp hc
      · exact Int.bmod_eq_of_le (by omega) (by omega)
    · have hdigits : ∀ c ∈ zeros, isDigit c = true := by
        intro c hc
        rw [hzeros c hc]
        rfl
      have hzero : decimalValue zeros = 0 := (decimalValue_zero hdigits).mpr hzeros
      refine ⟨zeros, ⟨⟨front, back, rfl, hspaces, hback⟩, hne, hdigits⟩, ?_, ?_⟩
      · cases front with
        | nil => exact absurd rfl hfront
        | cons c front =>
          have hstop : ¬isDigit c = true :=
            Bool.eq_false_iff.mp (not_digit_of_space (hspaces c List.mem_cons_self))
          rw [List.cons_append, List.takeWhile_cons_of_neg hstop, hzero]
          rfl
      · rw [hzero]
        exact Nat.zero_le _

/-- A length of 42 with a space behind it is taken. -/
theorem contentLength_takenExactly_fortyTwo :
    isContentLength (kglString "Content-length") = true ∧
      TakenExactly [52, 50, 32] ((KRequestData.idle).parseHeader ⟨fun _ _ => none, fun _ => false,
        fun _ _ _ => none⟩ (kglString "Content-length") [52, 50, 32] false) := by
  have hattr : isContentLength (kglString "Content-length") = true := rfl
  have hline : ¬(false = true ∧ (KRequestData.idle).httpVersion < 0x200) := by decide
  have hvalue : decimalValue (List.takeWhile isDigit [52, 50, 32]) = 42 := rfl
  refine ⟨hattr, (contentLength_takenExactly_iff _ _ _ hattr hline).mpr (Or.inl ⟨?_, ?_, ?_⟩)⟩
  · decide
  · intro c hc
    have hc : c ∈ [(32 : Byte)] := hc
    rw [List.mem_singleton.mp hc]
    rfl
  · rw [hvalue]
    omega

/-- The value is 5 more than `2 ^ 64`, and 5 is what `left_read` has. -/
theorem wrappedLength_not_takenExactly :
    ¬TakenExactly (kglString "18446744073709551621") ((KRequestData.idle).parseHeader
      ⟨fun _ _ => none, fun _ => false, fun _ _ _ => none⟩ (kglString "Content-length")
      (kglString "18446744073709551621") false) := by
  intro h
  obtain ⟨digits, ⟨⟨front, back, hval, hfront, hback⟩, -, hdigits⟩, -, hmax⟩ := h _ rfl
  have hlong : kglString "18446744073709551621" =
      [49, 56, 52, 52, 54, 55, 52, 52, 48, 55, 51, 55, 48, 57, 53, 53, 49, 54, 50, 49] := rfl
  rw [hlong] at hval
  cases front with
  | nil =>
    obtain ⟨htake, -⟩ := takeWhile_append_stop hdigits (not_digit_head hback)
    rw [List.nil_append] at hval
    rw [← htake, ← hval] at hmax
    exact absurd hmax (by decide)
  | cons c front =>
    rw [List.cons_append] at hval
    have hspace := hfront c List.mem_cons_self
    rw [← (List.cons.inj hval).1] at hspace
    exact absurd hspace (by decide)

end Khttpd
