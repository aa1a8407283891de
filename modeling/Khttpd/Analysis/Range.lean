import Mathlib.Algebra.Order.Ring.Int
import Khttpd.Analysis.ContentLength
import Khttpd.Model.Range

/-!
# Ranges

What `kgl_adjust_range` makes of a range, and of the ranges that `parse_header` reads. An open range
and a suffix that is shorter than the entity come out right. A bounded range is left with an end
behind the entity, and a suffix that covers the entity is refused.
-/

set_option autoImplicit false

namespace Khttpd

/-! ## Signed 64-bit numbers -/

theorem int64_eq_some {n : ℤ} {x : Int64} : int64 n = some x ↔ x.toInt = n := by
  unfold int64
  constructor
  · intro h
    split at h
    · cases h
      assumption
    · cases h
  · rintro rfl
    simp

theorem int64_of_range {n : ℤ} (hlow : -2 ^ 63 ≤ n) (hhigh : n < 2 ^ 63) :
    ∃ x, int64 n = some x ∧ x.toInt = n := by
  have hn : (Int64.ofInt n).toInt = n := Int64.toInt_ofInt_of_le hlow hhigh
  exact ⟨Int64.ofInt n, int64_eq_some.mpr hn, hn⟩

theorem int64_eq_none {n : ℤ} : int64 n = none ↔ ¬(-2 ^ 63 ≤ n ∧ n < 2 ^ 63) := by
  constructor
  · rintro h ⟨hlow, hhigh⟩
    obtain ⟨x, hx, -⟩ := int64_of_range hlow hhigh
    exact Option.some_ne_none x (hx.symm.trans h)
  · intro h
    refine Option.eq_none_iff_forall_ne_some.mpr fun x hx => h ?_
    rw [← int64_eq_some.mp hx]
    exact ⟨x.le_toInt, x.toInt_lt⟩

theorem int64_toInt (x : Int64) : int64 x.toInt = some x := int64_eq_some.mpr rfl

/-! ## `kgl_adjust_range`, case by case -/

section Adjust

variable (range : KglRequestRange) (len : Int64)

/-- A range behind the entity. -/
theorem adjust_beyond (hfrom : 0 ≤ range.rangeFrom.toInt)
    (hbeyond : len.toInt ≤ range.rangeFrom.toInt) :
    kglAdjustRange range len = some ⟨range, len, false⟩ := by
  rw [kglAdjustRange, if_pos hfrom, if_pos hbeyond]

/-- The end of `kgl_adjust_range` for an open range and for a suffix. -/
theorem finishRange_eq (hfrom : 0 ≤ range.rangeFrom.toInt) (hlen : 0 < len.toInt)
    (hsum : range.rangeFrom.toInt + len.toInt < 2 ^ 63) :
    ∃ last : Int64, last.toInt = range.rangeFrom.toInt + len.toInt - 1 ∧
      finishRange range len = some ⟨{ range with rangeTo := last }, len, true⟩ := by
  obtain ⟨sum, hsum', hsumInt⟩ := int64_of_range (n := range.rangeFrom.toInt + len.toInt)
    (by omega) hsum
  obtain ⟨last, hlast, hlastInt⟩ := int64_of_range (n := sum.toInt - 1) (by omega) (by omega)
  refine ⟨last, by omega, ?_⟩
  simp [finishRange, hsum', hlast]

/-- A range that starts in the entity and is open. -/
theorem adjust_open (hfrom : 0 ≤ range.rangeFrom.toInt) (hin : range.rangeFrom.toInt < len.toInt)
    (hto : range.rangeTo.toInt < 0) :
    ∃ last count : Int64, last.toInt = len.toInt - 1 ∧
      count.toInt = len.toInt - range.rangeFrom.toInt ∧
      kglAdjustRange range len = some ⟨{ range with rangeTo := last }, count, true⟩ := by
  have hmax := len.toInt_lt
  obtain ⟨count, hcount, hcountInt⟩ := int64_of_range (n := len.toInt - range.rangeFrom.toInt)
    (by omega) (by omega)
  obtain ⟨last, hlast, hfinish⟩ := finishRange_eq range count hfrom (by omega) (by omega)
  refine ⟨last, count, by omega, hcountInt, ?_⟩
  rw [kglAdjustRange, if_pos hfrom, if_neg (by omega)]
  simp [hcount, hfinish, hto]

/-- A range that starts in the entity and is bounded: the length is cut, the range stays. -/
theorem adjust_bounded (hfrom : 0 ≤ range.rangeFrom.toInt)
    (hin : range.rangeFrom.toInt < len.toInt) (hto : 0 ≤ range.rangeTo.toInt)
    (hmax : range.rangeTo.toInt - range.rangeFrom.toInt + 1 < 2 ^ 63) :
    ∃ count : Int64,
      count.toInt = min (range.rangeTo.toInt - range.rangeFrom.toInt + 1)
        (len.toInt - range.rangeFrom.toInt) ∧
      kglAdjustRange range len = some ⟨range, count, 0 < count.toInt⟩ := by
  have hlenMax := len.toInt_lt
  have hfromMax := range.rangeFrom.toInt_lt
  obtain ⟨left, hleft, hleftInt⟩ := int64_of_range (n := len.toInt - range.rangeFrom.toInt)
    (by omega) (by omega)
  obtain ⟨diff, hdiff, hdiffInt⟩ :=
    int64_of_range (n := range.rangeTo.toInt - range.rangeFrom.toInt) (by omega) (by omega)
  obtain ⟨count, hcount, hcountInt⟩ := int64_of_range (n := diff.toInt + 1) (by omega) (by omega)
  refine ⟨if count.toInt > left.toInt then left else count, ?_, ?_⟩
  · split <;> omega
  · rw [kglAdjustRange, if_pos hfrom, if_neg (by omega)]
    simp [hleft, hdiff, hcount, hto]

/-- The whole of the representable numbers, where the length overflows. -/
theorem adjust_overflow (hfrom : 0 ≤ range.rangeFrom.toInt)
    (hin : range.rangeFrom.toInt < len.toInt) (hto : 0 ≤ range.rangeTo.toInt)
    (hmax : 2 ^ 63 ≤ range.rangeTo.toInt - range.rangeFrom.toInt + 1) :
    kglAdjustRange range len = none := by
  have hlenMax := len.toInt_lt
  have htoMax := range.rangeTo.toInt_lt
  obtain ⟨left, hleft, hleftInt⟩ := int64_of_range (n := len.toInt - range.rangeFrom.toInt)
    (by omega) (by omega)
  obtain ⟨diff, hdiff, hdiffInt⟩ :=
    int64_of_range (n := range.rangeTo.toInt - range.rangeFrom.toInt) (by omega) (by omega)
  have hcount : int64 (diff.toInt + 1) = none := int64_eq_none.mpr (by omega)
  rw [kglAdjustRange, if_pos hfrom, if_neg (by omega)]
  simp [hleft, hdiff, hcount, hto]

/-- A suffix that is shorter than the entity. -/
theorem adjust_suffix (hfrom : range.rangeFrom.toInt < 0)
    (hin : 0 < range.rangeFrom.toInt + len.toInt) :
    ∃ first last count : Int64, first.toInt = range.rangeFrom.toInt + len.toInt ∧
      last.toInt = len.toInt - 1 ∧ count.toInt = -range.rangeFrom.toInt ∧
      kglAdjustRange range len = some ⟨⟨first, last⟩, count, true⟩ := by
  have hlenMax := len.toInt_lt
  have hfromMin := range.rangeFrom.le_toInt
  obtain ⟨first, hfirst, hfirstInt⟩ := int64_of_range (n := range.rangeFrom.toInt + len.toInt)
    (by omega) (by omega)
  obtain ⟨count, hcount, hcountInt⟩ := int64_of_range (n := len.toInt - first.toInt)
    (by omega) (by omega)
  obtain ⟨last, hlast, hfinish⟩ := finishRange_eq { range with rangeFrom := first } count
    (by simp only; omega) (by omega) (by simp only; omega)
  simp only at hlast
  refine ⟨first, last, count, hfirstInt, by omega, by omega, ?_⟩
  have hpos : ¬first.toInt ≤ 0 := by omega
  rw [kglAdjustRange, if_neg (by omega)]
  simp [hfirst, hcount, hfinish, hpos]

/-- A suffix that covers the entity is refused, and its start is moved. -/
theorem adjust_wholeSuffix (hlen : 0 < len.toInt) (hfrom : range.rangeFrom.toInt < 0)
    (hout : range.rangeFrom.toInt + len.toInt ≤ 0) :
    ∃ first : Int64, first.toInt = range.rangeFrom.toInt + len.toInt ∧
      kglAdjustRange range len = some ⟨{ range with rangeFrom := first }, len, false⟩ := by
  have hfromMin := range.rangeFrom.le_toInt
  obtain ⟨first, hfirst, hfirstInt⟩ := int64_of_range (n := range.rangeFrom.toInt + len.toInt)
    (by omega) (by omega)
  have hzero : first.toInt ≤ 0 := by omega
  refine ⟨first, hfirstInt, ?_⟩
  rw [kglAdjustRange, if_neg (by omega)]
  simp [hfirst, hzero]

end Adjust

/-! ## Consistency -/

/-- An accepted range lies in the entity and has the length that is returned; a refused one is left
alone. -/
def AdjustsConsistently (range : KglRequestRange) (len : Int64) : Prop :=
  ∃ out, kglAdjustRange range len = some out ∧
    if out.ok then 0 ≤ out.range.rangeFrom.toInt ∧
      out.range.rangeFrom.toInt ≤ out.range.rangeTo.toInt ∧ out.range.rangeTo.toInt < len.toInt ∧
      out.len.toInt = out.range.rangeTo.toInt - out.range.rangeFrom.toInt + 1
    else out.range = range ∧ out.len = len

theorem adjustsConsistently_of_some {range : KglRequestRange} {len : Int64} {out : AdjustedRange}
    (h : kglAdjustRange range len = some out) : AdjustsConsistently range len ↔
      if out.ok then 0 ≤ out.range.rangeFrom.toInt ∧
        out.range.rangeFrom.toInt ≤ out.range.rangeTo.toInt ∧ out.range.rangeTo.toInt < len.toInt ∧
        out.len.toInt = out.range.rangeTo.toInt - out.range.rangeFrom.toInt + 1
      else out.range = range ∧ out.len = len := by
  unfold AdjustsConsistently
  rw [h]
  simp only [Option.some.injEq, exists_eq_left']

/-- A range is adjusted consistently exactly when it starts behind the entity, is open, is bounded
and ends in the entity, or is a suffix shorter than the entity. -/
theorem adjustsConsistently_iff (range : KglRequestRange) (len : Int64) (hlen : 0 < len.toInt)
    (hto : 0 ≤ range.rangeFrom.toInt → range.rangeTo.toInt = -1 ∨ 0 ≤ range.rangeTo.toInt) :
    AdjustsConsistently range len ↔
      len.toInt ≤ range.rangeFrom.toInt ∨
        0 ≤ range.rangeFrom.toInt ∧ range.rangeTo.toInt = -1 ∨
        0 ≤ range.rangeFrom.toInt ∧ range.rangeFrom.toInt ≤ range.rangeTo.toInt ∧
          range.rangeTo.toInt < len.toInt ∨
        range.rangeFrom.toInt < 0 ∧ 0 < range.rangeFrom.toInt + len.toInt := by
  have hlenMax := len.toInt_lt
  by_cases hfrom : 0 ≤ range.rangeFrom.toInt
  · by_cases hbeyond : len.toInt ≤ range.rangeFrom.toInt
    · rw [adjustsConsistently_of_some (adjust_beyond range len hfrom hbeyond)]
      simp [hbeyond]
    · have hin : range.rangeFrom.toInt < len.toInt := by omega
      rcases hto hfrom with hopen | hbounded
      · obtain ⟨last, count, hlast, hcount, heq⟩ := adjust_open range len hfrom hin (by omega)
        rw [adjustsConsistently_of_some heq]
        simp only [if_true]
        omega
      · by_cases hmax : range.rangeTo.toInt - range.rangeFrom.toInt + 1 < 2 ^ 63
        · obtain ⟨count, hcount, heq⟩ := adjust_bounded range len hfrom hin hbounded hmax
          rw [adjustsConsistently_of_some heq]
          by_cases hpos : 0 < count.toInt
          · simp only [hpos, decide_true, if_true]
            omega
          · -- the length went below one, so it is not what it was
            have hne : count ≠ len := by
              rintro rfl
              exact hpos hlen
            simp only [hpos, decide_false, Bool.false_eq_true, if_false, hne, and_false, false_iff]
            omega
        · have hnone := adjust_overflow range len hfrom hin hbounded (by omega)
          refine iff_of_false ?_ (by omega)
          rintro ⟨out, hout, -⟩
          exact Option.some_ne_none out (hout.symm.trans hnone)
  · have hneg : range.rangeFrom.toInt < 0 := by omega
    by_cases hin : 0 < range.rangeFrom.toInt + len.toInt
    · obtain ⟨first, last, count, hfirst, hlast, hcount, heq⟩ := adjust_suffix range len hneg hin
      rw [adjustsConsistently_of_some heq]
      simp only [if_true]
      omega
    · obtain ⟨first, hfirst, heq⟩ := adjust_wholeSuffix range len hlen hneg (by omega)
      rw [adjustsConsistently_of_some heq]
      -- the start was moved by the length of the entity
      have hne : ({ range with rangeFrom := first } : KglRequestRange) ≠ range := by
        intro h
        have hsame : first = range.rangeFrom := congrArg KglRequestRange.rangeFrom h
        rw [hsame] at hfirst
        omega
      simp only [Bool.false_eq_true, if_false, hne, false_and, false_iff]
      omega

/-- The result at the first ten bytes of a hundred. -/
theorem adjustsConsistently_firstTen : AdjustsConsistently ⟨0, 9⟩ 100 :=
  (adjustsConsistently_iff ⟨0, 9⟩ 100 (by decide +kernel) (by decide +kernel)).mpr
    (by decide +kernel)

/-- A bounded range that ends behind the entity is accepted with its end as it came. -/
theorem longRange_not_adjustsConsistently : ¬AdjustsConsistently ⟨0, 99⟩ 10 := by
  have heq : kglAdjustRange ⟨0, 99⟩ 10 = some ⟨⟨0, 99⟩, 10, true⟩ := by decide +kernel
  rw [adjustsConsistently_of_some heq]
  decide +kernel

/-! ## What a request asks for -/

/-- A range of a request: two positions, a position up to the end, or a number of last bytes. -/
inductive ByteRange where
  | bounded (first last : ℕ)
  | toEnd (first : ℕ)
  | suffix (count : ℕ)

/-- Where the bytes that a range selects of `len` bytes start, and how many they are. -/
def ByteRange.selects (len : ℕ) : ByteRange → Option (ℕ × ℕ)
  | .bounded first last => if first < len then some (first, min (last + 1) len - first) else none
  | .toEnd first => if first < len then some (first, len - first) else none
  | .suffix count => if 0 < count then some (len - min count len, min count len) else none

/-- The numbers of a range are `int64_t`, and its end is not before its start. -/
def ByteRange.Representable : ByteRange → Prop
  | .bounded first last => first ≤ last ∧ last < 2 ^ 63
  | .toEnd first => first < 2 ^ 63
  | .suffix count => count < 2 ^ 63

/-- A string of digits. -/
structure Digits (digits : Bytes) : Prop where
  nonempty : digits ≠ []
  all : ∀ c ∈ digits, isDigit c = true

theorem digits_of_all {digits : Bytes} (hne : digits ≠ []) (hall : digits.all isDigit = true) :
    Digits digits := ⟨hne, List.all_eq_true.mp hall⟩

/-- The header value behind `bytes=`. -/
inductive ByteRange.Text : ByteRange → Bytes → Prop
  | bounded {first last : Bytes} (hfirst : Digits first) (hlast : Digits last) :
      Text (.bounded (decimalValue first) (decimalValue last)) (first ++ 45 :: last)
  | toEnd {first : Bytes} (hfirst : Digits first) :
      Text (.toEnd (decimalValue first)) (first ++ [45])
  | suffix {count : Bytes} (hcount : Digits count) :
      Text (.suffix (decimalValue count)) (45 :: count)

/-- `parse_header` takes the value as a range, and `kgl_adjust_range` accepts it exactly when it
selects bytes and then finds these bytes. `range` is the range that the request has before. -/
def SelectsBytes (range : Option KglRequestRange) (val : Bytes) (r : ByteRange) (len : Int64) :
    Prop :=
  isBytesRange val = true ∧ ∃ parsed out, parseBytesRange range (val.drop 6) = some parsed ∧
    kglAdjustRange parsed len = some out ∧
      match r.selects len.toInt.toNat with
      | none => out.ok = false
      | some (start, count) =>
        out.ok = true ∧ out.range.rangeFrom.toInt = start ∧ out.len.toInt = count

/-- The bounded range of all representable positions overflows; a suffix has to be shorter than the
entity and not empty. -/
def ByteRange.Plain (len : Int64) : ByteRange → Prop
  | .bounded first last => ¬(first = 0 ∧ last = 2 ^ 63 - 1)
  | .toEnd _ => True
  | .suffix count => 0 < count ∧ (count : ℤ) < len.toInt

/-! ## The parser -/

theorem kglAtol_digits {digits : Bytes} (back : Bytes) (hdigits : ∀ c ∈ digits, isDigit c = true)
    (hback : ∀ c ∈ back.head?, isDigit c = false) :
    kglAtol (digits ++ back) = decimalValue digits := by
  have htake : (digits ++ back).takeWhile (fun c => 48 ≤ c && c ≤ 57) = digits :=
    (takeWhile_append_stop hdigits hback).1
  rw [kglAtol, htake, foldl_decimal]

theorem kglAtol64_digits {digits : Bytes} (back : Bytes) (hdigits : ∀ c ∈ digits, isDigit c = true)
    (hback : ∀ c ∈ back.head?, isDigit c = false) (hsmall : decimalValue digits < 2 ^ 63) :
    ∃ n : Int64, n.toInt = decimalValue digits ∧ kglAtol64 (digits ++ back) = some n := by
  obtain ⟨n, hn, hnInt⟩ := int64_of_range (n := (decimalValue digits : ℤ)) (by omega) (by omega)
  refine ⟨n, hnInt, ?_⟩
  rw [kglAtol64, kglAtol_digits back hdigits hback, hn]

theorem parse_suffix (range : Option KglRequestRange) {count : Bytes} (hcount : Digits count)
    (hsmall : decimalValue count < 2 ^ 63) :
    ∃ parsed, parseBytesRange range (45 :: count) = some parsed ∧
      parsed.rangeFrom.toInt = -decimalValue count := by
  obtain ⟨n, hn, hatol⟩ := kglAtol64_digits [] hcount.all (by simp) hsmall
  rw [List.append_nil] at hatol
  obtain ⟨first, hfirst, hfirstInt⟩ := int64_of_range (n := -n.toInt) (by omega) (by omega)
  refine ⟨{ allocRequestRange range with rangeFrom := first }, ?_, by simp only; omega⟩
  simp [parseBytesRange, hatol, hfirst]

/-- What the parser does with a value that starts with a digit. -/
theorem parse_first (range : Option KglRequestRange) {first : Bytes} (back : Bytes)
    (hfirst : Digits first) (hsmall : decimalValue first < 2 ^ 63) :
    ∃ n : Int64, n.toInt = decimalValue first ∧ parseBytesRange range (first ++ 45 :: back) =
      match back with
      | [] => some ⟨n, -1⟩
      | ch :: last => (kglAtol64 (ch :: last)).map fun last => ⟨n, last⟩ := by
  obtain ⟨n, hn, hatol⟩ := kglAtol64_digits (45 :: back) hfirst.all
    (by simp [isDigit]) hsmall
  refine ⟨n, hn, ?_⟩
  have hdash : (45 : Byte) ∉ first := by
    intro h
    exact absurd (hfirst.all 45 h) (by decide)
  have hchr := memchr_append hdash back
  have hhead : ∀ last, first ++ 45 :: back ≠ 45 :: last := by
    intro last h
    obtain ⟨c, digits, hdigits⟩ := List.exists_cons_of_ne_nil hfirst.nonempty
    rw [hdigits, List.cons_append] at h
    have hc := hfirst.all c (by simp [hdigits])
    rw [(List.cons.inj h).1] at hc
    exact absurd hc (by decide)
  unfold parseBytesRange
  split
  · rename_i last heq
    exact absurd heq (hhead last)
  · rw [hatol, hchr]
    cases back with
    | nil => rfl
    | cons ch last => cases h : kglAtol64 (ch :: last) <;> simp [h]

/-! ## The bytes of a range -/

theorem isBytesRange_text {r : ByteRange} {text : Bytes} (h : r.Text text) :
    isBytesRange (kglString "bytes=" ++ text) = true := by
  have hlen : 0 < text.length := by cases h <;> simp
  have htake : (kglString "bytes=" ++ text).take 6 = kglString "bytes=" := by rfl
  simp [isBytesRange, htake, memCaseSame, hlen, show (kglString "bytes=").length = 6 from rfl]

theorem drop_bytes (text : Bytes) : (kglString "bytes=" ++ text).drop 6 = text := rfl

theorem selectsBytes_of_parsed {range : Option KglRequestRange} {text : Bytes} {r : ByteRange}
    {len : Int64} {parsed : KglRequestRange} (htext : r.Text text)
    (hparse : parseBytesRange range text = some parsed) :
    SelectsBytes range (kglString "bytes=" ++ text) r len ↔
      ∃ out, kglAdjustRange parsed len = some out ∧
        match r.selects len.toInt.toNat with
        | none => out.ok = false
        | some (start, count) =>
          out.ok = true ∧ out.range.rangeFrom.toInt = start ∧ out.len.toInt = count := by
  unfold SelectsBytes
  rw [drop_bytes, hparse]
  simp [isBytesRange_text htext]

variable (range : Option KglRequestRange) {len : Int64}

/-- A range that starts behind the entity is refused. -/
theorem refused_beyond {parsed : KglRequestRange} {first : ℕ}
    (hfirst : parsed.rangeFrom.toInt = first)
    (hout : len.toInt ≤ first) : ∃ out, kglAdjustRange parsed len = some out ∧ out.ok = false :=
  ⟨_, adjust_beyond _ _ (by omega) (by omega), rfl⟩

theorem selectsBytes_bounded {first last : Bytes} (hfirst : Digits first) (hlast : Digits last)
    (hle : decimalValue first ≤ decimalValue last) (hsmall : decimalValue last < 2 ^ 63)
    (hlen : 0 < len.toInt) :
    SelectsBytes range (kglString "bytes=" ++ (first ++ 45 :: last))
        (.bounded (decimalValue first) (decimalValue last)) len ↔
      ¬(decimalValue first = 0 ∧ decimalValue last = 2 ^ 63 - 1) := by
  obtain ⟨n, hn, hparse⟩ := parse_first range last hfirst (by omega)
  obtain ⟨ch, tail, rfl⟩ := List.exists_cons_of_ne_nil hlast.nonempty
  obtain ⟨m, hm, hatol⟩ := kglAtol64_digits [] hlast.all (by simp) hsmall
  rw [List.append_nil] at hatol
  simp only [hatol, Option.map_some] at hparse
  rw [selectsBytes_of_parsed (.bounded hfirst hlast) hparse]
  by_cases hin : n.toInt < len.toInt
  · have hselects : decimalValue first < len.toInt.toNat := by omega
    simp only [ByteRange.selects, if_pos hselects]
    by_cases hmax : m.toInt - n.toInt + 1 < 2 ^ 63
    · obtain ⟨count, hcount, heq⟩ := adjust_bounded ⟨n, m⟩ len
        (by simp only; omega) hin (by simp only; omega) hmax
      simp only at hcount
      refine iff_of_true ⟨_, heq, ?_, hn, ?_⟩ (by omega)
      · simp only [decide_eq_true_eq]
        omega
      · simp only
        omega
    · have hnone := adjust_overflow ⟨n, m⟩ len (by simp only; omega) hin
        (by simp only; omega) (by simp only; omega)
      refine iff_of_false ?_ (by omega)
      rintro ⟨out, hout, -⟩
      exact Option.some_ne_none out (hout.symm.trans hnone)
  · have hselects : ¬decimalValue first < len.toInt.toNat := by omega
    simp only [ByteRange.selects, if_neg hselects]
    have hmax := len.toInt_lt
    exact iff_of_true (refused_beyond hn (by omega)) (by omega)

theorem selectsBytes_toEnd {first : Bytes} (hfirst : Digits first)
    (hsmall : decimalValue first < 2 ^ 63) :
    SelectsBytes range (kglString "bytes=" ++ (first ++ [45]))
      (.toEnd (decimalValue first)) len := by
  obtain ⟨n, hn, hparse⟩ := parse_first range [] hfirst hsmall
  rw [selectsBytes_of_parsed (.toEnd hfirst) hparse]
  by_cases hin : n.toInt < len.toInt
  · have hselects : decimalValue first < len.toInt.toNat := by omega
    simp only [ByteRange.selects, if_pos hselects]
    obtain ⟨last, count, -, hcount, heq⟩ := adjust_open ⟨n, -1⟩ len
      (by simp only; omega) hin (by simp only; decide +kernel)
    simp only at hcount
    exact ⟨_, heq, rfl, hn, by simp only; omega⟩
  · have hselects : ¬decimalValue first < len.toInt.toNat := by omega
    simp only [ByteRange.selects, if_neg hselects]
    exact refused_beyond hn (by omega)

/-- The suffix of no bytes is read as a range from zero, with the end that the request has. -/
theorem adjust_fromZero {parsed : KglRequestRange} (hfrom : parsed.rangeFrom.toInt = 0)
    (hlen : 0 < len.toInt) : ∀ out, kglAdjustRange parsed len = some out → out.ok = true := by
  intro out hout
  by_cases hto : 0 ≤ parsed.rangeTo.toInt
  · by_cases hmax : parsed.rangeTo.toInt - parsed.rangeFrom.toInt + 1 < 2 ^ 63
    · obtain ⟨count, hcount, heq⟩ := adjust_bounded parsed len (by omega)
        (by omega) hto hmax
      cases heq.symm.trans hout
      simp only [decide_eq_true_eq]
      omega
    · have hnone := adjust_overflow parsed len (by omega) (by omega) hto
        (by omega)
      exact absurd (hout.symm.trans hnone) (Option.some_ne_none out)
  · obtain ⟨last, count, -, -, heq⟩ := adjust_open parsed len (by omega)
      (by omega) (by omega)
    cases heq.symm.trans hout
    rfl

theorem selectsBytes_suffix {count : Bytes} (hcount : Digits count)
    (hsmall : decimalValue count < 2 ^ 63) (hlen : 0 < len.toInt) :
    SelectsBytes range (kglString "bytes=" ++ 45 :: count) (.suffix (decimalValue count)) len ↔
      0 < decimalValue count ∧ (decimalValue count : ℤ) < len.toInt := by
  obtain ⟨parsed, hparse, hfrom⟩ := parse_suffix range hcount hsmall
  rw [selectsBytes_of_parsed (.suffix hcount) hparse]
  by_cases hpos : 0 < decimalValue count
  · simp only [ByteRange.selects, hpos, if_true, true_and]
    by_cases hin : (decimalValue count : ℤ) < len.toInt
    · obtain ⟨first, last, cut, hfirst, -, hcut, heq⟩ := adjust_suffix parsed len
        (by omega) (by omega)
      exact iff_of_true ⟨_, heq, rfl, by simp only; omega, by simp only; omega⟩ hin
    · obtain ⟨first, -, heq⟩ := adjust_wholeSuffix parsed len hlen (by omega) (by omega)
      refine iff_of_false ?_ hin
      rintro ⟨out, hout, hok, -⟩
      cases heq.symm.trans hout
      cases hok
  · simp only [ByteRange.selects, hpos, if_false, false_and, iff_false]
    rintro ⟨out, hout, hok⟩
    rw [adjust_fromZero (by omega) hlen out hout] at hok
    cases hok

/-- A range request selects its bytes exactly when it is no bounded range of all representable
positions, no empty suffix and no suffix that covers the entity. -/
theorem selectsBytes_iff {r : ByteRange} {text : Bytes} (htext : r.Text text)
    (hr : r.Representable) (hlen : 0 < len.toInt) :
    SelectsBytes range (kglString "bytes=" ++ text) r len ↔ r.Plain len := by
  cases htext with
  | bounded hfirst hlast => exact selectsBytes_bounded range hfirst hlast hr.1 hr.2 hlen
  | toEnd hfirst => exact iff_of_true (selectsBytes_toEnd range hfirst hr) trivial
  | suffix hcount => exact selectsBytes_suffix range hcount hr hlen

/-- The result at the last five bytes of ten. -/
theorem selectsBytes_lastFive : SelectsBytes none (kglString "bytes=-5") (.suffix 5) 10 :=
  (selectsBytes_iff none
    (@ByteRange.Text.suffix [53] (digits_of_all (by decide) (by decide +kernel)))
    (show decimalValue [53] < 2 ^ 63 by decide) (by decide +kernel)).mpr
    (show 0 < decimalValue [53] ∧ (decimalValue [53] : ℤ) < (10 : Int64).toInt by decide +kernel)

/-- The last zero bytes of an entity are its first one. -/
theorem lastZero_not_selectsBytes : ¬SelectsBytes none (kglString "bytes=-0") (.suffix 0) 10 := by
  rintro ⟨-, parsed, out, hparse, hout, hok⟩
  have hparsed : parseBytesRange none ((kglString "bytes=-0").drop 6) = some ⟨0, 0⟩ := by
    decide +kernel
  cases hparsed.symm.trans hparse
  have heq : kglAdjustRange ⟨0, 0⟩ 10 = some ⟨⟨0, 0⟩, 1, true⟩ := by decide +kernel
  cases heq.symm.trans hout
  cases hok

end Khttpd
