import Khttpd.Model.HttpTime

/-!
# What the parser of dates reads

`kgl_parse_http_time` compares its position with the end of the input in three places. What is
behind the position at each of them is enough for all that is read up to the next one.
-/

set_option autoImplicit false

namespace Khttpd

open MemoryProgram InPlace

variable {m : ℕ → Byte}

/-- The bytes from `p` to `q`. -/
def Between (p q a : ℕ) : Prop := p ≤ a ∧ a < q

theorem Between.mono {p q p' q' a : ℕ} (h : Between p q a) (hp : p' ≤ p) (hq : q ≤ q') :
    Between p' q' a := ⟨hp.trans h.1, h.2.trans_le hq⟩

theorem scanWeekday_reads (n p : ℕ) :
    Reads (Between p (p + n)) m (scanWeekday n p) fun r => p ≤ r.1 ∧ r.1 ≤ p + n := by
  induction n generalizing p with
  | zero => exact Reads.pure ⟨le_rfl, le_rfl⟩
  | succ n ih =>
    unfold scanWeekday
    refine (Reads.load (Q := fun _ => True) ⟨le_rfl, by omega⟩ trivial).bind fun c _ => ?_
    refine Reads.ite (fun _ => Reads.pure ⟨le_rfl, by omega⟩) fun _ => ?_
    refine Reads.ite (fun _ => Reads.pure ⟨le_rfl, by omega⟩) fun _ => ?_
    refine (ih (p + 1)).mono (fun a ha => ha.mono (by omega) (by omega)) ?_
    intro r hr
    omega

theorem skipBlanks_reads (n p : ℕ) :
    Reads (Between p (p + n)) m (skipBlanks n p) fun r => p ≤ r := by
  induction n generalizing p with
  | zero => exact Reads.pure le_rfl
  | succ n ih =>
    unfold skipBlanks
    refine (Reads.load (Q := fun _ => True) ⟨le_rfl, by omega⟩ trivial).bind fun c _ => ?_
    refine Reads.ite (fun _ => Reads.pure le_rfl) fun _ => ?_
    exact (ih (p + 1)).mono (fun a ha => ha.mono (by omega) (by omega)) fun r hr => by omega

theorem readDigits_reads (n p value : ℕ) :
    Reads (Between p (p + n)) m (readDigits n p value) fun _ => True := by
  induction n generalizing p value with
  | zero => exact Reads.pure trivial
  | succ n ih =>
    unfold readDigits
    refine (Reads.load (Q := fun _ => True) ⟨le_rfl, by omega⟩ trivial).bind fun c _ => ?_
    refine Reads.ite (fun _ => Reads.pure trivial) fun _ => ?_
    exact (ih (p + 1) _).mono (fun a ha => ha.mono (by omega) (by omega)) fun _ _ => trivial

section Parser

variable {value endp p : ℕ}

theorem load_reads (hlow : value ≤ p) (hhigh : p < endp) :
    Reads (Between value endp) m (load p) fun _ => True :=
  Reads.load ⟨hlow, hhigh⟩ trivial

theorem expect_reads (c : Byte) (hlow : value ≤ p) (hhigh : p < endp) :
    Reads (Between value endp) m (expect p c) fun _ => True :=
  (load_reads hlow hhigh).bind fun _ _ => Reads.pure trivial

theorem digits_reads (n v : ℕ) (hlow : value ≤ p) (hhigh : p + n ≤ endp) :
    Reads (Between value endp) m (readDigits n p v) fun _ => True :=
  (readDigits_reads n p v).mono (fun _ ha => ha.mono hlow hhigh) fun _ _ => trivial

/-- How many bytes are left where the month is. -/
def monthRoom : TimeFormat → ℕ
  | .isoc => 18
  | .rfc822 => 17
  | _ => 15

/-- How many bytes are left where the time is. -/
def clockRoom : TimeFormat → ℕ
  | .isoc => 14
  | _ => 9

/-- The position of a stage has enough bytes behind it. -/
def Leaves (value endp : ℕ) (room : TimeFormat → ℕ) (r : Option (TimeFields × ℕ)) : Prop :=
  ∀ f p, r = some (f, p) → value ≤ p ∧ p + room f.fmt ≤ endp

theorem Leaves.none {room : TimeFormat → ℕ} : Leaves value endp room none := by
  rintro f p h
  cases h

theorem Leaves.some {room : TimeFormat → ℕ} {f : TimeFields} (hlow : value ≤ p)
    (hroom : p + room f.fmt ≤ endp) : Leaves value endp room (some (f, p)) := by
  rintro f p h
  cases h
  exact ⟨hlow, hroom⟩

theorem readLeadingDay_reads (fields : TimeFields) (hlow : value ≤ p) (hroom : p + 18 ≤ endp) :
    Reads (Between value endp) m (readLeadingDay endp p fields) (Leaves value endp monthRoom) := by
  unfold readLeadingDay
  refine Reads.ite (fun hfmt => Reads.pure (Leaves.some hlow ?_)) fun _ => ?_
  · rw [hfmt]
    exact hroom
  · refine (digits_reads 2 0 hlow (by omega)).bind fun r _ => ?_
    cases r with
    | none => exact Reads.pure Leaves.none
    | some day =>
      refine (load_reads (by omega) (by omega)).bind fun c _ => ?_
      refine Reads.ite (fun _ => ?_) fun _ => ?_
      · refine Reads.ite (fun _ => Reads.pure Leaves.none) fun hend => ?_
        exact Reads.pure (Leaves.some (by omega) (by simp only [monthRoom]; omega))
      · refine Reads.ite (fun _ => ?_) fun _ => Reads.pure Leaves.none
        exact Reads.pure (Leaves.some (by omega) (by simp only [monthRoom]; omega))

theorem readMonth_reads (hlow : value ≤ p) (hroom : p + 3 ≤ endp) :
    Reads (Between value endp) m (readMonth p) fun _ => True := by
  unfold readMonth
  refine (load_reads hlow (by omega)).bind fun c _ => ?_
  split
  case h_1 =>
    refine (expect_reads 97 (by omega) (by omega)).bind fun a _ => ?_
    refine Reads.ite (fun _ => Reads.pure trivial) fun _ => ?_
    exact (expect_reads 110 (by omega) (by omega)).bind fun n _ => Reads.pure trivial
  case h_3 => exact (expect_reads 114 (by omega) (by omega)).bind fun r _ => Reads.pure trivial
  case h_4 => exact (expect_reads 112 (by omega) (by omega)).bind fun r _ => Reads.pure trivial
  all_goals exact Reads.pure trivial

theorem checkSeparator_reads (fmt : TimeFormat) (hlow : value ≤ p) (hroom : p < endp) :
    Reads (Between value endp) m (checkSeparator fmt p) fun _ => True := by
  cases fmt with
  | rfc822 => exact expect_reads 32 hlow hroom
  | rfc850 => exact expect_reads 45 hlow hroom
  | _ => exact Reads.pure trivial

/-- The year in front of the time leaves what the time needs. -/
theorem readYear_reads (fields : TimeFields) (hlow : value ≤ p)
    (hroom : p + (monthRoom fields.fmt - 4) ≤ endp) :
    Reads (Between value endp) m (readYear p fields) (Leaves value endp clockRoom) := by
  unfold readYear
  cases hfmt : fields.fmt <;> rw [hfmt] at hroom <;> simp only [monthRoom] at hroom ⊢
  case rfc822 =>
    refine (digits_reads 4 0 hlow (by omega)).bind fun r _ => ?_
    cases r with
    | none => exact Reads.pure Leaves.none
    | some year => exact Reads.pure (Leaves.some (by omega) (by simp only [clockRoom]; omega))
  case rfc850 =>
    refine (digits_reads 2 0 hlow (by omega)).bind fun r _ => ?_
    cases r with
    | none => exact Reads.pure Leaves.none
    | some year => exact Reads.pure (Leaves.some (by omega) (by simp only [clockRoom]; omega))
  all_goals exact Reads.pure (Leaves.some hlow (by simp only [hfmt, clockRoom]; omega))

theorem readIsocDigits_reads (hlow : value ≤ p) (hroom : p + 2 ≤ endp) :
    Reads (Between value endp) m (readIsocDigits p) fun r => ∀ d q, r =
      some (d, q) → value ≤ q := by
  have hnone : ∀ d q, (none : Option (ℕ × ℕ)) = some (d, q) → value ≤ q := by
    rintro d q h
    cases h
  unfold readIsocDigits
  refine (digits_reads 1 0 hlow (by omega)).bind fun day _ => ?_
  cases day with
  | none => exact Reads.pure hnone
  | some day =>
    refine (expect_reads 32 (by omega) (by omega)).bind fun blank _ => ?_
    refine Reads.ite (fun _ => Reads.pure ?_) fun _ => ?_
    · rintro d q h
      cases h
      omega
    · refine (digits_reads 1 day (by omega) (by omega)).bind fun r _ => ?_
      cases r with
      | none => exact Reads.pure hnone
      | some day =>
        refine Reads.pure ?_
        rintro d q h
        cases h
        omega

/-- The third comparison with the end is behind the day of `asctime`. -/
theorem readIsocDay_reads (fields : TimeFields) (hlow : value ≤ p)
    (hroom : p + clockRoom fields.fmt ≤ endp) :
    Reads (Between value endp) m (readIsocDay endp p fields) (Leaves value endp clockRoom) := by
  unfold readIsocDay
  refine Reads.ite (fun _ => Reads.pure (Leaves.some hlow hroom)) fun hfmt => ?_
  rw [not_not] at hfmt
  rw [hfmt, clockRoom] at hroom
  refine (expect_reads 32 hlow (by omega)).bind fun blank _ => ?_
  have hday : p ≤ (if blank = true then p + 1 else p) ∧
      (if blank = true then p + 1 else p) ≤ p + 1 := by split <;> omega
  refine (readIsocDigits_reads (by omega) (by omega)).bind fun r hr => ?_
  cases r with
  | none => exact Reads.pure Leaves.none
  | some r =>
    have hle := hr r.1 r.2 rfl
    refine Reads.ite (fun _ => Reads.pure Leaves.none) fun hend => ?_
    exact Reads.pure (Leaves.some hle (by rw [hfmt, clockRoom]; omega))

theorem readClock_reads (fields : TimeFields) (hlow : value ≤ p) (hroom : p + 9 ≤ endp) :
    Reads (Between value endp) m (readClock p fields) fun r =>
      ∀ f q, r = some (f, q) → f.fmt = fields.fmt ∧ q = p + 7 := by
  have hnone : ∀ f q, (none : Option (TimeFields × ℕ)) = some (f, q) →
      f.fmt = fields.fmt ∧ q = p + 7 := by
    rintro f q h
    cases h
  unfold readClock
  refine (expect_reads 32 hlow (by omega)).bind fun c _ => ?_
  refine Reads.ite (fun _ => Reads.pure hnone) fun _ => ?_
  refine (digits_reads 2 0 (by omega) (by omega)).bind fun hour _ => ?_
  cases hour with
  | none => exact Reads.pure hnone
  | some hour =>
    refine (expect_reads 58 (by omega) (by omega)).bind fun c _ => ?_
    refine Reads.ite (fun _ => Reads.pure hnone) fun _ => ?_
    refine (digits_reads 2 0 (by omega) (by omega)).bind fun min _ => ?_
    cases min with
    | none => exact Reads.pure hnone
    | some min =>
      refine (expect_reads 58 (by omega) (by omega)).bind fun c _ => ?_
      refine Reads.ite (fun _ => Reads.pure hnone) fun _ => ?_
      refine (digits_reads 2 0 (by omega) (by omega)).bind fun sec _ => ?_
      cases sec with
      | none => exact Reads.pure hnone
      | some sec =>
        refine Reads.pure ?_
        rintro f q h
        cases h
        exact ⟨rfl, rfl⟩

theorem readIsocYear_reads (fields : TimeFields) (hlow : value ≤ p)
    (hroom : fields.fmt = .isoc → p + 7 ≤ endp) :
    Reads (Between value endp) m (readIsocYear p fields) fun _ => True := by
  unfold readIsocYear
  refine Reads.ite (fun _ => Reads.pure trivial) fun hfmt => ?_
  rw [not_not] at hfmt
  have hleft := hroom hfmt
  refine (expect_reads 32 (by omega) (by omega)).bind fun c _ => ?_
  refine Reads.ite (fun _ => Reads.pure trivial) fun _ => ?_
  refine (digits_reads 4 0 (by omega) (by omega)).bind fun year _ => ?_
  cases year with
  | none => exact Reads.pure trivial
  | some year => exact Reads.pure trivial

theorem readFields_reads (fmt : TimeFormat) (hlow : value ≤ p) :
    Reads (Between value endp) m (readFields endp p fmt) fun _ => True := by
  unfold readFields
  refine Reads.ite (fun _ => Reads.pure trivial) fun hend => ?_
  refine (readLeadingDay_reads _ hlow (by omega)).bind fun r hr => ?_
  cases r with
  | none => exact Reads.pure trivial
  | some r =>
    obtain ⟨fields, p⟩ := r
    obtain ⟨hlow, hroom⟩ := hr fields p rfl
    have hmonth : 15 ≤ monthRoom fields.fmt := by cases fields.fmt <;> decide
    refine (readMonth_reads hlow (by omega)).bind fun month _ => ?_
    cases month with
    | none => exact Reads.pure trivial
    | some month =>
      refine (checkSeparator_reads fields.fmt (by omega) (by omega)).bind fun c _ => ?_
      refine Reads.ite (fun _ => Reads.pure trivial) fun _ => ?_
      refine (readYear_reads _ (by omega) (by simp only; omega)).bind fun r hr => ?_
      cases r with
      | none => exact Reads.pure trivial
      | some r =>
        obtain ⟨fields, p⟩ := r
        obtain ⟨hlow, hroom⟩ := hr fields p rfl
        refine (readIsocDay_reads fields hlow hroom).bind fun r hr => ?_
        cases r with
        | none => exact Reads.pure trivial
        | some r =>
          obtain ⟨fields, p⟩ := r
          obtain ⟨hlow, hroom⟩ := hr fields p rfl
          have hclock : 9 ≤ clockRoom fields.fmt := by cases fields.fmt <;> decide
          refine (readClock_reads fields hlow (by omega)).bind fun r hr => ?_
          cases r with
          | none => exact Reads.pure trivial
          | some r =>
            obtain ⟨hfmt, hp⟩ := hr r.1 r.2 rfl
            refine readIsocYear_reads r.1 (by omega) ?_
            intro hisoc
            rw [← hfmt, hisoc, clockRoom] at hroom
            omega

end Parser

/-- Every byte that is read, be it for the weekday or behind it, is in the input. -/
def ReadsInput (m : ℕ → Byte) (value len : ℕ) : Prop :=
  ∀ a ∈ (run (kglParseHttpTime value len) m).reads, value ≤ a ∧ a < value + len

/-- The parser reads nothing outside its input. -/
theorem kglParseHttpTime_readsInput (m : ℕ → Byte) (value len : ℕ) : ReadsInput m value len := by
  have hreads : Reads (Between value (value + len)) m (kglParseHttpTime value len)
      fun _ => True := by
    unfold kglParseHttpTime
    refine (scanWeekday_reads len value).bind fun r hr => ?_
    obtain ⟨p, fmt⟩ := r
    simp only at hr ⊢
    have hblanks : Reads (Between value (value + len)) m
        (skipBlanks (value + len - (p + 1)) (p + 1)) fun q => p + 1 ≤ q := by
      refine (skipBlanks_reads (value + len - (p + 1)) (p + 1)).mono ?_ fun _ h => h
      rintro a ⟨hlow, hhigh⟩
      exact ⟨by omega, by omega⟩
    refine hblanks.bind fun q hq => ?_
    refine (readFields_reads fmt (by omega)).bind fun fields _ => ?_
    cases fields with
    | none => exact Reads.pure trivial
    | some fields => exact Reads.pure trivial
  exact hreads.within

end Khttpd
