import Khttpd.Analysis.Url
import Khttpd.Analysis.MemoryBytes
import Khttpd.Lib.Calendar
import Khttpd.Model.HttpTime

/-!
# Dates of HTTP

What `kgl_parse_http_time` makes of a date in one of the three forms: the fields are read as they
are written, and the value is the instant that they denote, except for the day 00 and for January
and February of the year 0000. A date that `make_http_time` prints comes back.
-/

set_option autoImplicit false

namespace Khttpd

open MemoryProgram InPlace Calendar

/-! ## Dates in text -/

/-- A number in `n` digits. -/
structure Written (n value : ℕ) (text : Bytes) : Prop where
  length : text.length = n
  digits : ∀ c ∈ text, isDigit c = true
  value : decimalValue text = value

/-- The name of a month. -/
def monthName (month : ℕ) : Bytes := monthNames.getD month []

/-- A blank, and the time of the day. -/
inductive ClockText (d : DateTime) : Bytes → Prop
  | mk {hh mm ss : Bytes} (hhour : Written 2 d.hour hh) (hmin : Written 2 d.min mm)
      (hsec : Written 2 d.sec ss) : ClockText d (32 :: (hh ++ 58 :: (mm ++ 58 :: ss)))

/-- A date in the form of RFC 822, of RFC 850 or of `asctime`, with anything behind it. -/
inductive HttpDateText (d : DateTime) : Bytes → Prop
  | rfc822 {wkday dd yyyy clock : Bytes} (blanks : ℕ) (back : Bytes)
      (hwkday : ∀ c ∈ wkday, c ≠ 44 ∧ c ≠ 32) (hday : Written 2 d.day dd) (hmonth : d.month < 12)
      (hyear : Written 4 d.year yyyy) (hclock : ClockText d clock) :
      HttpDateText d (wkday ++ 44 :: (List.replicate blanks 32 ++ (dd ++ 32 :: (monthName d.month ++
        32 :: (yyyy ++ (clock ++ back))))))
  | rfc850 {wkday dd yy clock : Bytes} {short : ℕ} (blanks : ℕ) (back : Bytes)
      (hwkday : ∀ c ∈ wkday, c ≠ 44 ∧ c ≠ 32) (hday : Written 2 d.day dd) (hmonth : d.month < 12)
      (hshort : Written 2 short yy) (hyear : d.year = short + if short < 70 then 2000 else 1900)
      (hclock : ClockText d clock) :
      HttpDateText d (wkday ++ 44 :: (List.replicate blanks 32 ++ (dd ++ 45 :: (monthName d.month ++
        45 :: (yy ++ (clock ++ back))))))
  | asctime {wkday pad dd yyyy clock : Bytes} (blanks : ℕ) (back : Bytes)
      (hwkday : ∀ c ∈ wkday, c ≠ 44 ∧ c ≠ 32) (hmonth : d.month < 12) (hpad : pad = [] ∨ pad = [32])
      (hday : Written 1 d.day dd ∨ Written 2 d.day dd) (hclock : ClockText d clock)
      (hyear : Written 4 d.year yyyy) :
      HttpDateText d (wkday ++
        32 :: (List.replicate blanks 32 ++ (monthName d.month ++ 32 :: (pad ++
        (dd ++ (clock ++ 32 :: (yyyy ++ back)))))))

/-! ## Text in the memory -/

/-- The text stands at `a`. -/
def At (m : ℕ → Byte) (a : ℕ) (text : Bytes) : Prop := memRead m a text.length = text

/-- The program writes nothing and returns `x`. -/
def Gives {α : Type} (m : ℕ → Byte) (p : CProg α) (x : α) : Prop :=
  MemoryProgram.Reads (fun _ => True) m p (· = x)

section Text

variable {m : ℕ → Byte} {a p : ℕ} {c : Byte} {text front back : Bytes}

theorem At.append (h : At m a (front ++ back)) : At m a front ∧ At m (a + front.length) back := by
  unfold At at h
  rw [List.length_append, memRead_add] at h
  exact List.append_inj h (length_memRead m a front.length)

theorem At.cons (h : At m a (c :: text)) : m a = c ∧ At m (a + 1) text := by
  unfold At at h
  rw [List.length_cons, memRead_succ] at h
  exact List.cons.inj h

theorem Gives.pure {α : Type} (x : α) : Gives m (pure x) x := Reads.pure rfl

theorem Gives.bind {α β : Type} {p : CProg α} {f : α → CProg β} {x : α} {y : β} (hp : Gives m p x)
    (hf : Gives m (f x) y) : Gives m (p >>= f) y := Reads.bind_eq hp hf

theorem load_gives (h : m p = c) : Gives m (load p) c := Reads.load trivial h

theorem expect_gives (h : m p = c) : Gives m (expect p c) true := by
  refine (load_gives h).bind ?_
  rw [beq_self_eq_true]
  exact Gives.pure true

theorem expect_other {b : Byte} (h : m p = c) (hne : c ≠ b) : Gives m (expect p b) false := by
  refine (load_gives h).bind ?_
  rw [beq_eq_false_iff_ne.mpr hne]
  exact Gives.pure false

theorem readDigits_fold (hdigits : ∀ c ∈ text, isDigit c = true) : ∀ (p v : ℕ), At m p text →
    Gives m (readDigits text.length p v)
      (some (text.foldl (fun value c => value * 10 + (c.toNat - 48)) v)) := by
  induction text with
  | nil =>
    intro p v _
    exact Gives.pure _
  | cons c text ih =>
    intro p v hat
    obtain ⟨hc, hrest⟩ := hat.cons
    have hdigit := hdigits c List.mem_cons_self
    simp only [isDigit, Bool.and_eq_true, decide_eq_true_eq, UInt8.le_iff_toNat_le] at hdigit
    have htest : ¬(c < 48 ∨ c > 57) := by
      simp only [gt_iff_lt, UInt8.lt_iff_toNat_lt]
      have hlow : (48 : UInt8).toNat = 48 := rfl
      have hhigh : (57 : UInt8).toNat = 57 := rfl
      omega
    rw [List.length_cons, readDigits, List.foldl_cons]
    refine (load_gives hc).bind ?_
    rw [if_neg htest]
    exact ih (fun b hb => hdigits b (List.mem_cons_of_mem c hb)) (p + 1) _ hrest

theorem readDigits_gives {n value : ℕ} (hwritten : Written n value text) (hat : At m p text) :
    Gives m (readDigits n p 0) (some value) := by
  have h := readDigits_fold hwritten.digits p 0 hat
  rw [foldl_decimal, hwritten.value, hwritten.length] at h
  exact h

theorem scanWeekday_gives (hclean : ∀ c ∈ front, c ≠ 44 ∧ c ≠ 32) (hc : c = 44 ∨ c = 32) :
    ∀ (n p : ℕ), front.length < n → At m p (front ++ c :: back) →
      Gives m (scanWeekday n p) (p + front.length, if c = 44 then .nofmt else .isoc) := by
  induction front with
  | nil =>
    intro n p hn hat
    obtain ⟨n, rfl⟩ : ∃ k, n = k + 1 := ⟨n - 1, by simp only [List.length_nil] at hn; omega⟩
    obtain ⟨hfirst, -⟩ := At.cons hat
    unfold scanWeekday
    refine (load_gives hfirst).bind ?_
    rcases hc with rfl | rfl
    · exact Gives.pure _
    · exact Gives.pure _
  | cons b front ih =>
    intro n p hn hat
    obtain ⟨n, rfl⟩ : ∃ k, n = k + 1 := ⟨n - 1, by simp only [List.length_cons] at hn; omega⟩
    obtain ⟨hfirst, hrest⟩ := At.cons hat
    obtain ⟨hcomma, hblank⟩ := hclean b List.mem_cons_self
    have hback := ih (fun c hc => hclean c (List.mem_cons_of_mem b hc)) n (p + 1)
      (by simp only [List.length_cons] at hn; omega) hrest
    unfold scanWeekday
    refine (load_gives hfirst).bind ?_
    rw [if_neg hcomma, if_neg hblank, List.length_cons,
      show p + (front.length + 1) = p + 1 + front.length by omega]
    exact hback

theorem skipBlanks_gives (hc : c ≠ 32) : ∀ (blanks n p : ℕ), blanks < n →
    At m p (List.replicate blanks 32 ++ c :: back) → Gives m (skipBlanks n p) (p + blanks) := by
  intro blanks
  induction blanks with
  | zero =>
    intro n p hn hat
    obtain ⟨n, rfl⟩ : ∃ k, n = k + 1 := ⟨n - 1, by omega⟩
    obtain ⟨hfirst, -⟩ := At.cons hat
    unfold skipBlanks
    refine (load_gives hfirst).bind ?_
    rw [if_pos hc]
    exact Gives.pure _
  | succ blanks ih =>
    intro n p hn hat
    obtain ⟨n, rfl⟩ : ∃ k, n = k + 1 := ⟨n - 1, by omega⟩
    obtain ⟨hfirst, hrest⟩ := At.cons hat
    unfold skipBlanks
    refine (load_gives hfirst).bind ?_
    rw [if_neg (by simp), show p + (blanks + 1) = p + 1 + blanks by omega]
    exact ih n (p + 1) (by omega) hrest

end Text

/-! ## The stages of the parser -/

section Stages

variable {m : ℕ → Byte} {endp p : ℕ} {fields : TimeFields} {back : Bytes}

theorem Written.ne_nil {n value : ℕ} {text : Bytes} (h : Written (n + 1) value text) :
    text ≠ [] := by
  rintro rfl
  exact absurd h.length (by simp)

theorem readLeadingDay_gives {c : Byte} {dd : Bytes} {day : ℕ} (hfmt : fields.fmt ≠ .isoc)
    (hday : Written 2 day dd) (hat : At m p (dd ++ c :: back)) (hroom : c = 32 → p + 20 ≤ endp) :
    Gives m (readLeadingDay endp p fields)
      (if c = 32 then some ({ fields with day := day, fmt := .rfc822 }, p + 3)
      else if c = 45 then some ({ fields with day := day, fmt := .rfc850 }, p + 3) else none) := by
  obtain ⟨hdd, hrest⟩ := hat.append
  rw [hday.length] at hrest
  unfold readLeadingDay
  rw [if_neg hfmt]
  refine (readDigits_gives hday hdd).bind ?_
  refine (load_gives hrest.cons.1).bind ?_
  by_cases hblank : c = 32
  · have hleft := hroom hblank
    rw [if_pos hblank, if_pos hblank, if_neg (by omega)]
    exact Gives.pure _
  · rw [if_neg hblank, if_neg hblank]
    split <;> exact Gives.pure _

theorem readLeadingDay_isoc (hfmt : fields.fmt = .isoc) :
    Gives m (readLeadingDay endp p fields) (some (fields, p)) := by
  unfold readLeadingDay
  rw [if_pos hfmt]
  exact Gives.pure _

/-- Every month is told by its name. -/
theorem readMonth_gives {month : ℕ} (hmonth : month < 12) (hat : At m p (monthName month ++ back)) :
    Gives m (readMonth p) (some month) := by
  obtain ⟨hname, -⟩ := hat.append
  unfold readMonth
  interval_cases month
  all_goals
    obtain ⟨hfirst, hrest⟩ := hname.cons
    obtain ⟨hsecond, hlast⟩ := hrest.cons
    obtain ⟨hthird, -⟩ := hlast.cons
    refine (load_gives hfirst).bind ?_
  · exact (expect_gives hsecond).bind (Gives.pure _)
  · exact Gives.pure _
  · exact (expect_gives hthird).bind (Gives.pure _)
  · exact (expect_gives hsecond).bind (Gives.pure _)
  · exact (expect_other hthird (by decide)).bind (Gives.pure _)
  · exact (expect_other hsecond (by decide)).bind ((expect_gives hthird).bind (Gives.pure _))
  · exact (expect_other hsecond (by decide)).bind ((expect_other hthird (by decide)).bind
      (Gives.pure _))
  · exact (expect_other hsecond (by decide)).bind (Gives.pure _)
  · exact Gives.pure _
  · exact Gives.pure _
  · exact Gives.pure _
  · exact Gives.pure _

theorem length_monthName {month : ℕ} (hmonth : month < 12) : (monthName month).length = 3 := by
  interval_cases month <;> rfl

theorem readClock_gives {d : DateTime} {clock : Bytes} (hclock : ClockText d clock)
    (hat : At m p (clock ++ back)) :
    Gives m (readClock p fields)
      (some ({ fields with hour := d.hour, min := d.min, sec := d.sec }, p + 7)) := by
  obtain ⟨hhour, hmin, hsec⟩ := hclock
  obtain ⟨htext, -⟩ := hat.append
  obtain ⟨hblank, htext⟩ := htext.cons
  obtain ⟨hhh, htext⟩ := htext.append
  rw [hhour.length] at htext
  obtain ⟨hcolon, htext⟩ := htext.cons
  obtain ⟨hmm, htext⟩ := htext.append
  rw [hmin.length] at htext
  obtain ⟨hcolon', htext⟩ := htext.cons
  unfold readClock
  refine (expect_gives hblank).bind ((readDigits_gives hhour hhh).bind ?_)
  refine (expect_gives hcolon).bind ((readDigits_gives hmin hmm).bind ?_)
  exact (expect_gives hcolon').bind ((readDigits_gives hsec htext).bind (Gives.pure _))

theorem length_clock {d : DateTime} {clock : Bytes} (hclock : ClockText d clock) :
    clock.length = 9 := by
  obtain ⟨hhour, hmin, hsec⟩ := hclock
  simp [hhour.length, hmin.length, hsec.length]

theorem digit_not_blank {c : Byte} (h : isDigit c = true) : c ≠ 32 := by
  rintro rfl
  exact absurd h (by decide)

/-- One digit, or two. -/
theorem readIsocDigits_gives {dd : Bytes} {day : ℕ} (hday : Written 1 day dd ∨ Written 2 day dd)
    (hat : At m p (dd ++ 32 :: back)) :
    Gives m (readIsocDigits p) (some (day, p + dd.length)) := by
  unfold readIsocDigits
  rcases hday with hday | hday
  · obtain ⟨c, rfl⟩ := List.length_eq_one_iff.mp hday.length
    obtain ⟨hdd, hrest⟩ := hat.append
    refine (readDigits_gives hday hdd).bind ?_
    exact (expect_gives hrest.cons.1).bind (Gives.pure _)
  · obtain ⟨c, c', rfl⟩ := List.length_eq_two.mp hday.length
    obtain ⟨hfirst, hrest⟩ := At.cons hat
    obtain ⟨hsecond, -⟩ := At.cons hrest
    have hdigit : ∀ b ∈ [c, c'], isDigit b = true := hday.digits
    have hvalue := hday.value
    rw [← foldl_decimal] at hvalue
    have htens := readDigits_fold (show ∀ b ∈ [c], isDigit b = true by simp_all) p 0
      (show At m p [c] by simp [At, memRead, hfirst])
    have hunits := readDigits_fold (show ∀ b ∈ [c'], isDigit b = true by simp_all) (p + 1)
      (c.toNat - 48) (show At m (p + 1) [c'] by simp [At, memRead, hsecond])
    simp only [List.foldl_cons, List.foldl_nil, zero_mul, zero_add] at htens hunits hvalue
    rw [hvalue] at hunits
    refine htens.bind ?_
    refine (expect_other hsecond (digit_not_blank (hdigit c' (by simp)))).bind ?_
    exact hunits.bind (Gives.pure _)

/-- The day of `asctime`, with a blank in front of it or none. -/
theorem readIsocDay_gives {pad dd : Bytes} {day : ℕ} (hfmt : fields.fmt = .isoc)
    (hpad : pad = [] ∨ pad = [32]) (hday : Written 1 day dd ∨ Written 2 day dd)
    (hat : At m p (pad ++ (dd ++ 32 :: back)))
    (hroom : p + pad.length + dd.length + 14 ≤ endp) :
    Gives m (readIsocDay endp p fields)
      (some ({ fields with day := day }, p + pad.length + dd.length)) := by
  obtain ⟨hblank, hdd⟩ := hat.append
  have hdigits := readIsocDigits_gives hday hdd
  have hstart : Gives m (expect p 32) (decide (pad = [32])) := by
    rcases hpad with rfl | rfl
    · obtain ⟨c, rest, rfl⟩ : ∃ c rest, dd = c :: rest := by
        rcases hday with h | h <;> exact List.exists_cons_of_ne_nil h.ne_nil
      have hdigit : isDigit c = true := by
        rcases hday with h | h <;> exact h.digits c List.mem_cons_self
      exact expect_other (At.cons hdd).1 (digit_not_blank hdigit)
    · exact expect_gives hblank.cons.1
  have hat' : (if decide (pad = [32]) = true then p + 1 else p) = p + pad.length := by
    rcases hpad with rfl | rfl <;> rfl
  unfold readIsocDay
  rw [if_neg (by simp [hfmt])]
  refine hstart.bind ?_
  rw [hat']
  refine hdigits.bind ?_
  simp only
  rw [if_neg (by omega)]
  exact Gives.pure _

theorem readIsocYear_gives {yyyy : Bytes} {year : ℕ} (hfmt : fields.fmt = .isoc)
    (hyear : Written 4 year yyyy) (hat : At m (p + 2) (32 :: (yyyy ++ back))) :
    Gives m (readIsocYear p fields) (some { fields with year := year }) := by
  obtain ⟨hblank, hrest⟩ := hat.cons
  unfold readIsocYear
  rw [if_neg (by simp [hfmt])]
  exact (expect_gives hblank).bind ((readDigits_gives hyear hrest.append.1).bind (Gives.pure _))

theorem readYear_gives {n year : ℕ} {text : Bytes} (hwritten : Written n year text)
    (hat : At m p (text ++ back))
      (hfmt : fields.fmt = .rfc822 ∧ n = 4 ∨ fields.fmt = .rfc850 ∧ n = 2) :
    Gives m (readYear p fields) (some ({ fields with
      year := if n = 4 then year else year + if year < 70 then 2000 else 1900 }, p + n)) := by
  unfold readYear
  rcases hfmt with ⟨hfmt, rfl⟩ | ⟨hfmt, rfl⟩ <;> rw [hfmt]
  · exact (readDigits_gives hwritten hat.append.1).bind (Gives.pure _)
  · exact (readDigits_gives hwritten hat.append.1).bind (Gives.pure _)

end Stages

/-! ## The fields of a date -/

/-- A date as it is read. -/
def fieldsOf (fmt : TimeFormat) (d : DateTime) : TimeFields :=
  ⟨fmt, d.day, d.month, d.year, d.hour, d.min, d.sec⟩

section Fields

variable {m : ℕ → Byte} {endp p : ℕ} {back : Bytes} {d : DateTime}

theorem readFields_rfc822 {dd yyyy clock : Bytes} (hday : Written 2 d.day dd)
    (hmonth : d.month < 12)
    (hyear : Written 4 d.year yyyy) (hclock : ClockText d clock)
    (hat : At m p (dd ++ 32 :: (monthName d.month ++ 32 :: (yyyy ++ (clock ++ back)))))
    (hroom : p + 20 ≤ endp) :
    Gives m (readFields endp p .nofmt) (some (fieldsOf .rfc822 d)) := by
  have hmonthAt := hat.append.2.cons.2
  rw [hday.length] at hmonthAt
  have hyearAt := hmonthAt.append.2
  rw [length_monthName hmonth] at hyearAt
  have hclockAt := hyearAt.cons.2.append.2
  rw [hyear.length] at hclockAt
  unfold readFields
  rw [if_neg (by omega)]
  refine (readLeadingDay_gives (by simp) hday hat fun _ => hroom).bind ?_
  refine (readMonth_gives hmonth hmonthAt).bind ?_
  refine (expect_gives hyearAt.cons.1).bind ?_
  refine (readYear_gives hyear hyearAt.cons.2 (Or.inl ⟨rfl, rfl⟩)).bind ?_
  refine (Gives.pure _).bind ?_
  refine (readClock_gives hclock hclockAt).bind ?_
  exact Gives.pure _

theorem readFields_rfc850 {dd yy clock : Bytes} {short : ℕ} (hday : Written 2 d.day dd)
    (hmonth : d.month < 12) (hshort : Written 2 short yy)
    (hyear : d.year = short + if short < 70 then 2000 else 1900) (hclock : ClockText d clock)
    (hat : At m p (dd ++ 45 :: (monthName d.month ++ 45 :: (yy ++ (clock ++ back)))))
    (hroom : p + 18 ≤ endp) :
    Gives m (readFields endp p .nofmt) (some (fieldsOf .rfc850 d)) := by
  have hmonthAt := hat.append.2.cons.2
  rw [hday.length] at hmonthAt
  have hyearAt := hmonthAt.append.2
  rw [length_monthName hmonth] at hyearAt
  have hclockAt := hyearAt.cons.2.append.2
  rw [hshort.length] at hclockAt
  unfold readFields
  rw [if_neg (by omega)]
  refine (readLeadingDay_gives (by simp) hday hat (by simp)).bind ?_
  refine (readMonth_gives hmonth hmonthAt).bind ?_
  refine (expect_gives hyearAt.cons.1).bind ?_
  refine (readYear_gives hshort hyearAt.cons.2 (Or.inr ⟨rfl, rfl⟩)).bind ?_
  refine (Gives.pure _).bind ?_
  refine (readClock_gives hclock hclockAt).bind ?_
  rw [fieldsOf, hyear]
  exact Gives.pure _

theorem readFields_asctime {pad dd yyyy clock : Bytes} (hmonth : d.month < 12)
    (hpad : pad = [] ∨ pad = [32]) (hday : Written 1 d.day dd ∨ Written 2 d.day dd)
    (hclock : ClockText d clock) (hyear : Written 4 d.year yyyy)
    (hat : At m p (monthName d.month ++ 32 :: (pad ++ (dd ++ (clock ++ 32 :: (yyyy ++ back))))))
    (hroom : p + pad.length + dd.length + 18 ≤ endp) :
    Gives m (readFields endp p .isoc) (some (fieldsOf .isoc d)) := by
  have hdayAt := hat.append.2
  rw [length_monthName hmonth] at hdayAt
  have hdayAt := hdayAt.cons.2
  have hclockAt := hdayAt.append.2.append.2
  have hyearAt := hclockAt.append.2
  rw [length_clock hclock] at hyearAt
  have hdd : 1 ≤ dd.length := by
    rcases hday with h | h <;> rw [h.length]
    omega
  obtain ⟨clock', rfl⟩ : ∃ clock', clock = 32 :: clock' := by
    obtain ⟨-, -, -⟩ := hclock
    exact ⟨_, rfl⟩
  unfold readFields
  rw [if_neg (by omega)]
  refine (readLeadingDay_isoc rfl).bind ?_
  refine (readMonth_gives hmonth hat).bind ?_
  refine (Gives.pure _).bind ?_
  refine (Gives.pure _).bind ?_
  refine (readIsocDay_gives rfl hpad hday hdayAt (by omega)).bind ?_
  refine (readClock_gives hclock hclockAt).bind ?_
  exact readIsocYear_gives rfl hyear hyearAt

end Fields

/-- What stands in front of the day or of the month. -/
theorem kglParseHttpTime_start {m : ℕ → Byte} {value len : ℕ} {wkday body : Bytes} {c : Byte}
    {blanks : ℕ} (hwkday : ∀ c ∈ wkday, c ≠ 44 ∧ c ≠ 32) (hc : c = 44 ∨ c = 32)
    (hbody : ∃ first back, body = first :: back ∧ first ≠ 32)
    (hat : At m value (wkday ++ c :: (List.replicate blanks 32 ++ body)))
    (hlen : len = wkday.length + 1 + blanks + body.length) {fields : TimeFields}
    (hfields : At m (value + wkday.length + 1 + blanks) body →
      Gives m (readFields (value + len) (value + wkday.length + 1 + blanks)
        (if c = 44 then .nofmt else .isoc)) (some fields)) :
    Gives m (kglParseHttpTime value len)
      (if checkFields fields then fieldsTime fields else -1) := by
  have hblanks := hat.append.2.cons.2
  have hstart := hblanks.append.2
  rw [List.length_replicate] at hstart
  obtain ⟨first, back, rfl, hfirst⟩ := hbody
  simp only [List.length_cons] at hlen
  unfold kglParseHttpTime
  refine (scanWeekday_gives hwkday hc len value (by omega) hat).bind ?_
  refine (skipBlanks_gives hfirst blanks _ _ (by omega) hblanks).bind ?_
  exact (hfields hstart).bind (Gives.pure _)

theorem Written.starts {n value : ℕ} {dd : Bytes} (h : Written (n + 1) value dd) (back : Bytes) :
    ∃ first rest, dd ++ back = first :: rest ∧ first ≠ 32 := by
  obtain ⟨c, rest, rfl⟩ := List.exists_cons_of_ne_nil h.ne_nil
  exact ⟨c, rest ++ back, rfl, digit_not_blank (h.digits c List.mem_cons_self)⟩

theorem monthName_starts {month : ℕ} (hmonth : month < 12) (back : Bytes) :
    ∃ first rest, monthName month ++ back = first :: rest ∧ first ≠ 32 := by
  interval_cases month <;> exact ⟨_, _, rfl, by decide⟩

/-- A date in one of the three forms is read as it is written. -/
theorem kglParseHttpTime_text {m : ℕ → Byte} {value : ℕ} {d : DateTime} {text : Bytes}
    (htext : HttpDateText d text) (hat : At m value text) : ∃ fmt,
      (run (kglParseHttpTime value text.length) m).value =
        if checkFields (fieldsOf fmt d) then fieldsTime (fieldsOf fmt d) else -1 := by
  cases htext with
  | @rfc822 wkday dd yyyy clock blanks back hwkday hday hmonth hyear hclock =>
    refine ⟨.rfc822, (kglParseHttpTime_start hwkday (Or.inl rfl) (hday.starts _) hat ?_
      fun hstart => readFields_rfc822 hday hmonth hyear hclock hstart ?_).post⟩
    · simp only [List.length_append, List.length_cons, List.length_replicate]
      omega
    · simp only [List.length_append, List.length_cons, List.length_replicate, hday.length,
        hyear.length, length_monthName hmonth, length_clock hclock]
      omega
  | @rfc850 wkday dd yy clock short blanks back hwkday hday hmonth hshort hyear hclock =>
    refine ⟨.rfc850, (kglParseHttpTime_start hwkday (Or.inl rfl) (hday.starts _) hat ?_
      fun hstart => readFields_rfc850 hday hmonth hshort hyear hclock hstart ?_).post⟩
    · simp only [List.length_append, List.length_cons, List.length_replicate]
      omega
    · simp only [List.length_append, List.length_cons, List.length_replicate, hday.length,
        hshort.length, length_monthName hmonth, length_clock hclock]
      omega
  | @asctime wkday pad dd yyyy clock blanks back hwkday hmonth hpad hday hclock hyear =>
    refine ⟨.isoc, (kglParseHttpTime_start hwkday (Or.inr rfl) (monthName_starts hmonth _) hat ?_
      fun hstart => readFields_asctime hmonth hpad hday hclock hyear hstart ?_).post⟩
    · simp only [List.length_append, List.length_cons, List.length_replicate]
      omega
    · simp only [List.length_append, List.length_cons, List.length_replicate, hyear.length,
        length_monthName hmonth, length_clock hclock]
      omega

/-! ## The fields as an instant -/

theorem decimalValue_lt {text : Bytes} (hdigits : ∀ c ∈ text, isDigit c = true) :
    decimalValue text < 10 ^ text.length := by
  have h := Nat.ofDigits_lt_base_pow_length (b := 10)
    (l := text.reverse.map fun c => c.toNat - 48) (by decide) ?_
  · simpa [decimalValue] using h
  · intro n hn
    obtain ⟨c, hc, rfl⟩ := List.mem_map.mp hn
    have hdigit := hdigits c (List.mem_reverse.mp hc)
    simp only [isDigit, Bool.and_eq_true, decide_eq_true_eq, UInt8.le_iff_toNat_le] at hdigit
    have hhigh : c.toNat ≤ 57 := hdigit.2
    omega

theorem Written.lt {n value : ℕ} {text : Bytes} (h : Written n value text) : value < 10 ^ n := by
  rw [← h.value, ← h.length]
  exact decimalValue_lt h.digits

/-- The fields that fit into the text of a date. -/
structure Bounded (d : DateTime) : Prop where
  year : d.year < 10000
  month : d.month < 12
  day : d.day < 100
  hour : d.hour < 100
  min : d.min < 100
  sec : d.sec < 100

theorem HttpDateText.bounded {d : DateTime} {text : Bytes} (h : HttpDateText d text) :
    Bounded d := by
  cases h with
  | rfc822 blanks back hwkday hday hmonth hyear hclock =>
    obtain ⟨hhour, hmin, hsec⟩ := hclock
    exact ⟨hyear.lt, hmonth, hday.lt, hhour.lt, hmin.lt, hsec.lt⟩
  | rfc850 blanks back hwkday hday hmonth hshort hyear hclock =>
    obtain ⟨hhour, hmin, hsec⟩ := hclock
    have hlt := hshort.lt
    refine ⟨?_, hmonth, hday.lt, hhour.lt, hmin.lt, hsec.lt⟩
    rw [hyear]
    split <;> omega
  | asctime blanks back hwkday hmonth hpad hday hclock hyear =>
    obtain ⟨hhour, hmin, hsec⟩ := hclock
    refine ⟨hyear.lt, hmonth, ?_, hhour.lt, hmin.lt, hsec.lt⟩
    rcases hday with h | h
    · exact h.lt.trans (by decide)
    · exact h.lt

/-- The date exists or has the day 0, and the time exists. -/
structure InRange (d : DateTime) : Prop where
  day : d.day ≤ monthLength d.year d.month
  hour : d.hour < 24
  min : d.min < 60
  sec : d.sec < 60

theorem leap_test (year : ℕ) :
    (!(year &&& 3 != 0 || year % 100 == 0 && year % 400 != 0)) = decide (IsLeap year) := by
  have hland : year &&& 3 = year % 4 := Nat.and_two_pow_sub_one_eq_mod year 2
  rw [hland, Bool.eq_iff_iff, decide_eq_true_eq]
  unfold IsLeap
  simp only [Bool.not_eq_true', Bool.or_eq_false_iff, bne_eq_false_iff_eq, Bool.and_eq_false_iff,
    beq_eq_false_iff_ne]
  tauto

/-- The table of the months, and the test for the day that it leaves out. -/
theorem day_test (year day : ℕ) {month : ℕ} (hmonth : month < 12) :
    (if day = 29 ∧ month = 1 then decide (IsLeap year) else decide (day ≤ mday.getD month 0)) =
      true ↔
      day ≤ monthLength year month := by
  by_cases hfebruary : month = 1
  · subst hfebruary
    by_cases hlast : day = 29
    · rw [if_pos ⟨hlast, rfl⟩, decide_eq_true_eq, hlast, monthLength]
      split <;> simp_all
    · rw [if_neg fun h => hlast h.1, decide_eq_true_eq]
      simp only [mday, monthLength, List.getD_cons_succ, List.getD_cons_zero]
      split <;> omega
  · rw [if_neg fun h => hfebruary h.2, decide_eq_true_eq]
    have hsame : mday.getD month 0 = monthLength year month := by
      interval_cases month <;> first | rfl | exact absurd rfl hfebruary
    rw [hsame]

theorem checkFields_iff (fmt : TimeFormat) {d : DateTime} (hmonth : d.month < 12) :
    checkFields (fieldsOf fmt d) = true ↔ InRange d := by
  have htest := day_test d.year d.day hmonth
  unfold checkFields fieldsOf
  simp only [leap_test]
  by_cases htime : d.hour > 23 ∨ d.min > 59 ∨ d.sec > 59
  · rw [if_pos htime]
    refine iff_of_false Bool.false_ne_true ?_
    rintro ⟨-, hhour, hmin, hsec⟩
    omega
  · rw [if_neg htime, htest]
    constructor
    · intro hday
      exact ⟨hday, by omega, by omega, by omega⟩
    · intro h
      exact h.day

/-- The instant of a date, of which the day may be 0. -/
def instant (d : DateTime) : ℤ :=
  ((daysBeforeYear d.year + daysBeforeMonth d.year d.month : ℕ) +
    (d.day : ℤ) - 1 - 719528) * 86400 +
    (d.hour * 3600 + d.min * 60 + d.sec : ℕ)

theorem instant_eq {d : DateTime} (hday : 0 < d.day) : instant d = d.timestamp := by
  unfold instant DateTime.timestamp DateTime.dayNumber
  omega

/-- Gauss' formula is right, but where the year in which March was goes below zero. -/
theorem fieldsTime_eq (fmt : TimeFormat) {d : DateTime} (hd : Bounded d)
    (hmarch : 0 < d.year ∨ 2 ≤ d.month) : fieldsTime (fieldsOf fmt d) = instant d := by
  obtain ⟨hyear, hmonth, hday, hhour, hmin, hsec⟩ := hd
  unfold fieldsTime fieldsOf
  simp only
  by_cases hearly : d.month ≤ 1
  · obtain ⟨year, hsucc⟩ : ∃ year, d.year = year + 1 := ⟨d.year - 1, by omega⟩
    have hwrap : (d.year + (2 ^ 64 - 1)) % 2 ^ 64 = year := by omega
    have hnumber := marchNumber_early year 1 (show d.month < 2 by omega) one_pos
    unfold instant
    rw [if_pos hearly, if_pos hearly, hwrap, hsucc]
    unfold marchNumber at hnumber
    rw [Int.bmod_eq_of_le] <;> omega
  · have hnumber := marchNumber_late d.year 1 (show 2 ≤ d.month by omega) hmonth one_pos
    unfold instant
    rw [if_neg hearly, if_neg hearly]
    unfold marchNumber at hnumber
    rw [Int.bmod_eq_of_le] <;> omega

/-- There the years are counted from the largest number. -/
theorem fieldsTime_yearZero (fmt : TimeFormat) {d : DateTime} (hd : Bounded d) (hyear : d.year = 0)
    (hmonth : d.month < 2) : fieldsTime (fieldsOf fmt d) = instant d + 10368 := by
  obtain ⟨-, -, hday, hhour, hmin, hsec⟩ := hd
  have hbefore : daysBeforeMonth 0 d.month = 31 * d.month := by interval_cases d.month <;> rfl
  unfold fieldsTime fieldsOf instant
  simp only
  rw [if_pos (show d.month ≤ 1 by omega), if_pos (show d.month ≤ 1 by omega), hyear, hbefore,
    daysBeforeYear]
  -- the sum is taken around the range a number of times
  refine Eq.trans (congrArg (Int.bmod · (2 ^ 64)) (show _ =
    (((0 + 31 * d.month : ℕ) + (d.day : ℤ) - 1 - 719528) * 86400 +
      (d.hour * 3600 + d.min * 60 + d.sec : ℕ) + 10368) + ((2 ^ 64 : ℕ) : ℤ) * 31556952 by omega))
        ?_
  rw [Int.add_mul_bmod_self_left, Int.bmod_eq_of_le] <;> omega

/-! ## Accepted dates -/

/-- The date is refused, or it exists and the value is its instant, which no other date has. -/
def RealDate (d : DateTime) (value : ℤ) : Prop :=
  value = -1 ∨ d.Valid ∧ value = d.timestamp ∧ ∀ e : DateTime, e.Valid → e.timestamp = value → e = d

theorem realDate_timestamp {d : DateTime} (hd : d.Valid) : RealDate d d.timestamp :=
  Or.inr ⟨hd, rfl, fun _ he h => timestamp_injective he hd h⟩

theorem valid_iff_inRange {d : DateTime} (hmonth : d.month < 12) :
    d.Valid ↔ InRange d ∧ 0 < d.day := by
  constructor
  · rintro ⟨-, hpos, hday, hhour, hmin, hsec⟩
    exact ⟨⟨hday, hhour, hmin, hsec⟩, hpos⟩
  · rintro ⟨⟨hday, hhour, hmin, hsec⟩, hpos⟩
    exact ⟨hmonth, hpos, hday, hhour, hmin, hsec⟩

/-- The day 00 is the one before the first of the month, so it is told from a refusal unless it is
the last second before the epoch. -/
theorem instant_dayZero {d : DateTime} (hmonth : d.month < 12) (hd : InRange d) (hday : d.day = 0) :
    instant d = -1 ↔ d = ⟨1970, 0, 0, 23, 59, 59⟩ := by
  obtain ⟨-, hhour, hmin, hsec⟩ := hd
  constructor
  · intro h
    unfold instant at h
    have hnumber : daysBeforeYear d.year + daysBeforeMonth d.year d.month = 719528 := by omega
    have hfirst : DateTime.Valid ⟨d.year, d.month, 1, 0, 0, 0⟩ := by
      refine ⟨hmonth, one_pos, ?_, by simp, by simp, by simp⟩
      simp only [monthLength]
      split <;> first | omega | (split <;> omega)
    have hepoch : DateTime.Valid ⟨1970, 0, 1, 0, 0, 0⟩ := by
      refine ⟨by simp, one_pos, by decide, by simp, by simp, by simp⟩
    obtain ⟨hyear, hzero, -⟩ := date_of_dayNumber hfirst hepoch (by
      simp only [DateTime.dayNumber, daysBeforeYear_epoch, daysBeforeMonth]
      omega)
    simp only at hyear hzero
    cases d
    simp only [DateTime.mk.injEq] at *
    omega
  · rintro rfl
    unfold instant
    rw [daysBeforeYear_epoch]
    rfl

/-- A date in one of the three forms is refused or read as the instant that it denotes, unless it is
otherwise in range and has the day 00, or is in January or February of the year 0000. -/
theorem realDate_iff {m : ℕ → Byte} {value : ℕ} {d : DateTime} {text : Bytes}
    (htext : HttpDateText d text) (hat : At m value text) :
    RealDate d (run (kglParseHttpTime value text.length) m).value ↔
      ¬InRange d ∨ 0 < d.day ∧ (0 < d.year ∨ 2 ≤ d.month) ∨ d = ⟨1970, 0, 0, 23, 59, 59⟩ := by
  obtain ⟨fmt, hvalue⟩ := kglParseHttpTime_text htext hat
  have hd := htext.bounded
  rw [hvalue]
  by_cases hrange : InRange d
  · rw [if_pos ((checkFields_iff fmt hd.month).mpr hrange)]
    have hmonth := hd.month
    by_cases hmarch : 0 < d.year ∨ 2 ≤ d.month
    · rw [fieldsTime_eq fmt hd hmarch]
      by_cases hday : 0 < d.day
      · rw [instant_eq hday]
        exact iff_of_true (realDate_timestamp ((valid_iff_inRange hmonth).mpr ⟨hrange, hday⟩))
          (Or.inr (Or.inl ⟨hday, hmarch⟩))
      · have hzero := instant_dayZero hmonth hrange (by omega)
        constructor
        · rintro (h | ⟨hvalid, -⟩)
          · exact Or.inr (Or.inr (hzero.mp h))
          · exact absurd hvalid.day_pos hday
        · rintro (h | ⟨h, -⟩ | h)
          · exact absurd hrange h
          · exact absurd h hday
          · exact Or.inl (hzero.mpr h)
    · rw [fieldsTime_yearZero fmt hd (by omega) (by omega)]
      refine iff_of_false ?_ ?_
      · have hsmall : daysBeforeYear d.year + daysBeforeMonth d.year d.month ≤ 60 := by
          have hyear : d.year = 0 := by omega
          have hmono := daysBeforeMonth_mono d.year (show d.month ≤ 2 by omega)
          have htwo : daysBeforeMonth 0 2 = 60 := by decide
          rw [hyear] at hmono ⊢
          rw [daysBeforeYear]
          omega
        obtain ⟨-, -, hday, hhour, hmin, hsec⟩ := hd
        rintro (h | ⟨hvalid, h, -⟩)
        · unfold instant at h
          omega
        · rw [instant_eq hvalid.day_pos] at h
          omega
      · rintro (h | ⟨-, h⟩ | h)
        · exact h hrange
        · exact hmarch h
        · rw [h] at hmarch
          exact hmarch (Or.inl (by decide))
  · have hchecks : ¬checkFields (fieldsOf fmt d) = true :=
      fun h => hrange ((checkFields_iff fmt hd.month).mp h)
    rw [if_neg hchecks]
    exact iff_of_true (Or.inl rfl) (Or.inl hrange)

/-! ## Printed dates -/

/-- `%02d` of a number that is not negative. -/
def twoDigits (value : ℕ) : Bytes :=
  List.replicate (2 - (decimal value).length) 48 ++ decimal value

theorem written_twoDigits {value : ℕ} (h : value < 100) : Written 2 value (twoDigits value) := by
  have hall : ∀ v < 100, ((twoDigits v).length == 2 && (twoDigits v).all isDigit &&
      decimalValue (twoDigits v) == v) = true := by decide +kernel
  have hvalue := hall value h
  simp only [Bool.and_eq_true, beq_iff_eq] at hvalue
  exact ⟨hvalue.1.1, List.all_eq_true.mp hvalue.1.2, hvalue.2⟩

theorem written_year {year : ℕ} (hlow : 1000 ≤ year) (hhigh : year < 10000) :
    Written 4 year (decimal year) := by
  refine ⟨?_, (digits_decimal year).all, decimalValue_decimal year⟩
  have hle := (Nat.length_toDigits_le_iff (b := 10) (k := 4) (n := year) (by decide)
    (by decide)).mpr hhigh
  have hgt := mt (Nat.length_toDigits_le_iff (b := 10) (k := 3) (n := year) (by decide)
    (by decide)).mp (by omega)
  rw [decimal, List.length_map]
  omega

/-- The text of a date, in the form of RFC 822. -/
def dateText (wday : ℕ) (d : DateTime) : Bytes :=
  dayNames.getD wday [] ++ 44 :: (List.replicate 1 32 ++ (twoDigits d.day ++ 32 ::
    (monthName d.month ++ 32 :: (decimal d.year ++ ((32 :: (twoDigits d.hour ++ 58 ::
      (twoDigits d.min ++ 58 :: twoDigits d.sec))) ++ kglString " GMT")))))

theorem dayName_clean {wday : ℕ} (hwday : wday < 7) : (dayNames.getD wday []).length = 3 ∧
    ∀ c ∈ dayNames.getD wday [], c ≠ 44 ∧ c ≠ 32 := by
  interval_cases wday <;> refine ⟨rfl, ?_⟩ <;> simp [dayNames, kglString]

theorem httpDateText_dateText {d : DateTime} {wday : ℕ} (hwday : wday < 7) (hd : Bounded d)
    (hyear : 1000 ≤ d.year) : HttpDateText d (dateText wday d) :=
  .rfc822 1 (kglString " GMT") (dayName_clean hwday).2 (written_twoDigits hd.day) hd.month
    (written_year hyear hd.year)
    (.mk (written_twoDigits hd.hour) (written_twoDigits hd.min) (written_twoDigits hd.sec))

theorem length_dateText {d : DateTime} {wday : ℕ} (hwday : wday < 7) (hd : Bounded d)
    (hyear : 1000 ≤ d.year) : (dateText wday d).length = 29 := by
  have hgmt : (kglString " GMT").length = 4 := by decide
  simp only [dateText, List.length_append, List.length_cons, List.length_replicate,
    (dayName_clean hwday).1, (written_twoDigits hd.day).length, length_monthName hd.month,
    (written_year hyear hd.year).length, (written_twoDigits hd.hour).length,
    (written_twoDigits hd.min).length, (written_twoDigits hd.sec).length, hgmt]

/-! ### `kgl_vslprintf` -/

/-- The format prints `out` into every buffer that holds it. -/
def Prints (fmt : Bytes) (args : List PrintArg) (out : Bytes) : Prop :=
  ∀ room, out.length ≤ room → kglVslprintf room fmt args = some out

theorem Prints.nil (args : List PrintArg) : Prints [] args [] := by
  intro room _
  simp [kglVslprintf]

theorem Prints.plain {c : Byte} {fmt out : Bytes} {args : List PrintArg} (hc : c ≠ 37)
    (h : Prints fmt args out) : Prints (c :: fmt) args (c :: out) := by
  intro room hroom
  rw [List.length_cons] at hroom
  have hrest := h (room - 1) (by omega)
  rw [kglVslprintf, if_neg (by omega), hrest]
  · rfl
  · exact hc

/-- A conversion, with the digits of its width in front. -/
theorem Prints.conversion (width : Bytes) {fmt out back : Bytes} {c : Byte} {arg : PrintArg}
    {args : List PrintArg} (hwidth : ∀ b ∈ width, isDigit b = true) (hc : isDigit c = false)
    (hne : out ≠ [])
    (hconvert : ∀ room, out.length ≤ room →
      convert room (if width.head? = some 48 then 48 else 32) (decimalValue width) c arg = some out)
    (h : Prints fmt args back) :
    Prints (37 :: (width ++ c :: fmt)) (arg :: args) (out ++ back) := by
  intro room hroom
  rw [List.length_append] at hroom
  have hpos := List.length_pos_iff.mpr hne
  have hdrop : (width ++ c :: fmt).dropWhile isDigit = c :: fmt :=
    (takeWhile_append_stop hwidth (by simpa using hc)).2
  have hhead : (width ++ c :: fmt).head? = some 48 ↔ width.head? = some 48 := by
    cases width with
    | nil =>
      simp only [List.nil_append, List.head?_cons, Option.some.injEq, List.head?_nil, reduceCtorEq,
        iff_false]
      rintro rfl
      exact absurd hc (by decide)
    | cons b width => simp
  rw [kglVslprintf, if_neg (by omega)]
  simp only [hhead]
  split
  · rename_i conversion rest arg' args' hrest hargs
    rw [hdrop] at hrest
    cases hrest
    cases hargs
    rw [kglAtol_digits _ hwidth (by simpa using hc), hconvert room (by omega)]
    have hback := h (room - out.length) (by omega)
    simp [hback]
  · rename_i hno
    exact absurd rfl (hno c fmt arg args hdrop)

theorem convert_str {s : Bytes} {room : ℕ} (h : s.length ≤ room) (zero : Byte) (width : ℕ) :
    convert room zero width 115 (.str s) = some s := by
  rw [convert, if_pos rfl, kglSprintfStr, List.take_of_length_le h]

theorem convert_int (value width : ℕ) (zero : Byte) {room : ℕ}
    (h : (List.replicate (width - (decimal value).length) zero ++ decimal value).length ≤ room) :
    convert room zero width 100 (.int value) =
      some (List.replicate (width - (decimal value).length) zero ++ decimal value) := by
  have hsign : ¬(value : ℤ) < 0 := by omega
  simp only [convert, if_true, if_neg hsign, List.nil_append, List.length_nil, Nat.sub_zero,
    kglSprintfNum, Int.natAbs_natCast]
  rw [List.take_of_length_le h]

theorem Prints.str {fmt s back : Bytes} {args : List PrintArg} (hne : s ≠ [])
    (h : Prints fmt args back) : Prints (37 :: 115 :: fmt) (.str s :: args) (s ++ back) :=
  Prints.conversion [] (by simp) (by decide) hne
    (fun _ hroom => convert_str hroom _ _) h

theorem Prints.int {fmt back : Bytes} {args : List PrintArg} (value : ℕ)
    (h : Prints fmt args back) :
    Prints (37 :: 100 :: fmt) (.int value :: args) (decimal value ++ back) := by
  refine Prints.conversion [] (by simp) (by decide) (digits_decimal value).nonempty ?_ h
  intro room hroom
  have hconvert := convert_int value 0 32 (by simpa using hroom)
  simpa [decimalValue] using hconvert

theorem Prints.two {fmt back : Bytes} {args : List PrintArg} (value : ℕ)
    (h : Prints fmt args back) :
    Prints (37 :: 48 :: 50 :: 100 :: fmt) (.int value :: args) (twoDigits value ++ back) := by
  have hne : twoDigits value ≠ [] := by
    simp [twoDigits, (digits_decimal value).nonempty]
  have hwidth : decimalValue [48, 50] = 2 := by decide
  refine Prints.conversion [48, 50] (by simp [isDigit]) (by decide) hne ?_ h
  intro room hroom
  rw [hwidth]
  exact convert_int value 2 48 hroom

/-! ## The round trip -/

/-- `struct tm` of a date. The first of January of year 0 is a Saturday. -/
def utcTm (d : DateTime) : Tm where
  wday := ((d.dayNumber + 6) % 7 : ℕ)
  mday := d.day
  mon := d.month
  year := d.year - 1900
  hour := d.hour
  min := d.min
  sec := d.sec

/-- `tm` is the date of the instant in the proleptic Gregorian calendar. -/
def IsUtc (time : ℤ) (tm : Tm) : Prop :=
  ∃ d : DateTime, d.Valid ∧ d.timestamp = time ∧ tm = utcTm d

theorem bounded_of_valid {d : DateTime} (hd : d.Valid) (hyear : d.year ≤ 9999) : Bounded d := by
  obtain ⟨hmonth, -, hday, hhour, hmin, hsec⟩ := hd
  have hlength : monthLength d.year d.month ≤ 31 := by
    unfold monthLength
    split <;> first | omega | (split <;> omega)
  exact ⟨by omega, hmonth, by omega, by omega, by omega, by omega⟩

/-- The format of `make_http_time`, on the fields of a date. -/
theorem prints_dateText {d : DateTime} {wday : ℕ} (hwday : wday < 7) (hd : Bounded d) :
    Prints (kglString "%s, %02d %s %d %02d:%02d:%02d GMT")
      [.str (dayNames.getD wday []), .int d.day, .str (monthName d.month), .int d.year, .int d.hour,
        .int d.min, .int d.sec] (dateText wday d) := by
  have hname : dayNames.getD wday [] ≠ [] :=
    List.length_pos_iff.mp ((dayName_clean hwday).1 ▸ by decide)
  have hmonth : monthName d.month ≠ [] :=
    List.length_pos_iff.mp (length_monthName hd.month ▸ by decide)
  have hfmt : kglString "%s, %02d %s %d %02d:%02d:%02d GMT" =
      [37, 115, 44, 32, 37, 48, 50, 100, 32, 37, 115, 32, 37, 100, 32, 37, 48, 50, 100, 58, 37, 48,
        50, 100, 58, 37, 48, 50, 100, 32, 71, 77, 84] := by decide
  have hgmt : kglString " GMT" = [32, 71, 77, 84] := by decide
  have hblank {fmt out : Bytes} {args : List PrintArg} (h : Prints fmt args out) :
      Prints (32 :: fmt) args (32 :: out) := Prints.plain (by decide) h
  have hcolon {fmt out : Bytes} {args : List PrintArg} (h : Prints fmt args out) :
      Prints (58 :: fmt) args (58 :: out) := Prints.plain (by decide) h
  have hend : Prints [32, 71, 77, 84] [] [32, 71, 77, 84] := by
    refine hblank ?_
    iterate 3 refine Prints.plain (by decide) ?_
    exact Prints.nil []
  have hclock := Prints.two d.hour (hcolon (Prints.two d.min (hcolon (Prints.two d.sec hend))))
  have hdate := Prints.two d.day (hblank (Prints.str hmonth (hblank (Prints.int d.year
    (hblank hclock)))))
  have hall := Prints.str hname (Prints.plain (show (44 : Byte) ≠ 37 by decide) (hblank hdate))
  rw [hfmt]
  simpa [dateText, hgmt] using hall

/-- What `make_http_time` prints. -/
theorem makeHttpTime_eq {gmtime : ℤ → Tm} {time : ℤ} {d : DateTime} (htm : gmtime time = utcTm d)
    (hd : Bounded d) (hyear : 1000 ≤ d.year) {size : ℕ} (hsize : 29 ≤ size) :
    makeHttpTime gmtime time size = some (dateText ((d.dayNumber + 6) % 7) d) := by
  have hwday : (d.dayNumber + 6) % 7 < 7 := Nat.mod_lt _ (by decide)
  have hyearInt : (d.year : ℤ) - 1900 + 1900 = (d.year : ℕ) := by omega
  unfold makeHttpTime
  rw [htm]
  simp only [utcTm, hyearInt, Int.toNat_natCast]
  apply prints_dateText hwday hd
  rwa [length_dateText hwday hd hyear]

/-- A time up to the end of the year 9999 is printed in 29 bytes, and comes back from them. -/
theorem httpTime_roundTrips (gmtime : ℤ → Tm) {time : ℤ} (hlow : 0 ≤ time)
    (hhigh : time ≤ 253402300799) (hutc : IsUtc time (gmtime time)) {size : ℕ} (hsize : 29 ≤ size) :
    ∃ text, makeHttpTime gmtime time size = some text ∧ text.length = 29 ∧
      ∀ (m : ℕ → Byte) (value : ℕ), memRead m value 29 = text →
        (run (kglParseHttpTime value 29) m).value = time := by
  obtain ⟨d, hd, rfl, htm⟩ := hutc
  obtain ⟨hfirst, hlast⟩ := year_bounds hd hlow hhigh
  have hbounded := bounded_of_valid hd hlast
  have hwday : (d.dayNumber + 6) % 7 < 7 := Nat.mod_lt _ (by decide)
  have hlength := length_dateText hwday hbounded (by omega)
  refine ⟨_, makeHttpTime_eq htm hbounded (by omega) hsize, hlength, ?_⟩
  intro m value htext
  have hat : At m value (dateText ((d.dayNumber + 6) % 7) d) := by
    rw [At, hlength]
    exact htext
  obtain ⟨fmt, hvalue⟩ := kglParseHttpTime_text
    (httpDateText_dateText hwday hbounded (by omega)) hat
  rw [hlength, if_pos ((checkFields_iff fmt hd.month).mpr ((valid_iff_inRange hd.month).mp hd).1),
    fieldsTime_eq fmt hbounded (Or.inl (by omega)), instant_eq hd.day_pos] at hvalue
  exact hvalue

theorem november_valid : DateTime.Valid ⟨1994, 10, 6, 8, 49, 37⟩ :=
  ⟨by decide, by decide, by decide, by decide, by decide, by decide⟩

/-- The result at `Sun, 06 Nov 1994 08:49:37 GMT`. -/
theorem httpTime_november : ∃ text,
    makeHttpTime (fun _ => ⟨0, 6, 10, 94, 8, 49, 37⟩) 784111777 30 = some text ∧ text.length = 29 ∧
      ∀ (m : ℕ → Byte) (value : ℕ), memRead m value 29 = text →
        (run (kglParseHttpTime value 29) m).value = 784111777 :=
  httpTime_roundTrips (fun _ => ⟨0, 6, 10, 94, 8, 49, 37⟩) (by decide) (by decide)
    ⟨⟨1994, 10, 6, 8, 49, 37⟩, november_valid, by decide +kernel, by decide +kernel⟩ (by decide)

/-- The fields of a date in November 1994. -/
theorem november_bounded {day : ℕ} (h : day < 100) : Bounded ⟨1994, 10, day, 8, 49, 37⟩ :=
  ⟨by simp, by simp, h, by simp, by simp, by simp⟩

/-- The result at the same text. -/
theorem realDate_november :
    RealDate ⟨1994, 10, 6, 8, 49, 37⟩ (run (kglParseHttpTime 0
      (dateText 0 ⟨1994, 10, 6, 8, 49, 37⟩).length)
        (memWrite (fun _ => 0) 0 (dateText 0 ⟨1994, 10, 6, 8, 49, 37⟩))).value :=
  (realDate_iff (httpDateText_dateText (by decide) (november_bounded (by decide)) (by simp))
    (memRead_memWrite_self _ _ _)).mpr (Or.inr (Or.inl (by decide)))

/-- `Sun, 00 Nov 1994 08:49:37 GMT` is read as the last day of October. -/
theorem dayZero_not_realDate :
    HttpDateText ⟨1994, 10, 0, 8, 49, 37⟩ (kglString "Sun, 00 Nov 1994 08:49:37 GMT") ∧
      ¬RealDate ⟨1994, 10, 0, 8, 49, 37⟩ (run (kglParseHttpTime 0 29)
        (memWrite (fun _ => 0) 0 (kglString "Sun, 00 Nov 1994 08:49:37 GMT"))).value := by
  constructor
  · have htext : kglString "Sun, 00 Nov 1994 08:49:37 GMT" =
      dateText 0 ⟨1994, 10, 0, 8, 49, 37⟩ := by
      decide +kernel
    rw [htext]
    exact httpDateText_dateText (by decide) (november_bounded (by decide)) (by simp)
  · rintro (h | ⟨hvalid, -⟩)
    · exact absurd h (by decide +kernel)
    · exact absurd hvalid.day_pos (by decide)

end Khttpd
