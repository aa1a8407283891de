import Khttpd.Model.Url

/-!
# Dates of HTTP

`kgl_parse_http_time`, with all its reads, and `make_http_time` with the part of `kgl_vslprintf`
that it uses.
-/

set_option autoImplicit false

namespace Khttpd

open MemoryProgram InPlace

/-- `mday`. -/
def mday : List ℕ := [31, 28, 31, 30, 31, 30, 31, 31, 30, 31, 30, 31]

/-- `days`. -/
def dayNames : List Bytes := ["Sun", "Mon", "Tue", "Wed", "Thu", "Fri", "Sat"].map kglString

/-- `months`. -/
def monthNames : List Bytes :=
  ["Jan", "Feb", "Mar", "Apr", "May", "Jun", "Jul", "Aug", "Sep", "Oct", "Nov", "Dec"].map kglString

/-! ## `kgl_parse_http_time` -/

/-- `fmt` of `kgl_parse_http_time`. -/
inductive TimeFormat where
  | nofmt
  | rfc822
  | rfc850
  | isoc
  deriving DecidableEq

/-- The loop that looks for the end of the weekday, over the `n` bytes from `p` on. -/
def scanWeekday : ℕ → ℕ → CProg (ℕ × TimeFormat)
  | 0, p => pure (p, .nofmt)
  | n + 1, p => do
    let c ← load p
    if c = 44 then pure (p, .nofmt)
    else if c = 32 then pure (p, .isoc)
    else scanWeekday n (p + 1)

/-- The loop over the blanks behind it. -/
def skipBlanks : ℕ → ℕ → CProg ℕ
  | 0, p => pure p
  | n + 1, p => do
    let c ← load p
    if c ≠ 32 then pure p else skipBlanks n (p + 1)

/-- The test that `n` bytes from `p` on are digits, and the number that they and those before them
denote. -/
def readDigits : ℕ → ℕ → ℕ → CProg (Option ℕ)
  | 0, _, value => pure (some value)
  | n + 1, p, value => do
    let c ← load p
    if c < 48 ∨ c > 57 then pure none
    else readDigits n (p + 1) (value * 10 + (c.toNat - 48))

/-- The test for one byte. -/
def expect (p : ℕ) (c : Byte) : CProg Bool := do
  let b ← load p
  pure (b == c)

/-- What is known of the date while it is read; a field that was not read is zero. -/
structure TimeFields where
  fmt : TimeFormat
  day : ℕ
  month : ℕ
  year : ℕ
  hour : ℕ
  min : ℕ
  sec : ℕ
  deriving DecidableEq

/-- The day in front of the month, and the format that what follows it tells. -/
def readLeadingDay (endp p : ℕ) (fields : TimeFields) : CProg (Option (TimeFields × ℕ)) := do
  if fields.fmt = .isoc then return some (fields, p)
  let some day ← readDigits 2 p 0 | return none
  let p := p + 2
  let c ← load p
  if c = 32 then
    if endp < p + 18 then return none
    return some ({ fields with day := day, fmt := .rfc822 }, p + 1)
  if c = 45 then return some ({ fields with day := day, fmt := .rfc850 }, p + 1)
  return none

/-- The `switch` over the name of the month. -/
def readMonth (p : ℕ) : CProg (Option ℕ) := do
  let c ← load p
  match c with
  | 74 => do
    let a ← expect (p + 1) 97
    if a then return some 0
    let n ← expect (p + 2) 110
    return some (if n then 5 else 6)
  | 70 => return some 1
  | 77 => do
    let r ← expect (p + 2) 114
    return some (if r then 2 else 4)
  | 65 => do
    let r ← expect (p + 1) 112
    return some (if r then 3 else 7)
  | 83 => return some 8
  | 79 => return some 9
  | 78 => return some 10
  | 68 => return some 11
  | _ => return none

/-- The test of the separator behind the month. -/
def checkSeparator (fmt : TimeFormat) (p : ℕ) : CProg Bool :=
  match fmt with
  | .rfc822 => expect p 32
  | .rfc850 => expect p 45
  | _ => pure true

/-- The year behind the month. -/
def readYear (p : ℕ) (fields : TimeFields) : CProg (Option (TimeFields × ℕ)) :=
  match fields.fmt with
  | .rfc822 => do
    let some year ← readDigits 4 p 0 | return none
    return some ({ fields with year := year }, p + 4)
  | .rfc850 => do
    let some year ← readDigits 2 p 0 | return none
    return some ({ fields with year := year + if year < 70 then 2000 else 1900 }, p + 2)
  | _ => pure (some (fields, p))

/-- The digits of a day behind the month: one, and a second one unless a blank follows. -/
def readIsocDigits (p : ℕ) : CProg (Option (ℕ × ℕ)) := do
  let some day ← readDigits 1 p 0 | return none
  let blank ← expect (p + 1) 32
  if blank then return some (day, p + 1)
  let some day ← readDigits 1 (p + 1) day | return none
  return some (day, p + 2)

/-- The day behind the month. -/
def readIsocDay (endp p : ℕ) (fields : TimeFields) : CProg (Option (TimeFields × ℕ)) := do
  if fields.fmt ≠ .isoc then return some (fields, p)
  let blank ← expect p 32
  let some (day, p) ← readIsocDigits (if blank then p + 1 else p) | return none
  if endp < p + 14 then return none
  return some ({ fields with day := day }, p)

/-- The time of the day; `p` comes to the seconds. -/
def readClock (p : ℕ) (fields : TimeFields) : CProg (Option (TimeFields × ℕ)) := do
  if !(← expect p 32) then return none
  let some hour ← readDigits 2 (p + 1) 0 | return none
  if !(← expect (p + 3) 58) then return none
  let some min ← readDigits 2 (p + 4) 0 | return none
  if !(← expect (p + 6) 58) then return none
  let some sec ← readDigits 2 (p + 7) 0 | return none
  return some ({ fields with hour := hour, min := min, sec := sec }, p + 7)

/-- The year at the end; `p` is where the seconds are. -/
def readIsocYear (p : ℕ) (fields : TimeFields) : CProg (Option TimeFields) := do
  if fields.fmt ≠ .isoc then return some fields
  let p := p + 2
  if !(← expect p 32) then return none
  let some year ← readDigits 4 (p + 1) 0 | return none
  return some { fields with year := year }

/-- The text from the day or the month on. -/
def readFields (endp p : ℕ) (fmt : TimeFormat) : CProg (Option TimeFields) := do
  if endp < p + 18 then return none
  let some (fields, p) ← readLeadingDay endp p ⟨fmt, 0, 0, 0, 0, 0, 0⟩ | return none
  let some month ← readMonth p | return none
  let p := p + 3
  if !(← checkSeparator fields.fmt p) then return none
  let some (fields, p) ← readYear (p + 1) { fields with month := month } | return none
  let some (fields, p) ← readIsocDay endp p fields | return none
  let some (fields, p) ← readClock p fields | return none
  readIsocYear p fields

/-- The tests of the fields. -/
def checkFields (f : TimeFields) : Bool :=
  if f.hour > 23 ∨ f.min > 59 ∨ f.sec > 59 then false
  else if f.day = 29 ∧ f.month = 1 then
    !(f.year &&& 3 != 0 || f.year % 100 == 0 && f.year % 400 != 0)
  else f.day ≤ mday.getD f.month 0

/-- The end of `kgl_parse_http_time`. The arithmetic is modulo `2 ^ 64`; the year is divided, so it
is reduced at once, and the rest at the end. -/
def fieldsTime (f : TimeFields) : ℤ :=
  let month := if f.month ≤ 1 then f.month + 11 else f.month - 1
  let year := if f.month ≤ 1 then (f.year + (2 ^ 64 - 1)) % 2 ^ 64 else f.year
  let days : ℤ := (365 * year + year / 4 : ℕ) - (year / 100 : ℕ) + (year / 400 : ℕ) +
    (367 * month / 12 : ℕ) - 30 + f.day - 1 - 719527 + 31 + 28
  (days * 86400 + (f.hour * 3600 + f.min * 60 + f.sec : ℕ)).bmod (2 ^ 64)

/-- `kgl_parse_http_time`. -/
def kglParseHttpTime (value len : ℕ) : CProg ℤ := do
  let endp := value + len
  let (p, fmt) ← scanWeekday len value
  let p ← skipBlanks (endp - (p + 1)) (p + 1)
  let fields ← readFields endp p fmt
  match fields with
  | none => return -1
  | some fields => return if checkFields fields then fieldsTime fields else -1

/-! ## `make_http_time` -/

/-- `struct tm`. -/
structure Tm where
  wday : ℤ
  mday : ℤ
  mon : ℤ
  year : ℤ
  hour : ℤ
  min : ℤ
  sec : ℤ
  deriving DecidableEq

/-- An argument of `kgl_vslprintf`. -/
inductive PrintArg where
  | int (value : ℤ)
  | str (s : Bytes)

/-- `kgl_sprintf_num` in decimal, with `room` bytes left. -/
def kglSprintfNum (room ui64 : ℕ) (zero : Byte) (width : ℕ) : Bytes :=
  let digits := decimal ui64
  (List.replicate (width - digits.length) zero ++ digits).take room

/-- `kgl_sprintf_str` of a terminated string. -/
def kglSprintfStr (room : ℕ) (src : Bytes) : Bytes := src.take room

/-- One conversion: the bytes for an argument, or `none` for one that does not occur here. -/
def convert (room : ℕ) (zero : Byte) (width : ℕ) (conversion : Byte) : PrintArg → Option Bytes
  | .str s => if conversion = 115 then some (kglSprintfStr room s) else none
  | .int value =>
    if conversion = 100 then
      let sign : Bytes := if value < 0 then [45] else []
      some (sign ++ kglSprintfNum (room - sign.length) value.natAbs zero width)
    else none

/-- `kgl_vslprintf` for the conversions `%s` and `%d` with a width, with `room` bytes left. -/
def kglVslprintf (room : ℕ) : Bytes → List PrintArg → Option Bytes
  | [], _ => some []
  | 37 :: fmt, args =>
    if room = 0 then some []
    else
      let zero : Byte := if fmt.head? = some 48 then 48 else 32
      match _h : fmt.dropWhile isDigit, args with
      | conversion :: rest, arg :: args => do
        let out ← convert room zero (kglAtol fmt) conversion arg
        let back ← kglVslprintf (room - out.length) rest args
        return out ++ back
      | _, _ => none
  | c :: fmt, args => do
    if room = 0 then return []
    let back ← kglVslprintf (room - 1) fmt args
    return c :: back
  termination_by fmt => fmt.length
  decreasing_by
    · have hle := (List.dropWhile_suffix (l := fmt) isDigit).length_le
      rw [_h] at hle
      simp only [List.length_cons] at hle ⊢
      omega
    · simp

/-- `make_http_time`, with `gmtime_r`. The text is in the buffer, and the end of it is returned. -/
def makeHttpTime (gmtime : ℤ → Tm) (time : ℤ) (size : ℕ) : Option Bytes :=
  let tm := gmtime time
  kglVslprintf size (kglString "%s, %02d %s %d %02d:%02d:%02d GMT")
    [.str (dayNames.getD tm.wday.toNat []), .int tm.mday, .str (monthNames.getD tm.mon.toNat []),
      .int (tm.year + 1900), .int tm.hour, .int tm.min, .int tm.sec]

end Khttpd
