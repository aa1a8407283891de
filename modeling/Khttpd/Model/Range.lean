import Khttpd.Model.Text

/-!
# Ranges

The branch of `KSink::parse_header` for `Range`, and `kgl_adjust_range`. Numbers are `int64_t`; an
operation that overflows is undefined and ends the run with `none`.
-/

set_option autoImplicit false

namespace Khttpd

/-- The result of a signed 64-bit operation, when it has one. -/
def int64 (n : ℤ) : Option Int64 := if (Int64.ofInt n).toInt = n then some (Int64.ofInt n) else none

/-- `kgl_request_range`. -/
structure KglRequestRange where
  rangeFrom : Int64
  rangeTo : Int64
  deriving DecidableEq

/-- What `kgl_adjust_range` leaves in the range and in the length, and what it returns. -/
structure AdjustedRange where
  range : KglRequestRange
  len : Int64
  ok : Bool
  deriving DecidableEq

/-- `range->to = range->from + (*len) - 1` and `return true`. -/
def finishRange (range : KglRequestRange) (len : Int64) : Option AdjustedRange := do
  let last ← int64 (range.rangeFrom.toInt + len.toInt)
  let last ← int64 (last.toInt - 1)
  return ⟨{ range with rangeTo := last }, len, true⟩

/-- `kgl_adjust_range`. -/
def kglAdjustRange (range : KglRequestRange) (len : Int64) : Option AdjustedRange :=
  if 0 ≤ range.rangeFrom.toInt then
    if len.toInt ≤ range.rangeFrom.toInt then some ⟨range, len, false⟩
    else do
      let len ← int64 (len.toInt - range.rangeFrom.toInt)
      if 0 ≤ range.rangeTo.toInt then do
        let count ← int64 (range.rangeTo.toInt - range.rangeFrom.toInt)
        let count ← int64 (count.toInt + 1)
        let len := if count.toInt > len.toInt then len else count
        return ⟨range, len, 0 < len.toInt⟩
      else finishRange range len
  else do
    let first ← int64 (range.rangeFrom.toInt + len.toInt)
    let range := { range with rangeFrom := first }
    if first.toInt ≤ 0 then return ⟨range, len, false⟩
    else do
      let len ← int64 (len.toInt - first.toInt)
      finishRange range len

/-- `kgl_atol`. -/
def kglAtol64 (line : Bytes) : Option Int64 := int64 (kglAtol line)

/-- `alloc_request_range`: a request has one range, which is zero at first. -/
def allocRequestRange (range : Option KglRequestRange) : KglRequestRange := range.getD ⟨0, 0⟩

/-- The branch for `Range` from `hot`, behind `bytes=`, on. -/
def parseBytesRange (range : Option KglRequestRange) (hot : Bytes) : Option KglRequestRange := do
  let range := allocRequestRange range
  match hot with
  | 45 :: last =>
    let n ← kglAtol64 last
    let first ← int64 (-n.toInt)
    return { range with rangeFrom := first }
  | _ =>
    let first ← kglAtol64 hot
    let range := { range with rangeFrom := first }
    match memchr 45 hot with
    | some (_, ch :: last) =>
      let n ← kglAtol64 (ch :: last)
      return { range with rangeTo := n }
    | _ => return { range with rangeTo := -1 }

/-- The test of `parse_header` for a value of `Range` that it reads; another one is kept as a plain
field. -/
def isBytesRange (val : Bytes) : Bool :=
  val.length > 6 && memCaseSame (val.take 6) (kglString "bytes=")

end Khttpd
