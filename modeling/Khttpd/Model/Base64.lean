import Mathlib.Data.List.DropRight
import Khttpd.Model.Text

/-!
# Base64

`b64encode` and `b64decode`. A buffer is given by the bytes from its start on, which may be more
than its length; bytes behind them read as zero.
-/

set_option autoImplicit false

namespace Khttpd

/-- `b64alpha`. -/
def b64alpha : Bytes :=
  kglString "ABCDEFGHIJKLMNOPQRSTUVWXYZabcdefghijklmnopqrstuvwxyz0123456789+/"

/-- `B64PAD`. -/
def b64pad : Byte := 61

/-- `str_chr`: where `c` stands in `s`, or the length of `s`. -/
def strChr (s : Bytes) (c : Byte) : ℕ := s.idxOf c

/-! ## Decoding -/

/-- `a[j]` of the group at `p`, of which `left` bytes belong to the input; `none` is a bad
character. -/
def b64digit (p : Bytes) (left j : ℕ) : Option Byte :=
  if j < left ∧ p.getD j 0 ≠ b64pad then
    let a := strChr b64alpha (p.getD j 0)
    if a > 63 then none else some (UInt8.ofNat a)
  else some 0

/-- The loop of `b64decode` from a group on: what is stored. -/
def b64decodeLoop : ℕ → Bytes → ℕ → Option Bytes
  | 0, _, _ => some []
  | groups + 1, p, left =>
    match b64digit p left 0, b64digit p left 1, b64digit p left 2, b64digit p left 3 with
    | some a0, some a1, some a2, some a3 =>
      let b0 := a0 <<< 2 ||| a1 >>> 4
      let b1 := a1 <<< 4 ||| a2 >>> 2
      let b2 := a2 <<< 6 ||| a3
      if p.getD 1 0 = b64pad then some [b0]
      else if p.getD 2 0 = b64pad then some [b0, b1]
      else (b64decodeLoop groups (p.drop 4) (left - 4)).map ([b0, b1, b2] ++ ·)
    | _, _, _, _ => none

/-- `b64decode`. There is no buffer when its size is not an `int`. -/
def b64decode (p : Bytes) (l : ℕ) : Option Bytes :=
  let l := if l = 0 then (cstr p).length else l
  if 2 ^ 31 ≤ 2 * l + 2 then none
  else (b64decodeLoop ((l + 3) / 4) p l).map (List.rdropWhile (· = 0))

/-! ## Encoding -/

/-- `b64alpha[k]`. -/
def b64char (k : Byte) : Byte := b64alpha.getD k.toNat 0

/-- The loop of `b64encode` from a group on. -/
def b64encodeLoop : ℕ → Bytes → ℕ → Bytes
  | 0, _, _ => []
  | groups + 1, p, left =>
    let a := p.getD 0 0
    let b := if 1 < left then p.getD 1 0 else 0
    let c := if 2 < left then p.getD 2 0 else 0
    [b64char (a >>> 2), b64char ((a &&& 3) <<< 4 ||| b >>> 4),
        if 1 ≥ left then b64pad else b64char ((b &&& 15) <<< 2 ||| c >>> 6),
        if 2 ≥ left then b64pad else b64char (c &&& 63)] ++
      b64encodeLoop groups (p.drop 3) (left - 3)

/-- `b64encode`. -/
def b64encode (p : Bytes) (len : ℕ) : Bytes :=
  let len := if len = 0 then (cstr p).length else len
  b64encodeLoop ((len + 2) / 3) p len

end Khttpd
