import Khttpd.Model.HeaderMemory

/-!
# Searching a buffer for one of several bytes

`kgl_mempbrk` of `KHttpLib.cpp`, on the memory of the process.
-/

set_option autoImplicit false

namespace Khttpd

open MemoryProgram InPlace

/-- `MEMPBRK_CACHE_SIZE`. -/
def mempbrkCacheSize : ℕ := 256

/-- The third argument of `memchr`. -/
def mempbrkWindow (n : ℤ) : ℕ := (if n > mempbrkCacheSize then (mempbrkCacheSize : ℤ) else n).toNat

/-- The loop over the `count` control bytes from `controlPtr` on, with what it leaves in `n` and
`min`. -/
def mempbrkControls (str : ℕ) : ℕ → ℕ → ℤ → Option ℕ → CProg (ℤ × Option ℕ)
  | 0, _, n, min => pure (n, min)
  | count + 1, controlPtr, n, min => do
    let c ← load controlPtr
    let p ← InPlace.memchr str c (mempbrkWindow n)
    match p with
    | some p => mempbrkControls str count (controlPtr + 1) (p - str) (some p)
    | none => mempbrkControls str count (controlPtr + 1) n min

/-- The loop over the windows of the buffer, at most `fuel` of them; `none` is the null pointer. -/
def mempbrkLoop (control controlLen : ℕ) : ℕ → ℕ → ℤ → CProg (Option ℕ)
  | 0, _, _ => pure none
  | fuel + 1, str, n =>
    if n ≤ 0 then pure none
    else do
      let (n, min) ← mempbrkControls str controlLen control n none
      match min with
      | some p => pure (some p)
      | none =>
        mempbrkLoop control controlLen fuel (str + mempbrkCacheSize) (n - mempbrkCacheSize)

/-- `kgl_mempbrk`. -/
def kglMempbrk (str : ℕ) (n : ℤ) (control controlLen : ℕ) : CProg (Option ℕ) :=
  mempbrkLoop control controlLen n.toNat str n

end Khttpd
