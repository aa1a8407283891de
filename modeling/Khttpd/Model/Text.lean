import Khttpd.Model.HpackTable

/-!
# Strings and header fields

The functions on byte strings that the parsers of both protocol versions share.
-/

set_option autoImplicit false

namespace Khttpd

/-- A decimal digit. -/
def isDigit (c : Byte) : Bool := 48 ≤ c && c ≤ 57

/-- `kgl_atol`: the digits at the head of a string. -/
def kglAtol (line : Bytes) : ℕ :=
  (line.takeWhile fun c => 48 ≤ c && c ≤ 57).foldl (fun value c => value * 10 + (c.toNat - 48)) 0

/-- `kgl_mem_case_same`. -/
def memCaseSame (a b : Bytes) : Bool := a.map toLower == b.map toLower

/-- `kgl_memstr(buf, ..., str, ...) != NULL`. -/
def memStr : Bytes → Bytes → Bool
  | [], str => str.isEmpty
  | c :: buf, str => str.isPrefixOf (c :: buf) || memStr buf str

/-- `memchr`: what stands before the first `c`, and what follows it. -/
def memchr (c : Byte) : Bytes → Option (Bytes × Bytes)
  | [] => none
  | b :: buf => if b = c then some ([], buf) else (memchr c buf).map fun r => (b :: r.1, r.2)

/-- `memchr` finds the end of a line. -/
theorem memchr_append {c : Byte} {line : Bytes} (h : c ∉ line) (rest : Bytes) :
    memchr c (line ++ c :: rest) = some (line, rest) := by
  induction line with
  | nil => simp [memchr]
  | cons b line ih =>
    have hb : b ≠ c := fun hb => h (hb ▸ List.mem_cons_self)
    simp only [List.cons_append, memchr, if_neg hb, ih fun hc => h (List.mem_cons_of_mem _ hc),
      Option.map_some]

/-- `memchr` cuts its input at a `c`. -/
theorem memchr_eq_some {c : Byte} {buf line rest : Bytes} (h : memchr c buf = some (line, rest)) :
    c ∉ line ∧ buf = line ++ c :: rest := by
  induction buf generalizing line with
  | nil => cases h
  | cons b buf ih =>
    simp only [memchr] at h
    by_cases hb : b = c
    · rw [if_pos hb] at h
      cases h
      exact ⟨List.not_mem_nil, by rw [hb]; rfl⟩
    · rw [if_neg hb] at h
      obtain ⟨r, hr, heq⟩ := Option.map_eq_some_iff.mp h
      cases heq
      obtain ⟨hmem, hbuf⟩ := ih hr
      refine ⟨fun hc => ?_, by rw [hbuf]; rfl⟩
      rcases List.mem_cons.mp hc with hc | hc
      · exact hb hc.symm
      · exact hmem hc

/-- `memchr` finds nothing where there is nothing. -/
theorem memchr_eq_none {c : Byte} {buf : Bytes} (h : memchr c buf = none) : c ∉ buf := by
  induction buf with
  | nil => exact List.not_mem_nil
  | cons b buf ih =>
    simp only [memchr] at h
    by_cases hb : b = c
    · rw [if_pos hb] at h
      cases h
    · rw [if_neg hb, Option.map_eq_none_iff] at h
      intro hc
      rcases List.mem_cons.mp hc with hc | hc
      · exact hb hc.symm
      · exact ih h hc

theorem memchr_of_not_mem {c : Byte} {buf : Bytes} (h : c ∉ buf) : memchr c buf = none := by
  induction buf with
  | nil => rfl
  | cons b buf ih =>
    simp only [List.mem_cons, not_or] at h
    rw [memchr, if_neg (Ne.symm h.1), ih h.2]
    rfl

/-- The C string that a buffer begins with. -/
def cstr (p : Bytes) : Bytes := p.takeWhile (· ≠ 0)

/-- `isspace` of the C locale. -/
def isSpace (c : Byte) : Bool := 9 ≤ c && c ≤ 13 || c == 32

/-- `KHTTP_ISSPACE`. -/
def khttpIsSpace (c : Byte) : Bool := c == 32

/-! ## Header fields -/

/-- `MAX_HEADER_ATTR_VAL_SIZE`: the size limit of the name or value of a header. -/
def maxHeaderAttrValSize : ℕ := 65500

/-- The bytes of an argument whose length is an `hlen_t`. -/
def hlen (str : Bytes) : Bytes := str.take (str.length % 2 ^ 16)

/-- `atoi`. -/
def atoi (s : Bytes) : ℤ :=
  match s.dropWhile isSpace with
  | 45 :: s => -kglAtol s
  | 43 :: s => kglAtol s
  | s => kglAtol s

end Khttpd
