import Mathlib.Algebra.Order.Ring.Int
import Mathlib.Tactic.IntervalCases
import Khttpd.Model.Base64

/-!
# Decoding what was encoded

A group of three bytes comes back as it was. A shorter one comes back with a zero byte behind it,
which `b64decode` drops again, with every other zero byte at the end of the result. That hides as
well what the tests for padding read behind the input.
-/

set_option autoImplicit false

namespace Khttpd

/-! ## Digits -/

/-- A character of the alphabet is found where it stands, and is no padding. -/
theorem strChr_b64char {k : Byte} (hk : k < 64) :
    strChr b64alpha (b64char k) = k.toNat ∧ b64char k ≠ b64pad := by
  have hall : ∀ n < 64, strChr b64alpha (b64alpha.getD n 0) = n ∧ b64alpha.getD n 0 ≠ b64pad := by
    decide +kernel
  exact hall k.toNat (UInt8.lt_iff_toNat_lt.mp hk)

theorem b64digit_char {p : Bytes} {left j : ℕ} {k : Byte} (hk : k < 64) (hj : j < left)
    (hp : p.getD j 0 = b64char k) : b64digit p left j = some k := by
  obtain ⟨hchr, hpad⟩ := strChr_b64char hk
  have hsmall : ¬k.toNat > 63 := by
    have := UInt8.lt_iff_toNat_lt.mp hk
    simp at this
    omega
  unfold b64digit
  rw [hp, if_pos ⟨hj, hpad⟩]
  simp only [hchr]
  rw [if_neg hsmall, UInt8.ofNat_toNat]

theorem b64digit_pad {p : Bytes} {left j : ℕ} (h : left ≤ j ∨ p.getD j 0 = b64pad) :
    b64digit p left j = some 0 :=
  if_neg fun hboth => h.elim (fun hle => absurd hboth.1 hle.not_gt) hboth.2

/-! ## Groups of bits -/

theorem first_digit_lt (a : Byte) : a >>> 2 < 64 := by
  rw [UInt8.lt_iff_toNat_lt, UInt8.toNat_shiftRight]
  have := a.toNat_lt
  simp [Nat.shiftRight_eq_div_pow]
  omega

theorem or_lt_64 {a b : Byte} (ha : a < 64) (hb : b < 64) : a ||| b < 64 := by
  rw [UInt8.lt_iff_toNat_lt] at ha hb ⊢
  rw [UInt8.toNat_or]
  exact Nat.or_lt_two_pow (n := 6) ha hb

theorem second_digit_lt (a b : Byte) : (a &&& 3) <<< 4 ||| b >>> 4 < 64 := by
  apply or_lt_64
  · rw [UInt8.lt_iff_toNat_lt]
    have h : (a &&& 3).toNat ≤ 3 := by
      rw [UInt8.toNat_and]
      exact Nat.and_le_right
    simp [Nat.shiftLeft_eq] at h ⊢
    omega
  · rw [UInt8.lt_iff_toNat_lt]
    have := b.toNat_lt
    simp [Nat.shiftRight_eq_div_pow]
    omega

theorem third_digit_lt (b c : Byte) : (b &&& 15) <<< 2 ||| c >>> 6 < 64 := by
  apply or_lt_64
  · rw [UInt8.lt_iff_toNat_lt]
    have h : (b &&& 15).toNat ≤ 15 := by
      rw [UInt8.toNat_and]
      exact Nat.and_le_right
    simp [Nat.shiftLeft_eq] at h ⊢
    omega
  · rw [UInt8.lt_iff_toNat_lt]
    have := c.toNat_lt
    simp [Nat.shiftRight_eq_div_pow]
    omega

theorem fourth_digit_lt (c : Byte) : c &&& 63 < 64 := by
  rw [UInt8.lt_iff_toNat_lt]
  have h : (c &&& 63).toNat ≤ 63 := by
      rw [UInt8.toNat_and]
      exact Nat.and_le_right
  exact Nat.lt_succ_of_le h

theorem first_byte (a b : Byte) : (a >>> 2) <<< 2 ||| ((a &&& 3) <<< 4 ||| b >>> 4) >>> 4 = a := by
  apply UInt8.toBitVec_inj.1
  simp
  ext i hi
  interval_cases i <;> simp [BitVec.getElem_or]

theorem second_byte (a b c : Byte) :
    ((a &&& 3) <<< 4 ||| b >>> 4) <<< 4 ||| ((b &&& 15) <<< 2 ||| c >>> 6) >>> 2 = b := by
  apply UInt8.toBitVec_inj.1
  simp
  ext i hi
  interval_cases i <;> simp [BitVec.getElem_or]

theorem third_byte (b c : Byte) : ((b &&& 15) <<< 2 ||| c >>> 6) <<< 6 ||| (c &&& 63) = c := by
  apply UInt8.toBitVec_inj.1
  simp
  ext i hi
  interval_cases i <;> simp [BitVec.getElem_or]

/-! ## One group -/

section Group

variable {k0 k1 k2 k3 : Byte} {left : ℕ} (h0 : k0 < 64) (h1 : k1 < 64) (hleft : 4 ≤ left)
  (groups : ℕ) (tail : Bytes)

include h0 h1 hleft

theorem b64decodeLoop_four (h2 : k2 < 64) (h3 : k3 < 64) :
    b64decodeLoop (groups + 1)
        (b64char k0 :: b64char k1 :: b64char k2 :: b64char k3 :: tail) left =
      (b64decodeLoop groups tail (left - 4)).map
        ([k0 <<< 2 ||| k1 >>> 4, k1 <<< 4 ||| k2 >>> 2, k2 <<< 6 ||| k3] ++ ·) := by
  generalize hp : b64char k0 :: b64char k1 :: b64char k2 :: b64char k3 :: tail = p
  have hd0 : b64digit p left 0 = some k0 := b64digit_char h0 (by omega) (by rw [← hp]; rfl)
  have hd1 : b64digit p left 1 = some k1 := b64digit_char h1 (by omega) (by rw [← hp]; rfl)
  have hd2 : b64digit p left 2 = some k2 := b64digit_char h2 (by omega) (by rw [← hp]; rfl)
  have hd3 : b64digit p left 3 = some k3 := b64digit_char h3 (by omega) (by rw [← hp]; rfl)
  rw [b64decodeLoop, hd0, hd1, hd2, hd3, ← hp]
  simp only [List.getD_cons_succ, List.getD_cons_zero]
  rw [if_neg (strChr_b64char h1).2, if_neg (strChr_b64char h2).2]
  rfl

theorem b64decodeLoop_three (h2 : k2 < 64) :
    b64decodeLoop (groups + 1) (b64char k0 :: b64char k1 :: b64char k2 :: b64pad :: tail) left =
      (b64decodeLoop groups tail (left - 4)).map
        ([k0 <<< 2 ||| k1 >>> 4, k1 <<< 4 ||| k2 >>> 2, k2 <<< 6 ||| 0] ++ ·) := by
  generalize hp : b64char k0 :: b64char k1 :: b64char k2 :: b64pad :: tail = p
  have hd0 : b64digit p left 0 = some k0 := b64digit_char h0 (by omega) (by rw [← hp]; rfl)
  have hd1 : b64digit p left 1 = some k1 := b64digit_char h1 (by omega) (by rw [← hp]; rfl)
  have hd2 : b64digit p left 2 = some k2 := b64digit_char h2 (by omega) (by rw [← hp]; rfl)
  have hd3 : b64digit p left 3 = some 0 := b64digit_pad (Or.inr (by rw [← hp]; rfl))
  rw [b64decodeLoop, hd0, hd1, hd2, hd3, ← hp]
  simp only [List.getD_cons_succ, List.getD_cons_zero]
  rw [if_neg (strChr_b64char h1).2, if_neg (strChr_b64char h2).2]
  rfl

theorem b64decodeLoop_two :
    b64decodeLoop (groups + 1) (b64char k0 :: b64char k1 :: b64pad :: b64pad :: tail) left =
      some [k0 <<< 2 ||| k1 >>> 4, k1 <<< 4 ||| (0 : Byte) >>> 2] := by
  generalize hp : b64char k0 :: b64char k1 :: b64pad :: b64pad :: tail = p
  have hd0 : b64digit p left 0 = some k0 := b64digit_char h0 (by omega) (by rw [← hp]; rfl)
  have hd1 : b64digit p left 1 = some k1 := b64digit_char h1 (by omega) (by rw [← hp]; rfl)
  have hd2 : b64digit p left 2 = some 0 := b64digit_pad (Or.inr (by rw [← hp]; rfl))
  have hd3 : b64digit p left 3 = some 0 := b64digit_pad (Or.inr (by rw [← hp]; rfl))
  rw [b64decodeLoop, hd0, hd1, hd2, hd3, ← hp]
  simp only [List.getD_cons_succ, List.getD_cons_zero]
  rw [if_neg (strChr_b64char h1).2]
  rfl

end Group

/-! ## The round trip -/

theorem length_b64encodeLoop (groups : ℕ) (p : Bytes) (left : ℕ) :
    (b64encodeLoop groups p left).length = 4 * groups := by
  induction groups generalizing p left with
  | zero => rfl
  | succ groups ih =>
    rw [b64encodeLoop, List.length_append, ih]
    simp
    omega

/-- What the decoder stores: the bytes that were encoded, and a zero byte where the last group was
short. -/
theorem b64decodeLoop_encode (rest : Bytes) : ∀ x : Bytes,
    b64decodeLoop ((x.length + 2) / 3) (b64encodeLoop ((x.length + 2) / 3) x x.length ++ rest)
      (4 * ((x.length + 2) / 3)) = some (x ++ if x.length % 3 = 0 then [] else [0])
  | [] => rfl
  | [a] => by
    have hcode : b64encodeLoop 1 [a] 1 = [b64char (a >>> 2), b64char ((a &&& 3) <<< 4 ||| (0 : Byte) >>> 4),
        b64pad, b64pad] := rfl
    have hgroups : ([a].length + 2) / 3 = 1 := by simp
    have hshort : ¬[a].length % 3 = 0 := Nat.one_ne_zero
    have hpad : (0 : Byte) >>> 2 = (((0 : Byte) &&& 15) <<< 2 ||| (0 : Byte) >>> 6) >>> 2 := rfl
    rw [if_neg hshort, hgroups, List.length_singleton, hcode]
    simp only [List.cons_append, List.nil_append]
    rw [b64decodeLoop_two (first_digit_lt a) (second_digit_lt a 0) (Nat.le_refl 4), first_byte, hpad,
      second_byte]
  | [a, b] => by
    have hcode : b64encodeLoop 1 [a, b] 2 = [b64char (a >>> 2),
        b64char ((a &&& 3) <<< 4 ||| b >>> 4), b64char ((b &&& 15) <<< 2 ||| (0 : Byte) >>> 6), b64pad] := rfl
    have hgroups : ([a, b].length + 2) / 3 = 1 := by simp
    have hshort : ¬[a, b].length % 3 = 0 := by simp
    have hlen : [a, b].length = 2 := rfl
    have hpad : (0 : Byte) = 0 &&& 63 := rfl
    rw [if_neg hshort, hgroups, hlen, hcode]
    simp only [List.cons_append, List.nil_append]
    rw [b64decodeLoop_three (first_digit_lt a) (second_digit_lt a b) (Nat.le_refl 4) _ _
      (third_digit_lt b 0), first_byte, second_byte]
    nth_rewrite 2 [hpad]
    rw [third_byte]
    rfl
  | a :: b :: c :: x => by
    have ih := b64decodeLoop_encode rest x
    have hgroups : ((a :: b :: c :: x).length + 2) / 3 = (x.length + 2) / 3 + 1 := by
      simp only [List.length_cons]
      omega
    have hmod : (a :: b :: c :: x).length % 3 = x.length % 3 := by
      simp only [List.length_cons]
      omega
    have hcode : b64encodeLoop ((x.length + 2) / 3 + 1) (a :: b :: c :: x)
        (a :: b :: c :: x).length = [b64char (a >>> 2), b64char ((a &&& 3) <<< 4 ||| b >>> 4),
          b64char ((b &&& 15) <<< 2 ||| c >>> 6), b64char (c &&& 63)] ++
        b64encodeLoop ((x.length + 2) / 3) x x.length := by
      have h1 : 1 < (a :: b :: c :: x).length := by simp
      have h2 : 2 < (a :: b :: c :: x).length := by simp
      rw [b64encodeLoop]
      simp only [if_pos h1, if_pos h2, if_neg h1.not_ge, if_neg h2.not_ge]
      rfl
    have hleft : 4 * ((x.length + 2) / 3 + 1) - 4 = 4 * ((x.length + 2) / 3) := by omega
    rw [hgroups, hcode, hmod]
    simp only [List.cons_append, List.nil_append]
    rw [b64decodeLoop_four (first_digit_lt a) (second_digit_lt a b) (by omega) _ _
      (third_digit_lt b c) (fourth_digit_lt c), first_byte, second_byte, third_byte, hleft, ih]
    rfl

theorem rdropWhile_append {α : Type} (q : α → Bool) (l r : List α) :
    (l ++ r).rdropWhile q = (l ++ r.rdropWhile q).rdropWhile q := by
  induction r using List.reverseRecOn with
  | nil => rfl
  | append_singleton r b ih =>
    cases hb : q b with
    | true =>
      rw [← List.append_assoc, List.rdropWhile_concat_pos _ _ _ hb,
        List.rdropWhile_concat_pos _ _ _ hb, ih]
    | false =>
      have hneg : ¬q b = true := by simp [hb]
      rw [List.rdropWhile_concat_neg _ _ _ hneg]

/-- The code of a byte string is decoded to the string without the zero bytes at its end. -/
theorem b64decode_encode {x : Bytes} (hx : x ≠ [])
    (hsize : 2 * (b64encode x x.length).length + 2 < 2 ^ 31) (rest : Bytes) :
    b64decode (b64encode x x.length ++ rest) (b64encode x x.length).length =
      some (x.rdropWhile (· = 0)) := by
  have hlen : ¬x.length = 0 := fun h => hx (List.length_eq_zero_iff.mp h)
  have hcode : b64encode x x.length = b64encodeLoop ((x.length + 2) / 3) x x.length := by
    unfold b64encode
    simp only [if_neg hlen]
  rw [hcode, length_b64encodeLoop] at hsize ⊢
  have hpos : ¬4 * ((x.length + 2) / 3) = 0 := by omega
  have hgroups : (4 * ((x.length + 2) / 3) + 3) / 4 = (x.length + 2) / 3 := by omega
  unfold b64decode
  simp only [if_neg hpos, if_neg hsize.not_ge, hgroups, b64decodeLoop_encode, Option.map_some]
  rw [rdropWhile_append]
  split
  · simp
  · have hzero : ([0] : Bytes).rdropWhile (· = 0) = [] := rfl
    rw [hzero, List.append_nil]

/-! ## What stands behind the input -/

theorem getD_congr {p q : Bytes} {left j : ℕ} (h : p.take left = q.take left) (hj : j < left) :
    p.getD j 0 = q.getD j 0 := by
  have hget := congrArg (fun l => l[j]?) h
  simp only [List.getElem?_take_of_lt hj] at hget
  simp only [List.getD_eq_getElem?_getD, hget]

theorem b64digit_congr {p q : Bytes} {left : ℕ} (h : p.take left = q.take left) (j : ℕ) :
    b64digit p left j = b64digit q left j := by
  rcases Nat.lt_or_ge j left with hj | hj
  · unfold b64digit
    rw [getD_congr h hj]
  · rw [b64digit_pad (Or.inl hj), b64digit_pad (Or.inl hj)]

/-- Zero bytes at the end are dropped, so it does not matter whether they were stored. -/
theorem rdropWhile_zeros (b : Byte) :
    [b, 0].rdropWhile (· = 0) = [b].rdropWhile (· = 0) ∧
      [b, 0, 0].rdropWhile (· = 0) = [b].rdropWhile (· = 0) := by
  have hone : [b, 0] = [b] ++ [0] := rfl
  have htwo : [b, 0, 0] = [b] ++ [0] ++ [0] := rfl
  rw [htwo, hone]
  constructor
  · rw [List.rdropWhile_concat_pos _ _ _ (by simp)]
  · rw [List.rdropWhile_concat_pos _ _ _ (by simp), List.rdropWhile_concat_pos _ _ _ (by simp)]

/-- The last group, cut off before its fourth character: the padding tests may read behind the
input, but only to decide whether zero bytes are stored. -/
theorem strip_last_congr {p q : Bytes} {left : ℕ} (h : p.take left = q.take left) (hpos : 0 < left)
    (hshort : left < 4) :
    (b64decodeLoop 1 p left).map (List.rdropWhile (· = 0)) =
      (b64decodeLoop 1 q left).map (List.rdropWhile (· = 0)) := by
  have hall := b64digit_congr h
  have h3 : b64digit q left 3 = some 0 := b64digit_pad (Or.inl (by omega))
  simp only [b64decodeLoop, hall, h3]
  obtain rfl | rfl | rfl : left = 1 ∨ left = 2 ∨ left = 3 := by omega
  · have h1 : b64digit q 1 1 = some 0 := b64digit_pad (Or.inl le_rfl)
    have h2 : b64digit q 1 2 = some 0 := b64digit_pad (Or.inl (by omega))
    rw [h1, h2]
    cases b64digit q 1 0 with
    | none => rfl
    | some a0 =>
      have hsecond : (0 : Byte) <<< 4 ||| (0 : Byte) >>> 2 = 0 := by decide
      have hthird : (0 : Byte) <<< 6 ||| (0 : Byte) = 0 := by decide
      simp only [hsecond, hthird, Option.map_some, List.append_nil]
      generalize a0 <<< 2 ||| (0 : Byte) >>> 4 = b0
      obtain ⟨hone, htwo⟩ := rdropWhile_zeros b0
      have hzero : ∀ r : Bytes, (if r.getD 1 0 = b64pad then some [b0]
          else if r.getD 2 0 = b64pad then some [b0, 0] else some [b0, 0, 0]).map
            (List.rdropWhile (· = 0)) = some ([b0].rdropWhile (· = 0)) := by
        intro r
        split
        · rfl
        · split
          · rw [Option.map_some, hone]
          · rw [Option.map_some, htwo]
      exact (hzero p).trans (hzero q).symm
  · have h2 : b64digit q 2 2 = some 0 := b64digit_pad (Or.inl le_rfl)
    rw [h2, getD_congr h (by omega : 1 < 2)]
    cases b64digit q 2 0 with
    | none => rfl
    | some a0 =>
      cases b64digit q 2 1 with
      | none => rfl
      | some a1 =>
        have hthird : (0 : Byte) <<< 6 ||| (0 : Byte) = 0 := by decide
        simp only [hthird, Option.map_some, List.append_nil]
        generalize a0 <<< 2 ||| a1 >>> 4 = b0
        generalize a1 <<< 4 ||| (0 : Byte) >>> 2 = b1
        have hlast : ([b0, b1, 0] : Bytes).rdropWhile (· = 0) = [b0, b1].rdropWhile (· = 0) :=
          List.rdropWhile_concat_pos _ [b0, b1] 0 (by simp)
        have hzero : ∀ r : Bytes, (if r.getD 2 0 = b64pad then some [b0, b1]
            else some [b0, b1, 0]).map (List.rdropWhile (· = 0)) =
              some ([b0, b1].rdropWhile (· = 0)) := by
          intro r
          split
          · rfl
          · rw [Option.map_some, hlast]
        split
        · rfl
        · exact (hzero p).trans (hzero q).symm
  · rw [getD_congr h (by omega : 1 < 3), getD_congr h (by omega : 2 < 3)]

/-- What is decoded depends on the input alone. -/
theorem strip_loop_congr (groups : ℕ) {p q : Bytes} {left : ℕ} (h : p.take left = q.take left)
    (hleft : 4 * groups < left + 4) :
    (b64decodeLoop groups p left).map (List.rdropWhile (· = 0)) =
      (b64decodeLoop groups q left).map (List.rdropWhile (· = 0)) := by
  induction groups generalizing p q left with
  | zero => rfl
  | succ groups ih =>
    rcases Nat.lt_or_ge left 4 with hshort | hlong
    · obtain rfl : groups = 0 := by omega
      exact strip_last_congr h (by omega) hshort
    · have hrest : (p.drop 4).take (left - 4) = (q.drop 4).take (left - 4) := by
        rw [← List.drop_take, ← List.drop_take, h]
      have hnext := ih hrest (by omega)
      simp only [b64decodeLoop, b64digit_congr h, getD_congr h (by omega : 1 < left),
        getD_congr h (by omega : 2 < left)]
      split
      · split
        · rfl
        · split
          · rfl
          · rename_i a0 a1 a2 a3 _ _ _ _ _ _
            generalize [a0 <<< 2 ||| a1 >>> 4, a1 <<< 4 ||| a2 >>> 2, a2 <<< 6 ||| a3] = front
            have hsplit : ∀ r : Option Bytes,
                (r.map (front ++ ·)).map (List.rdropWhile (· = 0)) =
                  (r.map (List.rdropWhile (· = 0))).map
                    fun rest => (front ++ rest).rdropWhile (· = 0) := by
              intro r
              cases r with
              | none => rfl
              | some rest => exact congrArg some (rdropWhile_append _ front rest)
            rw [hsplit, hsplit, hnext]
      · rfl

/-- A byte string comes back from its code exactly when it does not end in a zero byte and its
code has fewer than 2^30 - 1 bytes; and nothing behind the input of `b64decode` has any influence. -/
theorem b64_round_trip (x rest : Bytes) (hx : x ≠ []) :
    (b64decode (b64encode x x.length ++ rest) (b64encode x x.length).length = some x ↔
        x.getLast? ≠ some 0 ∧ (b64encode x x.length).length < 2 ^ 30 - 1) ∧
      ∀ (p q : Bytes) (l : ℕ), 0 < l → p.take l = q.take l → b64decode p l = b64decode q l := by
  constructor
  · by_cases hsize : 2 * (b64encode x x.length).length + 2 < 2 ^ 31
    · have hlt : (b64encode x x.length).length < 2 ^ 30 - 1 := by omega
      rw [b64decode_encode hx hsize, Option.some_inj, List.rdropWhile_eq_self_iff]
      constructor
      · intro h
        refine ⟨fun hlast => ?_, hlt⟩
        rw [List.getLast?_eq_some_getLast hx, Option.some_inj] at hlast
        exact h hx (by simpa using hlast)
      · rintro ⟨h, -⟩ _
        rw [List.getLast?_eq_some_getLast hx] at h
        simpa using h
    · have hpos : ¬(b64encode x x.length).length = 0 := by omega
      have hnone : b64decode (b64encode x x.length ++ rest) (b64encode x x.length).length =
          none := by
        unfold b64decode
        simp only [if_neg hpos, if_pos (Nat.le_of_not_lt hsize)]
      rw [hnone]
      exact iff_of_false (by simp) (by omega)
  · intro p q l hl h
    have hpos : ¬l = 0 := hl.ne'
    unfold b64decode
    simp only [if_neg hpos]
    split
    · rfl
    · exact strip_loop_congr _ h (by omega)

/-- A byte string, and one with a zero byte in its middle. -/
theorem b64_round_trip_three :
    b64decode (b64encode [255, 0, 16] 3 ++ []) (b64encode [255, 0, 16] 3).length =
        some [255, 0, 16] ∧
      b64decode [65, 65, 61] 2 = b64decode [65, 65] 2 :=
  ⟨(b64_round_trip [255, 0, 16] [] (by decide)).1.mpr (by decide +kernel),
    (b64_round_trip [255, 0, 16] [] (by decide)).2 _ _ 2 (by decide) rfl⟩

/-- A zero byte at the end is lost. -/
theorem b64_loses_zero :
    b64decode (b64encode [1, 0] 2) (b64encode [1, 0] 2).length = some [1] ∧
      ¬b64decode (b64encode [1, 0] 2) (b64encode [1, 0] 2).length = some [1, 0] := by
  decide +kernel

end Khttpd
