import Mathlib.Algebra.Order.Ring.Int
import Mathlib.Data.List.Infix

/-!
# Prefix codes

A code gives every symbol a word, and a message the words of its symbols one after the other.
Where no word begins another (`PrefixFree`), a text that starts with the words of `xs` and spells
`ys` followed by something undecided spells `ys` from `xs` on (`PrefixFree.split`).

A `Decoder` reads such a text in blocks. What it has emitted, together with the undecided word
that its state stands for, spells what it has read; `Decoder.exists_foldlM` says that it reads
every beginning of a spelled message, and `Decoder.out_eq` that it has emitted the message at
the end. Words of bits are numbers of a given length; that a code of such words is free of prefixes
is shown by a tree that reads them (`CodeTree.prefixFree`).
-/

set_option autoImplicit false

namespace PrefixCode

variable {σ β : Type*} {code : σ → List β}

/-! ## Splitting texts -/

/-- No word of the code begins another. -/
def PrefixFree (code : σ → List β) : Prop :=
  ∀ a b, code a <+: code b → a = b

/-- No word of the code begins `x`. -/
def Undecided (code : σ → List β) (x : List β) : Prop :=
  ∀ a, ¬ code a <+: x

/-- What begins an undecided text is undecided. -/
theorem Undecided.mono {x y : List β} (hy : Undecided code y) (h : x <+: y) :
    Undecided code x := by
  intro a ha
  exact hy a (ha.trans h)

/-- An undecided text spells no symbol. -/
theorem Undecided.eq_nil {x y : List β} {xs : List σ} (hx : Undecided code x)
    (h : x = xs.flatMap code ++ y) : xs = [] := by
  cases xs with
  | nil => rfl
  | cons a xs =>
    apply absurd _ (hx a)
    rw [h, List.flatMap_cons, List.append_assoc]
    apply List.prefix_append

/-- Two words that begin the same text are the same word. -/
theorem PrefixFree.eq_of_append_eq (hfree : PrefixFree code) {a b : σ} {x y : List β}
    (h : code a ++ x = code b ++ y) : a = b := by
  have ha : code a <+: code a ++ x := List.prefix_append _ _
  have hb : code b <+: code a ++ x := ⟨y, h.symm⟩
  rcases List.prefix_or_prefix_of_prefix ha hb with hab | hba
  · exact hfree a b hab
  · exact (hfree b a hba).symm

/-- A text that starts with the words of `xs` and spells `ys` before an undecided rest goes on
with the symbols of `ys` that `xs` lacks. -/
theorem PrefixFree.split (hfree : PrefixFree code) {y : List β} (hy : Undecided code y)
    {xs ys : List σ} {z : List β} (h : xs.flatMap code ++ z = ys.flatMap code ++ y) :
    ∃ rest, ys = xs ++ rest ∧ z = rest.flatMap code ++ y := by
  induction xs generalizing ys with
  | nil => exact ⟨ys, rfl, h⟩
  | cons a xs ih =>
    cases ys with
    | nil =>
      apply absurd _ (hy a)
      rw [List.flatMap_nil, List.nil_append, List.flatMap_cons, List.append_assoc] at h
      rw [← h]
      apply List.prefix_append
    | cons b ys =>
      simp only [List.flatMap_cons, List.append_assoc] at h
      obtain rfl := hfree.eq_of_append_eq h
      obtain ⟨rest, rfl, hz⟩ := ih (List.append_cancel_left h)
      exact ⟨rest, rfl, hz⟩

/-- A message takes at least the shortest word for each of its symbols. -/
theorem mul_length_le {k : ℕ} (hk : ∀ a, k ≤ (code a).length) (xs : List σ) :
    k * xs.length ≤ (xs.flatMap code).length := by
  induction xs with
  | nil => simp
  | cons a xs ih =>
    have := hk a
    simp only [List.flatMap_cons, List.length_cons, List.length_append, Nat.mul_add]
    omega

/-! ## Decoders -/

/-- A decoder of messages that end in a padding: it takes the text in blocks and may refuse one.
The fields say that it reads soundly, that what it still holds is undecided, and that it refuses
only what no padded message continues. -/
structure Decoder (code : σ → List β) (Padding : List β → Prop) (R Blk : Type*) where
  step : R → Blk → Option R
  /-- The symbols emitted so far. -/
  out : R → List σ
  /-- The part of the text that is read and not emitted. -/
  pending : R → List β
  word : Blk → List β
  sound : ∀ r b r', step r b = some r' →
    (out r').flatMap code ++ pending r' = (out r).flatMap code ++ (pending r ++ word b)
  pending_undecided : ∀ r, Undecided code (pending r)
  padding_undecided : ∀ y, Padding y → Undecided code y
  refuses : ∀ r b, step r b = none → ∀ (msg : List σ) y, Padding y →
    ¬ pending r ++ word b <+: msg.flatMap code ++ y

namespace Decoder

variable {Padding : List β → Prop} {R Blk : Type*} (d : Decoder code Padding R Blk)

/-- The text that the state stands for. -/
def text (r : R) : List β :=
  (d.out r).flatMap code ++ d.pending r

/-- A block adds its word to the text. -/
theorem text_step {r r' : R} {b : Blk} (h : d.step r b = some r') :
    d.text r' = d.text r ++ d.word b := by
  rw [text, d.sound r b r' h, text, List.append_assoc]

/-- A run adds the words of its blocks to the text. -/
theorem text_foldlM {bs : List Blk} {r r' : R} (h : bs.foldlM d.step r = some r') :
    d.text r' = d.text r ++ bs.flatMap d.word := by
  induction bs generalizing r with
  | nil =>
    obtain rfl : r = r' := by simpa using h
    simp
  | cons b bs ih =>
    obtain ⟨r₁, h₁, h₂⟩ : ∃ r₁, d.step r b = some r₁ ∧ bs.foldlM d.step r₁ = some r' := by
      simpa [List.foldlM_cons, Option.bind_eq_some_iff] using h
    rw [ih h₂, d.text_step h₁, List.flatMap_cons, List.append_assoc]

/-- In a text that spells `msg`, the decoder holds the words of the symbols not emitted. -/
theorem exists_rest (hfree : PrefixFree code) {r : R} {msg : List σ} {more y : List β}
    (hy : Padding y) (h : d.text r ++ more = msg.flatMap code ++ y) :
    ∃ rest, msg = d.out r ++ rest ∧ d.pending r ++ more = rest.flatMap code ++ y := by
  rw [text, List.append_assoc] at h
  exact hfree.split (d.padding_undecided y hy) h

/-- A padded message is read to any of its block boundaries. -/
theorem exists_foldlM (hfree : PrefixFree code) {bs : List Blk} {r : R} {msg : List σ}
    {more y : List β} (hy : Padding y)
    (h : d.text r ++ (bs.flatMap d.word ++ more) = msg.flatMap code ++ y) :
    ∃ r', bs.foldlM d.step r = some r' := by
  induction bs generalizing r with
  | nil => exact ⟨r, rfl⟩
  | cons b bs ih =>
    rw [List.flatMap_cons, List.append_assoc] at h
    cases hstep : d.step r b with
    | none =>
      obtain ⟨rest, -, hrest⟩ := d.exists_rest hfree hy h
      apply absurd _ (d.refuses r b hstep rest y hy)
      rw [← hrest, ← List.append_assoc]
      apply List.prefix_append
    | some r₁ =>
      obtain ⟨r', hr'⟩ := ih (r := r₁) (by rw [d.text_step hstep, List.append_assoc, h])
      exact ⟨r', by simpa [List.foldlM_cons, hstep] using hr'⟩

/-- At the end of a padded message the message is out and the padding is held. -/
theorem out_eq (hfree : PrefixFree code) {r : R} {msg : List σ} {y : List β} (hy : Padding y)
    (h : d.text r = msg.flatMap code ++ y) : d.out r = msg ∧ d.pending r = y := by
  rw [← List.append_nil (d.text r)] at h
  obtain ⟨rest, hmsg, hrest⟩ := d.exists_rest hfree hy h
  rw [List.append_nil] at hrest
  obtain rfl := (d.pending_undecided r).eq_nil hrest
  exact ⟨by simpa using hmsg.symm, by simpa using hrest⟩

/-- What is emitted fits in the text. -/
theorem mul_length_out_le {k : ℕ} (hk : ∀ a, k ≤ (code a).length) (r : R) :
    k * (d.out r).length ≤ (d.text r).length := by
  have := mul_length_le hk (d.out r)
  rw [text, List.length_append]
  omega

end Decoder

/-! ## Words of bits -/

/-- The `len` low bits of `n`, the highest first. -/
def bits : ℕ → ℕ → List Bool
  | 0, _ => []
  | len + 1, n => n.testBit len :: bits len n

/-- The number that bits spell. -/
def value (x : List Bool) : ℕ :=
  x.foldl (fun n b => n * 2 + b.toNat) 0

@[simp] theorem length_bits (len n : ℕ) : (bits len n).length = len := by
  induction len with
  | zero => rfl
  | succ len ih => simp [bits, ih]

/-- Only the low bits count. -/
theorem bits_congr {len m n : ℕ} (h : ∀ i < len, m.testBit i = n.testBit i) :
    bits len m = bits len n := by
  induction len with
  | zero => rfl
  | succ len ih =>
    rw [bits, bits, h len (by omega), ih]
    intro i hi
    apply h
    omega

/-- High bits followed by low bits. -/
theorem bits_add (m k a b : ℕ) (hb : b < 2 ^ k) :
    bits (m + k) (a * 2 ^ k + b) = bits m a ++ bits k b := by
  rw [Nat.mul_comm]
  induction m with
  | zero =>
    rw [Nat.zero_add]
    apply bits_congr
    intro i hi
    rw [Nat.testBit_two_pow_mul_add a hb, if_pos hi]
  | succ m ih =>
    have hbit : (2 ^ k * a + b).testBit (m + k) = a.testBit m := by
      rw [Nat.testBit_two_pow_mul_add a hb, if_neg (by omega), Nat.add_sub_cancel]
    rw [Nat.add_right_comm, bits, hbit, ih]
    rfl

/-- A word of ones only. -/
theorem bits_ones (len : ℕ) : bits len (2 ^ len - 1) = List.replicate len true := by
  have h : ∀ k ≤ len, bits k (2 ^ len - 1) = List.replicate k true := by
    intro k hk
    induction k with
    | zero => rfl
    | succ k ih =>
      have hbit : (2 ^ len - 1).testBit k = true := by
        rw [Nat.testBit_two_pow_sub_one]
        exact decide_eq_true hk
      rw [bits, hbit, ih (by omega), List.replicate_succ]
  exact h len le_rfl

/-- A number whose bits are ones is the greatest of its length. -/
theorem two_pow_le_of_bits_ones {len n : ℕ} (h : bits len n = List.replicate len true) :
    2 ^ len ≤ n % 2 ^ len + 1 := by
  induction len with
  | zero => simp
  | succ len ih =>
    rw [bits, List.replicate_succ, List.cons.injEq] at h
    have hlow := ih h.2
    have htop : n % 2 ^ (len + 1) = n % 2 ^ len + 2 ^ len := by
      rw [Nat.mod_pow_succ, ← Nat.toNat_testBit, h.1]
      simp
    rw [htop, Nat.pow_succ]
    omega

/-- One more bit at the end. -/
theorem value_concat (x : List Bool) (b : Bool) : value (x ++ [b]) = value x * 2 + b.toNat := by
  simp [value]

/-- The number of a word has no more bits than the word. -/
theorem value_lt (x : List Bool) : value x < 2 ^ x.length := by
  induction x using List.reverseRecOn with
  | nil => simp [value]
  | append_singleton x b ih =>
    have hb : b.toNat < 2 := Bool.toNat_lt b
    rw [value_concat, List.length_append, List.length_singleton, Nat.pow_succ]
    omega

/-- A word is the bits of its number. -/
theorem bits_value (x : List Bool) : bits x.length (value x) = x := by
  induction x using List.reverseRecOn with
  | nil => rfl
  | append_singleton x b ih =>
    have h := bits_add x.length 1 (value x) b.toNat (Bool.toNat_lt b)
    rw [value_concat, List.length_append, List.length_singleton]
    rw [Nat.pow_one] at h
    rw [h, ih]
    cases b <;> rfl

/-- One word behind another. -/
theorem value_append (x y : List Bool) : value (x ++ y) = value x * 2 ^ y.length + value y := by
  induction y using List.reverseRecOn with
  | nil => simp [value]
  | append_singleton y b ih =>
    rw [← List.append_assoc, value_concat, value_concat, ih, List.length_append,
      List.length_singleton, Nat.pow_succ, Nat.add_mul, Nat.mul_assoc, Nat.add_assoc]

/-- The number of the low bits. -/
theorem value_bits (len n : ℕ) : value (bits len n) = n % 2 ^ len := by
  induction len with
  | zero => simp [bits, value, Nat.mod_one]
  | succ len ih =>
    have hcons := value_append [n.testBit len] (bits len n)
    have hone : value [n.testBit len] = (n.testBit len).toNat := by simp [value]
    rw [List.singleton_append, length_bits, hone, ih, Nat.toNat_testBit] at hcons
    rw [bits, hcons, Nat.mod_pow_succ, Nat.add_comm, Nat.mul_comm]

/-- The high bits and the low bits of a number. -/
theorem bits_split (m k n : ℕ) : bits (m + k) n = bits m (n / 2 ^ k) ++ bits k n := by
  have hlow : bits k (n % 2 ^ k) = bits k n := by
    apply bits_congr
    intro i hi
    rw [Nat.testBit_mod_two_pow, decide_eq_true hi, Bool.true_and]
  have h := bits_add m k (n / 2 ^ k) (n % 2 ^ k) (Nat.mod_lt _ (Nat.two_pow_pos k))
  rwa [Nat.mul_comm, Nat.div_add_mod, hlow] at h

/-- The bits of a number that its word has room for. -/
theorem bits_mul_add (x : List Bool) (k : ℕ) {b : ℕ} (hb : b < 2 ^ k) :
    bits (x.length + k) (value x * 2 ^ k + b) = x ++ bits k b := by
  rw [bits_add _ _ _ _ hb, bits_value]

/-! ## Code trees -/

/-- A binary tree with symbols at its leaves. -/
inductive CodeTree (σ : Type*) where
  | empty
  | leaf (a : σ)
  | node (zero one : CodeTree σ)

namespace CodeTree

/-- Give the word `x` to the symbol `a`. -/
def insert (a : σ) : List Bool → CodeTree σ → CodeTree σ
  | [], _ => leaf a
  | false :: x, node zero one => node (zero.insert a x) one
  | true :: x, node zero one => node zero (one.insert a x)
  | false :: x, _ => node (empty.insert a x) empty
  | true :: x, _ => node empty (empty.insert a x)

/-- Walk down to a leaf; its symbol, and the bits not used. -/
def read : CodeTree σ → List Bool → Option (σ × List Bool)
  | leaf a, x => some (a, x)
  | node zero _, false :: x => zero.read x
  | node _ one, true :: x => one.read x
  | _, _ => none

/-- What follows a word plays no part in reading it. -/
theorem read_append {t : CodeTree σ} {x y z : List Bool} {a : σ} (h : t.read x = some (a, y)) :
    t.read (x ++ z) = some (a, y ++ z) := by
  fun_induction read t x with
  | case1 b x => simpa [read] using h
  | case2 zero one x ih => simpa [read] using ih h
  | case3 zero one x ih => simpa [read] using ih h
  | case4 => cases h

/-- A code is free of prefixes where a tree reads each word as the name of its symbol. -/
theorem prefixFree {τ : Type*} {code : τ → List Bool} (t : CodeTree σ) {name : τ → σ}
    (hname : Function.Injective name) (h : ∀ a, t.read (code a) = some (name a, [])) :
    PrefixFree code := by
  intro a b hab
  obtain ⟨rest, hrest⟩ := hab
  have hread := t.read_append (z := rest) (h a)
  rw [hrest, h b, Option.some.injEq, Prod.mk.injEq] at hread
  exact (hname hread.1).symm

end CodeTree

end PrefixCode
