import Mathlib.Algebra.Order.Ring.Int

/-!
# Header compression

The wire format of RFC 7541: integers with a prefix (section 5.1), strings (section 5.2) and the
representations of fields (section 6). What the entries of the static table are, how a Huffman code
is read and what stays in the dynamic table are parameters. `Spells` is for an encoder that does not
look at the dynamic table: its bytes spell the same fields to every peer.
-/

set_option autoImplicit false

namespace FieldBlock

/-- A name and a value. -/
abbrev Field : Type := List UInt8 × List UInt8

/-! ## Integers -/

/-- What stands behind a full prefix: seven bits in each byte, the lowest first. -/
def readIntTail : List UInt8 → Option (ℕ × List UInt8)
  | [] => none
  | b :: rest =>
    if b.toNat < 128 then some (b.toNat, rest)
    else (readIntTail rest).map fun r => (b.toNat - 128 + 128 * r.1, r.2)

/-- An integer with a prefix of `n` bits. -/
def readInt (n : ℕ) : List UInt8 → Option (ℕ × List UInt8)
  | [] => none
  | b :: rest =>
    if b.toNat % 2 ^ n < 2 ^ n - 1 then some (b.toNat % 2 ^ n, rest)
    else (readIntTail rest).map fun r => (2 ^ n - 1 + r.1, r.2)

/-- The last byte of an integer. -/
theorem readIntTail_last {b : UInt8} (hb : b.toNat < 128) (rest : List UInt8) :
    readIntTail (b :: rest) = some (b.toNat, rest) := by
  rw [readIntTail, if_pos hb]

/-- A byte with more behind it. -/
theorem readIntTail_more {b : UInt8} {tail rest : List UInt8} {v : ℕ} (hb : 128 ≤ b.toNat)
    (htail : readIntTail tail = some (v, rest)) :
    readIntTail (b :: tail) = some (b.toNat - 128 + 128 * v, rest) := by
  rw [readIntTail, if_neg (Nat.not_lt.mpr hb), htail]
  rfl

/-- An integer in its prefix. -/
theorem readInt_short {n : ℕ} {b : UInt8} (hb : b.toNat % 2 ^ n < 2 ^ n - 1) (rest : List UInt8) :
    readInt n (b :: rest) = some (b.toNat % 2 ^ n, rest) := by
  rw [readInt, if_pos hb]

/-- An integer behind its prefix. -/
theorem readInt_long {n : ℕ} {b : UInt8} {tail rest : List UInt8} {v : ℕ}
    (hb : b.toNat % 2 ^ n = 2 ^ n - 1) (htail : readIntTail tail = some (v, rest)) :
    readInt n (b :: tail) = some (2 ^ n - 1 + v, rest) := by
  rw [readInt, hb, if_neg (Nat.lt_irrefl _), htail]
  rfl

/-! ## Fields -/

/-- What a peer reads with: the static table, a Huffman decoder, what the dynamic table is after a
field was put in front of it, and after its size was changed. -/
structure Peer where
  static : List Field
  unhuff : List UInt8 → Option (List UInt8)
  store : Field → List Field → List Field
  resize : ℕ → List Field → Option (List Field)

namespace Peer

variable (p : Peer)

/-- The field of an index; both tables are counted from one, the static table first. -/
def lookup (dyn : List Field) : ℕ → Option Field
  | 0 => none
  | i + 1 => (p.static ++ dyn)[i]?

/-- A string: its length with a bit for the Huffman code in front, and its bytes. -/
def readString : List UInt8 → Option (List UInt8 × List UInt8)
  | [] => none
  | b :: rest => do
    let (length, rest) ← readInt 7 (b :: rest)
    if rest.length < length then none
    else if b.toNat < 128 then some (rest.take length, rest.drop length)
    else do
      let text ← p.unhuff (rest.take length)
      some (text, rest.drop length)

/-- A field with a value of its own; its name is that of an index or, where the index is 0, a
string. -/
def readLiteral (dyn : List Field) (n : ℕ) (bytes : List UInt8) :
    Option (Field × List UInt8) := do
  let (index, rest) ← readInt n bytes
  let (name, rest) ← if index = 0 then p.readString rest
    else (p.lookup dyn index).map fun f => (f.1, rest)
  let (value, rest) ← p.readString rest
  some ((name, value), rest)

/-- A representation: an indexed field, a literal that is stored, a new size of the table, or a
literal that is not stored. -/
def readField (dyn : List Field) : List UInt8 →
    Option (Option Field × List Field × List UInt8)
  | [] => none
  | b :: rest =>
    if 128 ≤ b.toNat then do
      let (index, rest) ← readInt 7 (b :: rest)
      let f ← p.lookup dyn index
      some (some f, dyn, rest)
    else if 64 ≤ b.toNat then do
      let (f, rest) ← p.readLiteral dyn 6 (b :: rest)
      some (some f, p.store f dyn, rest)
    else if 32 ≤ b.toNat then do
      let (size, rest) ← readInt 5 (b :: rest)
      let dyn ← p.resize size dyn
      some (none, dyn, rest)
    else do
      let (f, rest) ← p.readLiteral dyn 4 (b :: rest)
      some (some f, dyn, rest)

/-- The fields of at most `fuel` representations, and the dynamic table behind them. -/
def decodeLoop : ℕ → List Field → List UInt8 → Option (List Field × List Field)
  | _, dyn, [] => some ([], dyn)
  | 0, _, _ :: _ => none
  | fuel + 1, dyn, b :: rest => do
    let (f, dyn, rest) ← p.readField dyn (b :: rest)
    let (fs, dyn) ← decodeLoop fuel dyn rest
    some (f.toList ++ fs, dyn)

/-- The fields of a block; a representation has at least one byte. -/
def decode (dyn : List Field) (block : List UInt8) : Option (List Field × List Field) :=
  p.decodeLoop block.length dyn block

variable {p}

theorem decodeLoop_nil (fuel : ℕ) (dyn : List Field) :
    p.decodeLoop fuel dyn [] = some ([], dyn) := by
  cases fuel <;> rfl

/-- A string that is not Huffman coded. -/
theorem readString_raw {b : UInt8} {bytes text rest : List UInt8} (hb : b.toNat < 128)
    (hint : readInt 7 (b :: bytes) = some (text.length, text ++ rest)) :
    p.readString (b :: bytes) = some (text, rest) := by
  have hroom : ¬(text ++ rest).length < text.length := by
    rw [List.length_append]
    omega
  rw [readString, hint]
  simp only [Option.bind_eq_bind, Option.bind_some, if_neg hroom, if_pos hb, List.take_left,
    List.drop_left]

/-- An entry of the static table has the same index for every peer. -/
theorem lookup_static {i : ℕ} {f : Field} (h : p.static[i]? = some f) (dyn : List Field) :
    p.lookup dyn (i + 1) = some f := by
  obtain ⟨hi, -⟩ := List.getElem?_eq_some_iff.mp h
  rw [lookup, List.getElem?_append_left hi, h]

/-- An indexed field of the static table. -/
theorem readField_indexed {b : UInt8} {i : ℕ} {f : Field} (hb : b.toNat = 128 + (i + 1))
    (hi : i + 1 < 127) (h : p.static[i]? = some f) (dyn : List Field) (rest : List UInt8) :
    p.readField dyn (b :: rest) = some (some f, dyn, rest) := by
  have hmod : b.toNat % 2 ^ 7 = i + 1 := by omega
  have hint : readInt 7 (b :: rest) = some (i + 1, rest) := by
    rw [readInt_short (by omega), hmod]
  rw [readField, if_pos (by omega), hint]
  simp only [Option.bind_eq_bind, Option.bind_some, lookup_static h]

/-- A field that is stored, with a name of the static table. -/
theorem readField_stored {b : UInt8} {i : ℕ} {name old value bytes rest : List UInt8}
    (hb : b.toNat = 64 + (i + 1)) (hi : i + 1 < 63) (h : p.static[i]? = some (name, old))
    (hvalue : p.readString bytes = some (value, rest)) (dyn : List Field) :
    p.readField dyn (b :: bytes) =
      some (some (name, value), p.store (name, value) dyn, rest) := by
  have hmod : b.toNat % 2 ^ 6 = i + 1 := by omega
  have hint : readInt 6 (b :: bytes) = some (i + 1, bytes) := by
    rw [readInt_short (by omega), hmod]
  rw [readField, if_neg (by omega), if_pos (by omega), readLiteral, hint]
  simp only [Option.bind_eq_bind, Option.bind_some, Nat.succ_ne_zero, if_false, lookup_static h,
    Option.map_some, hvalue]

/-- A field that is not stored, with a name of its own. -/
theorem readField_named {name value bytes bytes' rest : List UInt8}
    (hname : p.readString bytes = some (name, bytes'))
    (hvalue : p.readString bytes' = some (value, rest)) (dyn : List Field) :
    p.readField dyn (0 :: bytes) = some (some (name, value), dyn, rest) := by
  have hint : readInt 4 (0 :: bytes) = some (0, bytes) := readInt_short (by decide) bytes
  rw [readField, if_neg (by decide), if_neg (by decide), if_neg (by decide), readLiteral, hint]
  simp only [Option.bind_eq_bind, Option.bind_some, if_true, hname, hvalue]

/-! ## Blocks -/

/-- To a peer with any dynamic table, `bytes` in front of a block spell the fields `fs`, in `rounds`
representations. -/
def SpellsIn (p : Peer) (rounds : ℕ) (bytes : List UInt8) (fs : List Field) : Prop :=
  ∀ dyn, ∃ dyn', ∀ fuel rest, p.decodeLoop (rounds + fuel) dyn (bytes ++ rest) =
    (p.decodeLoop fuel dyn' rest).map fun r => (fs ++ r.1, r.2)

/-- To a peer with any dynamic table, `bytes` spell the fields `fs`. -/
def Spells (p : Peer) (bytes : List UInt8) (fs : List Field) : Prop :=
  ∃ rounds, rounds ≤ bytes.length ∧ p.SpellsIn rounds bytes fs

/-- No bytes spell no field. -/
theorem spells_nil : p.Spells [] [] := by
  refine ⟨0, Nat.le_refl 0, fun dyn => ⟨dyn, fun fuel rest => ?_⟩⟩
  rw [Nat.zero_add, List.nil_append]
  cases p.decodeLoop fuel dyn rest <;> rfl

/-- One representation spells one field. -/
theorem spells_field {b : UInt8} {bytes : List UInt8} {f : Field}
    (h : ∀ dyn, ∃ dyn', ∀ rest,
      p.readField dyn (b :: (bytes ++ rest)) = some (some f, dyn', rest)) :
    p.Spells (b :: bytes) [f] := by
  refine ⟨1, Nat.le_add_left 1 _, fun dyn => ?_⟩
  obtain ⟨dyn', hread⟩ := h dyn
  refine ⟨dyn', fun fuel rest => ?_⟩
  rw [Nat.add_comm, List.cons_append, decodeLoop, hread]
  simp only [Option.bind_eq_bind, Option.bind_some, Option.toList_some]
  cases p.decodeLoop fuel dyn' rest <;> rfl

/-- Bytes that stand one behind the other spell their fields one behind the other. -/
theorem Spells.append {first second : List UInt8} {fs gs : List Field} (hfirst : p.Spells first fs)
    (hsecond : p.Spells second gs) : p.Spells (first ++ second) (fs ++ gs) := by
  obtain ⟨m, hm, hfirst⟩ := hfirst
  obtain ⟨n, hn, hsecond⟩ := hsecond
  refine ⟨m + n, ?_, fun dyn => ?_⟩
  · rw [List.length_append]
    omega
  · obtain ⟨dyn₁, h₁⟩ := hfirst dyn
    obtain ⟨dyn₂, h₂⟩ := hsecond dyn₁
    refine ⟨dyn₂, fun fuel rest => ?_⟩
    rw [Nat.add_assoc, List.append_assoc, h₁, h₂, Option.map_map]
    cases p.decodeLoop fuel dyn₂ rest with
    | none => rfl
    | some r => simp only [Option.map_some, Function.comp_apply, List.append_assoc]

/-- A block is read as the fields that it spells. -/
theorem Spells.decode {block : List UInt8} {fs : List Field} (h : p.Spells block fs)
    (dyn : List Field) : (p.decode dyn block).map Prod.fst = some fs := by
  obtain ⟨rounds, hrounds, h⟩ := h
  obtain ⟨dyn', hdyn⟩ := h dyn
  have hfuel : block.length = rounds + (block.length - rounds) := by omega
  have hloop := hdyn (block.length - rounds) []
  rw [← hfuel, List.append_nil, decodeLoop_nil] at hloop
  rw [Peer.decode, hloop]
  simp only [Option.map_some, List.append_nil]

end Peer

end FieldBlock
