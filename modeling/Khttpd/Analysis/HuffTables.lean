import Khttpd.Model.HuffTables

/-!
# The Huffman tables agree

Every state of the decoder automaton stands for the bits of a code that it has read without
reaching the end. `huffPending` lists them. The checks below go through the whole tables: each
entry of the automaton reads its four bits as the code table says, and no code begins another.
-/

set_option autoImplicit false

namespace Khttpd

open PrefixCode

/-- What the states have read of a code, in the order of `huffDecodeRows`. -/
def huffPendingRows : List (List HuffEncodeCode) :=
  [[⟨0x0, 0⟩, ⟨0x0, 1⟩, ⟨0x0, 2⟩, ⟨0x0, 3⟩,
    ⟨0x0, 4⟩, ⟨0x1, 4⟩, ⟨0x1, 3⟩, ⟨0x2, 4⟩,
    ⟨0x3, 4⟩, ⟨0x1, 2⟩, ⟨0x2, 3⟩, ⟨0x4, 4⟩,
    ⟨0x5, 4⟩, ⟨0xa, 5⟩, ⟨0xb, 5⟩, ⟨0x3, 3⟩],
   [⟨0x6, 4⟩, ⟨0xc, 5⟩, ⟨0xd, 5⟩, ⟨0x7, 4⟩,
    ⟨0xe, 5⟩, ⟨0xf, 5⟩, ⟨0x1, 1⟩, ⟨0x2, 2⟩,
    ⟨0x4, 3⟩, ⟨0x8, 4⟩, ⟨0x10, 5⟩, ⟨0x11, 5⟩,
    ⟨0x9, 4⟩, ⟨0x12, 5⟩, ⟨0x13, 5⟩, ⟨0x5, 3⟩],
   [⟨0xa, 4⟩, ⟨0x14, 5⟩, ⟨0x15, 5⟩, ⟨0xb, 4⟩,
    ⟨0x16, 5⟩, ⟨0x17, 5⟩, ⟨0x2e, 6⟩, ⟨0x2f, 6⟩,
    ⟨0x3, 2⟩, ⟨0x6, 3⟩, ⟨0xc, 4⟩, ⟨0x18, 5⟩,
    ⟨0x30, 6⟩, ⟨0x31, 6⟩, ⟨0x19, 5⟩, ⟨0x32, 6⟩],
   [⟨0x33, 6⟩, ⟨0xd, 4⟩, ⟨0x1a, 5⟩, ⟨0x34, 6⟩,
    ⟨0x35, 6⟩, ⟨0x1b, 5⟩, ⟨0x36, 6⟩, ⟨0x37, 6⟩,
    ⟨0x7, 3⟩, ⟨0xe, 4⟩, ⟨0x1c, 5⟩, ⟨0x38, 6⟩,
    ⟨0x39, 6⟩, ⟨0x1d, 5⟩, ⟨0x3a, 6⟩, ⟨0x3b, 6⟩],
   [⟨0xf, 4⟩, ⟨0x1e, 5⟩, ⟨0x3c, 6⟩, ⟨0x3d, 6⟩,
    ⟨0x1f, 5⟩, ⟨0x3e, 6⟩, ⟨0x7c, 7⟩, ⟨0x7d, 7⟩,
    ⟨0x3f, 6⟩, ⟨0x7e, 7⟩, ⟨0x7f, 7⟩, ⟨0xfe, 8⟩,
    ⟨0x1fc, 9⟩, ⟨0x1fd, 9⟩, ⟨0xff, 8⟩, ⟨0x1fe, 9⟩],
   [⟨0x3fd, 10⟩, ⟨0x1ff, 9⟩, ⟨0x3fe, 10⟩, ⟨0x7fd, 11⟩,
    ⟨0x3ff, 10⟩, ⟨0x7fe, 11⟩, ⟨0xffc, 12⟩, ⟨0xffd, 12⟩,
    ⟨0x7ff, 11⟩, ⟨0xffe, 12⟩, ⟨0xfff, 12⟩, ⟨0x1ffe, 13⟩,
    ⟨0x1fff, 13⟩, ⟨0x3ffe, 14⟩, ⟨0x3fff, 14⟩, ⟨0x7fff, 15⟩],
   [⟨0xfffe, 16⟩, ⟨0x1fffc, 17⟩, ⟨0x3fff8, 18⟩, ⟨0x3fff9, 18⟩,
    ⟨0x7fff3, 19⟩, ⟨0x1fffd, 17⟩, ⟨0x3fffa, 18⟩, ⟨0x7fff4, 19⟩,
    ⟨0x7fff5, 19⟩, ⟨0x3fffb, 18⟩, ⟨0x7fff6, 19⟩, ⟨0x7fff7, 19⟩,
    ⟨0xfffee, 20⟩, ⟨0xfffef, 20⟩, ⟨0xffff, 16⟩, ⟨0x1fffe, 17⟩],
   [⟨0x3fffc, 18⟩, ⟨0x7fff8, 19⟩, ⟨0xffff0, 20⟩, ⟨0xffff1, 20⟩,
    ⟨0x7fff9, 19⟩, ⟨0xffff2, 20⟩, ⟨0xffff3, 20⟩, ⟨0x3fffd, 18⟩,
    ⟨0x7fffa, 19⟩, ⟨0xffff4, 20⟩, ⟨0x1fffe9, 21⟩, ⟨0xffff5, 20⟩,
    ⟨0x1fffea, 21⟩, ⟨0x1fffeb, 21⟩, ⟨0x7fffb, 19⟩, ⟨0xffff6, 20⟩],
   [⟨0x1fffec, 21⟩, ⟨0x1fffed, 21⟩, ⟨0xffff7, 20⟩, ⟨0x1fffee, 21⟩,
    ⟨0x1fffef, 21⟩, ⟨0x1ffff, 17⟩, ⟨0x3fffe, 18⟩, ⟨0x7fffc, 19⟩,
    ⟨0xffff8, 20⟩, ⟨0x1ffff0, 21⟩, ⟨0x1ffff1, 21⟩, ⟨0xffff9, 20⟩,
    ⟨0x1ffff2, 21⟩, ⟨0x1ffff3, 21⟩, ⟨0x7fffd, 19⟩, ⟨0xffffa, 20⟩],
   [⟨0x1ffff4, 21⟩, ⟨0x1ffff5, 21⟩, ⟨0xffffb, 20⟩, ⟨0x1ffff6, 21⟩,
    ⟨0x3fffec, 22⟩, ⟨0x3fffed, 22⟩, ⟨0x1ffff7, 21⟩, ⟨0x3fffee, 22⟩,
    ⟨0x3fffef, 22⟩, ⟨0x3ffff, 18⟩, ⟨0x7fffe, 19⟩, ⟨0xffffc, 20⟩,
    ⟨0x1ffff8, 21⟩, ⟨0x3ffff0, 22⟩, ⟨0x3ffff1, 22⟩, ⟨0x1ffff9, 21⟩],
   [⟨0x3ffff2, 22⟩, ⟨0x3ffff3, 22⟩, ⟨0xffffd, 20⟩, ⟨0x1ffffa, 21⟩,
    ⟨0x3ffff4, 22⟩, ⟨0x3ffff5, 22⟩, ⟨0x1ffffb, 21⟩, ⟨0x3ffff6, 22⟩,
    ⟨0x3ffff7, 22⟩, ⟨0x7ffff, 19⟩, ⟨0xffffe, 20⟩, ⟨0x1ffffc, 21⟩,
    ⟨0x3ffff8, 22⟩, ⟨0x3ffff9, 22⟩, ⟨0x1ffffd, 21⟩, ⟨0x3ffffa, 22⟩],
   [⟨0x7ffff5, 23⟩, ⟨0x3ffffb, 22⟩, ⟨0x7ffff6, 23⟩, ⟨0x7ffff7, 23⟩,
    ⟨0xfffff, 20⟩, ⟨0x1ffffe, 21⟩, ⟨0x3ffffc, 22⟩, ⟨0x7ffff8, 23⟩,
    ⟨0x7ffff9, 23⟩, ⟨0x3ffffd, 22⟩, ⟨0x7ffffa, 23⟩, ⟨0x7ffffb, 23⟩,
    ⟨0xfffff6, 24⟩, ⟨0xfffff7, 24⟩, ⟨0x1fffff, 21⟩, ⟨0x3ffffe, 22⟩],
   [⟨0x7ffffc, 23⟩, ⟨0xfffff8, 24⟩, ⟨0x1fffff0, 25⟩, ⟨0x1fffff1, 25⟩,
    ⟨0xfffff9, 24⟩, ⟨0x1fffff2, 25⟩, ⟨0x1fffff3, 25⟩, ⟨0x7ffffd, 23⟩,
    ⟨0xfffffa, 24⟩, ⟨0x1fffff4, 25⟩, ⟨0x1fffff5, 25⟩, ⟨0xfffffb, 24⟩,
    ⟨0x1fffff6, 25⟩, ⟨0x1fffff7, 25⟩, ⟨0x3ffffef, 26⟩, ⟨0x3fffff, 22⟩],
   [⟨0x7ffffe, 23⟩, ⟨0xfffffc, 24⟩, ⟨0x1fffff8, 25⟩, ⟨0x3fffff0, 26⟩,
    ⟨0x3fffff1, 26⟩, ⟨0x1fffff9, 25⟩, ⟨0x3fffff2, 26⟩, ⟨0x3fffff3, 26⟩,
    ⟨0xfffffd, 24⟩, ⟨0x1fffffa, 25⟩, ⟨0x3fffff4, 26⟩, ⟨0x3fffff5, 26⟩,
    ⟨0x1fffffb, 25⟩, ⟨0x3fffff6, 26⟩, ⟨0x3fffff7, 26⟩, ⟨0x7fffff, 23⟩],
   [⟨0xfffffe, 24⟩, ⟨0x1fffffc, 25⟩, ⟨0x3fffff8, 26⟩, ⟨0x7fffff1, 27⟩,
    ⟨0x3fffff9, 26⟩, ⟨0x7fffff2, 27⟩, ⟨0x7fffff3, 27⟩, ⟨0x1fffffd, 25⟩,
    ⟨0x3fffffa, 26⟩, ⟨0x7fffff4, 27⟩, ⟨0x7fffff5, 27⟩, ⟨0x3fffffb, 26⟩,
    ⟨0x7fffff6, 27⟩, ⟨0x7fffff7, 27⟩, ⟨0xffffff, 24⟩, ⟨0x1fffffe, 25⟩],
   [⟨0x3fffffc, 26⟩, ⟨0x7fffff8, 27⟩, ⟨0x7fffff9, 27⟩, ⟨0x3fffffd, 26⟩,
    ⟨0x7fffffa, 27⟩, ⟨0x7fffffb, 27⟩, ⟨0x1ffffff, 25⟩, ⟨0x3fffffe, 26⟩,
    ⟨0x7fffffc, 27⟩, ⟨0x7fffffd, 27⟩, ⟨0x3ffffff, 26⟩, ⟨0x7fffffe, 27⟩,
    ⟨0x7ffffff, 27⟩, ⟨0xfffffff, 28⟩, ⟨0x1ffffffe, 29⟩, ⟨0x1fffffff, 29⟩]]

/-- What a state has read of a code. -/
def huffPending (state : ℕ) : HuffEncodeCode :=
  tableRow huffPendingRows state ⟨0, 0⟩

/-! ## Single rows

The checks are written with the Boolean comparisons of `Nat`, which the kernel computes. -/

/-- One entry of the automaton against the code table, for the pending bits `w` of its state. A
refused entry would complete thirty ones; any other keeps what is read, and may end a string
where less than a byte of ones is pending. -/
def huffEntryOk (w : HuffEncodeCode) (state bits : ℕ) : Bool :=
  let entry := huffDecodeEntry state bits
  let next := entry / 2 ^ 24
  let w' := huffPending next
  bif next.beq state then
    Nat.ble 26 w.len && Nat.beq ((w.code * 16 + bits) / 2 ^ (w.len - 26)) (2 ^ 30 - 1)
  else
    (bif (entry / 2 ^ 16 % 256).beq 0 then
      w'.len.beq (w.len + 4) && w'.code.beq (w.code * 16 + bits)
    else
      let c := huffEncodeRow (entry / 2 ^ 8 % 256)
      Nat.beq (w.len + 4) (c.len + w'.len) &&
        Nat.beq (w.code * 16 + bits) (c.code * 2 ^ w'.len + w'.code)) &&
    (Nat.ble (w'.code + 2) (2 ^ w'.len) || Nat.ble 8 w'.len || Nat.ble 1 (entry % 256))

/-- The pending bits of a state fit their length, and four zero bits go on with them: to the end
of a longer code, or to a state that holds more. -/
def huffStateOk (state : ℕ) : Bool :=
  let entry := huffDecodeEntry state 0
  let w := huffPending state
  Nat.ble (w.code + 1) (2 ^ w.len) && Nat.ble w.len 29 && !Nat.beq (entry / 2 ^ 24) state &&
    ((entry / 2 ^ 16 % 256).beq 0 ||
      Nat.ble (w.len + 1) (huffEncodeRow (entry / 2 ^ 8 % 256)).len)

/-- A code has five to thirty bits, not all of them ones. -/
def huffCodeOk (ch : ℕ) : Bool :=
  let c := huffEncodeRow ch
  Nat.ble 5 c.len && Nat.ble c.len 30 && Nat.ble (c.code + 2) (2 ^ c.len)

/-- The tree of the code. -/
@[irreducible] def huffTree : CodeTree ℕ :=
  (List.range 256).foldl (fun t ch => t.insert ch (huffEncodeRow ch).bits) .empty

/-- The tree reads a code to its end. -/
def huffTreeReads (ch : ℕ) : Bool :=
  huffTree.read (huffEncodeRow ch).bits == some (ch, [])

/-! ## Whole tables -/

theorem huffEntries_ok : (List.range 256).all (fun state =>
    (List.range 16).all fun bits => huffEntryOk (huffPending state) state bits) = true := by
  decide +kernel

theorem huffStates_ok : (List.range 256).all huffStateOk = true := by
  decide +kernel

theorem huffCodes_ok : (List.range 256).all huffCodeOk = true := by
  decide +kernel

theorem huffTree_reads : (List.range 256).all huffTreeReads = true := by
  decide +kernel

end Khttpd
