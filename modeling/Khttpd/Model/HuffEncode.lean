import Khttpd.Model.HuffTables

/-!
# Huffman encoding

`kgl_http_v2_huff_encode` of `KHuffEncode.cpp` with a 64-bit `uintptr_t`, and its table for strings
in lower case. The macros by which the build chooses a `kgl_http_v2_huff_encode_buf` are a parameter,
and so is `kgl_align`: they are not part of the source.
-/

set_option autoImplicit false

namespace Khttpd

/-- The rows of `kgl_http_v2_huff_encode_table_lc`. -/
def huffEncodeLcRows : List (List HuffEncodeCode) :=
  [[⟨0x1ff8, 13⟩, ⟨0x7fffd8, 23⟩, ⟨0xfffffe2, 28⟩, ⟨0xfffffe3, 28⟩,
    ⟨0xfffffe4, 28⟩, ⟨0xfffffe5, 28⟩, ⟨0xfffffe6, 28⟩, ⟨0xfffffe7, 28⟩,
    ⟨0xfffffe8, 28⟩, ⟨0xffffea, 24⟩, ⟨0x3ffffffc, 30⟩, ⟨0xfffffe9, 28⟩,
    ⟨0xfffffea, 28⟩, ⟨0x3ffffffd, 30⟩, ⟨0xfffffeb, 28⟩, ⟨0xfffffec, 28⟩],
   [⟨0xfffffed, 28⟩, ⟨0xfffffee, 28⟩, ⟨0xfffffef, 28⟩, ⟨0xffffff0, 28⟩,
    ⟨0xffffff1, 28⟩, ⟨0xffffff2, 28⟩, ⟨0x3ffffffe, 30⟩, ⟨0xffffff3, 28⟩,
    ⟨0xffffff4, 28⟩, ⟨0xffffff5, 28⟩, ⟨0xffffff6, 28⟩, ⟨0xffffff7, 28⟩,
    ⟨0xffffff8, 28⟩, ⟨0xffffff9, 28⟩, ⟨0xffffffa, 28⟩, ⟨0xffffffb, 28⟩],
   [⟨0x14, 6⟩, ⟨0x3f8, 10⟩, ⟨0x3f9, 10⟩, ⟨0xffa, 12⟩,
    ⟨0x1ff9, 13⟩, ⟨0x15, 6⟩, ⟨0xf8, 8⟩, ⟨0x7fa, 11⟩,
    ⟨0x3fa, 10⟩, ⟨0x3fb, 10⟩, ⟨0xf9, 8⟩, ⟨0x7fb, 11⟩,
    ⟨0xfa, 8⟩, ⟨0x16, 6⟩, ⟨0x17, 6⟩, ⟨0x18, 6⟩],
   [⟨0x0, 5⟩, ⟨0x1, 5⟩, ⟨0x2, 5⟩, ⟨0x19, 6⟩,
    ⟨0x1a, 6⟩, ⟨0x1b, 6⟩, ⟨0x1c, 6⟩, ⟨0x1d, 6⟩,
    ⟨0x1e, 6⟩, ⟨0x1f, 6⟩, ⟨0x5c, 7⟩, ⟨0xfb, 8⟩,
    ⟨0x7ffc, 15⟩, ⟨0x20, 6⟩, ⟨0xffb, 12⟩, ⟨0x3fc, 10⟩],
   [⟨0x1ffa, 13⟩, ⟨0x3, 5⟩, ⟨0x23, 6⟩, ⟨0x4, 5⟩,
    ⟨0x24, 6⟩, ⟨0x5, 5⟩, ⟨0x25, 6⟩, ⟨0x26, 6⟩,
    ⟨0x27, 6⟩, ⟨0x6, 5⟩, ⟨0x74, 7⟩, ⟨0x75, 7⟩,
    ⟨0x28, 6⟩, ⟨0x29, 6⟩, ⟨0x2a, 6⟩, ⟨0x7, 5⟩],
   [⟨0x2b, 6⟩, ⟨0x76, 7⟩, ⟨0x2c, 6⟩, ⟨0x8, 5⟩,
    ⟨0x9, 5⟩, ⟨0x2d, 6⟩, ⟨0x77, 7⟩, ⟨0x78, 7⟩,
    ⟨0x79, 7⟩, ⟨0x7a, 7⟩, ⟨0x7b, 7⟩, ⟨0x1ffb, 13⟩,
    ⟨0x7fff0, 19⟩, ⟨0x1ffc, 13⟩, ⟨0x3ffc, 14⟩, ⟨0x22, 6⟩],
   [⟨0x7ffd, 15⟩, ⟨0x3, 5⟩, ⟨0x23, 6⟩, ⟨0x4, 5⟩,
    ⟨0x24, 6⟩, ⟨0x5, 5⟩, ⟨0x25, 6⟩, ⟨0x26, 6⟩,
    ⟨0x27, 6⟩, ⟨0x6, 5⟩, ⟨0x74, 7⟩, ⟨0x75, 7⟩,
    ⟨0x28, 6⟩, ⟨0x29, 6⟩, ⟨0x2a, 6⟩, ⟨0x7, 5⟩],
   [⟨0x2b, 6⟩, ⟨0x76, 7⟩, ⟨0x2c, 6⟩, ⟨0x8, 5⟩,
    ⟨0x9, 5⟩, ⟨0x2d, 6⟩, ⟨0x77, 7⟩, ⟨0x78, 7⟩,
    ⟨0x79, 7⟩, ⟨0x7a, 7⟩, ⟨0x7b, 7⟩, ⟨0x7ffe, 15⟩,
    ⟨0x7fc, 11⟩, ⟨0x3ffd, 14⟩, ⟨0x1ffd, 13⟩, ⟨0xffffffc, 28⟩],
   [⟨0xfffe6, 20⟩, ⟨0x3fffd2, 22⟩, ⟨0xfffe7, 20⟩, ⟨0xfffe8, 20⟩,
    ⟨0x3fffd3, 22⟩, ⟨0x3fffd4, 22⟩, ⟨0x3fffd5, 22⟩, ⟨0x7fffd9, 23⟩,
    ⟨0x3fffd6, 22⟩, ⟨0x7fffda, 23⟩, ⟨0x7fffdb, 23⟩, ⟨0x7fffdc, 23⟩,
    ⟨0x7fffdd, 23⟩, ⟨0x7fffde, 23⟩, ⟨0xffffeb, 24⟩, ⟨0x7fffdf, 23⟩],
   [⟨0xffffec, 24⟩, ⟨0xffffed, 24⟩, ⟨0x3fffd7, 22⟩, ⟨0x7fffe0, 23⟩,
    ⟨0xffffee, 24⟩, ⟨0x7fffe1, 23⟩, ⟨0x7fffe2, 23⟩, ⟨0x7fffe3, 23⟩,
    ⟨0x7fffe4, 23⟩, ⟨0x1fffdc, 21⟩, ⟨0x3fffd8, 22⟩, ⟨0x7fffe5, 23⟩,
    ⟨0x3fffd9, 22⟩, ⟨0x7fffe6, 23⟩, ⟨0x7fffe7, 23⟩, ⟨0xffffef, 24⟩],
   [⟨0x3fffda, 22⟩, ⟨0x1fffdd, 21⟩, ⟨0xfffe9, 20⟩, ⟨0x3fffdb, 22⟩,
    ⟨0x3fffdc, 22⟩, ⟨0x7fffe8, 23⟩, ⟨0x7fffe9, 23⟩, ⟨0x1fffde, 21⟩,
    ⟨0x7fffea, 23⟩, ⟨0x3fffdd, 22⟩, ⟨0x3fffde, 22⟩, ⟨0xfffff0, 24⟩,
    ⟨0x1fffdf, 21⟩, ⟨0x3fffdf, 22⟩, ⟨0x7fffeb, 23⟩, ⟨0x7fffec, 23⟩],
   [⟨0x1fffe0, 21⟩, ⟨0x1fffe1, 21⟩, ⟨0x3fffe0, 22⟩, ⟨0x1fffe2, 21⟩,
    ⟨0x7fffed, 23⟩, ⟨0x3fffe1, 22⟩, ⟨0x7fffee, 23⟩, ⟨0x7fffef, 23⟩,
    ⟨0xfffea, 20⟩, ⟨0x3fffe2, 22⟩, ⟨0x3fffe3, 22⟩, ⟨0x3fffe4, 22⟩,
    ⟨0x7ffff0, 23⟩, ⟨0x3fffe5, 22⟩, ⟨0x3fffe6, 22⟩, ⟨0x7ffff1, 23⟩],
   [⟨0x3ffffe0, 26⟩, ⟨0x3ffffe1, 26⟩, ⟨0xfffeb, 20⟩, ⟨0x7fff1, 19⟩,
    ⟨0x3fffe7, 22⟩, ⟨0x7ffff2, 23⟩, ⟨0x3fffe8, 22⟩, ⟨0x1ffffec, 25⟩,
    ⟨0x3ffffe2, 26⟩, ⟨0x3ffffe3, 26⟩, ⟨0x3ffffe4, 26⟩, ⟨0x7ffffde, 27⟩,
    ⟨0x7ffffdf, 27⟩, ⟨0x3ffffe5, 26⟩, ⟨0xfffff1, 24⟩, ⟨0x1ffffed, 25⟩],
   [⟨0x7fff2, 19⟩, ⟨0x1fffe3, 21⟩, ⟨0x3ffffe6, 26⟩, ⟨0x7ffffe0, 27⟩,
    ⟨0x7ffffe1, 27⟩, ⟨0x3ffffe7, 26⟩, ⟨0x7ffffe2, 27⟩, ⟨0xfffff2, 24⟩,
    ⟨0x1fffe4, 21⟩, ⟨0x1fffe5, 21⟩, ⟨0x3ffffe8, 26⟩, ⟨0x3ffffe9, 26⟩,
    ⟨0xffffffd, 28⟩, ⟨0x7ffffe3, 27⟩, ⟨0x7ffffe4, 27⟩, ⟨0x7ffffe5, 27⟩],
   [⟨0xfffec, 20⟩, ⟨0xfffff3, 24⟩, ⟨0xfffed, 20⟩, ⟨0x1fffe6, 21⟩,
    ⟨0x3fffe9, 22⟩, ⟨0x1fffe7, 21⟩, ⟨0x1fffe8, 21⟩, ⟨0x7ffff3, 23⟩,
    ⟨0x3fffea, 22⟩, ⟨0x3fffeb, 22⟩, ⟨0x1ffffee, 25⟩, ⟨0x1ffffef, 25⟩,
    ⟨0xfffff4, 24⟩, ⟨0xfffff5, 24⟩, ⟨0x3ffffea, 26⟩, ⟨0x7ffff4, 23⟩],
   [⟨0x3ffffeb, 26⟩, ⟨0x7ffffe6, 27⟩, ⟨0x3ffffec, 26⟩, ⟨0x3ffffed, 26⟩,
    ⟨0x7ffffe7, 27⟩, ⟨0x7ffffe8, 27⟩, ⟨0x7ffffe9, 27⟩, ⟨0x7ffffea, 27⟩,
    ⟨0x7ffffeb, 27⟩, ⟨0xffffffe, 28⟩, ⟨0x7ffffec, 27⟩, ⟨0x7ffffed, 27⟩,
    ⟨0x7ffffee, 27⟩, ⟨0x7ffffef, 27⟩, ⟨0x7fffff0, 27⟩, ⟨0x3ffffee, 26⟩]]

/-- `kgl_http_v2_huff_encode_table_lc`. -/
def kglHttpV2HuffEncodeTableLc (ch : Byte) : HuffEncodeCode :=
  tableRow huffEncodeLcRows ch.toNat ⟨0, 0⟩

/-- `table`. -/
def huffTable (lower : Bool) : Byte → HuffEncodeCode :=
  if lower then kglHttpV2HuffEncodeTableLc else kglHttpV2HuffEncodeTable

/-! ## Storing a word -/

/-- The definitions of `kgl_http_v2_huff_encode_buf`: with `__builtin_bswap64`, byte by byte, for a
big-endian machine, and where `KGL_PTR_SIZE` is not 8. -/
inductive HuffEncodeBuf where
  | bswap64
  | bytes
  | bigEndian
  | htonl
  deriving DecidableEq, Repr

/-- The bytes of a word of 32 bits, the highest first. -/
def wordBytes (word : UInt32) : Bytes :=
  [(word >>> 24).toUInt8, (word >>> 16).toUInt8, (word >>> 8).toUInt8, word.toUInt8]

/-- What `kgl_http_v2_huff_encode_buf` stores, given `(uint32_t) buf`; `none` where it shifts these
32 bits by 56. -/
def HuffEncodeBuf.store (word : UInt32) : HuffEncodeBuf → Option Bytes
  | bswap64 | bigEndian => some ([0, 0, 0, 0] ++ wordBytes word)
  | bytes => none
  | htonl => some (wordBytes word)

/-- The memory from `dst` on with these bytes stored at `pos`. -/
def storeAt (dst : ℕ → Byte) (pos : ℕ) (bytes : Bytes) : ℕ → Byte := fun i =>
  if pos ≤ i then (bytes[i - pos]?).getD (dst i) else dst i

/-! ## `kgl_http_v2_huff_encode` -/

/-- What the loop works with. -/
structure HuffEncodeRun where
  hlen : ℕ
  buf : UInt64
  pending : ℕ
  dst : ℕ → Byte

/-- How a round of the loop ends. -/
inductive HuffEncodeRound where
  | next (r : HuffEncodeRun)
  | return (hlen : ℕ) (dst : ℕ → Byte)
  | undefined

/-- One round of the loop, for the code `next`. -/
def huffEncodeByte (store : HuffEncodeBuf) (len : ℕ) (next : HuffEncodeCode) (r : HuffEncodeRun) :
    HuffEncodeRound :=
  let code := UInt64.ofNat next.code
  let pending := r.pending + next.len
  if pending < 64 then
    .next { r with pending := pending, buf := r.buf ||| code <<< UInt64.ofNat (64 - pending) }
  else if r.hlen + 8 ≥ len then .return 0 r.dst
  else
    let pending := pending - 64
    let buf := r.buf ||| code >>> UInt64.ofNat pending
    match store.store buf.toUInt32 with
    | none => .undefined
    | some bytes =>
      .next
        { hlen := r.hlen + 8
          buf := if pending ≠ 0 then code <<< UInt64.ofNat (64 - pending) else 0
          pending := pending
          dst := storeAt r.dst r.hlen bytes }

/-- The `do` loop that stores the last bytes, of at most `fuel` rounds. -/
def huffEncodeTail (buf : UInt64) : ℕ → ℕ → ℕ → (ℕ → Byte) → ℕ × (ℕ → Byte)
  | 0, _, hlen, dst => (hlen, dst)
  | fuel + 1, pending, hlen, dst =>
    let pending := pending - 8
    let dst := storeAt dst hlen [(buf >>> UInt64.ofNat pending).toUInt8]
    if pending ≠ 0 then huffEncodeTail buf fuel pending (hlen + 1) dst else (hlen + 1, dst)

/-- What follows the loop. -/
def huffEncodeEnd (kglAlign : ℕ → ℕ → ℕ) (len : ℕ) (r : HuffEncodeRun) : ℕ × (ℕ → Byte) :=
  if r.pending = 0 then (r.hlen, r.dst)
  else
    let buf := r.buf ||| (-1) >>> UInt64.ofNat r.pending
    let pending := kglAlign r.pending 8
    if r.hlen + pending / 8 ≥ len then (0, r.dst)
    else huffEncodeTail (buf >>> UInt64.ofNat (64 - pending)) (pending / 8) pending r.hlen r.dst

/-- The loop of `kgl_http_v2_huff_encode`, and what follows it. -/
def huffEncodeLoop (store : HuffEncodeBuf) (kglAlign : ℕ → ℕ → ℕ) (table : Byte → HuffEncodeCode)
    (len : ℕ) : Bytes → HuffEncodeRun → Option (ℕ × (ℕ → Byte))
  | [], r => some (huffEncodeEnd kglAlign len r)
  | ch :: src, r =>
    match huffEncodeByte store len (table ch) r with
    | .next r => huffEncodeLoop store kglAlign table len src r
    | .return hlen dst => some (hlen, dst)
    | .undefined => none

/-- `kgl_http_v2_huff_encode` on `src` and the memory from `dst` on: the length that is returned, and
the memory; `none` is undefined behaviour. -/
def kglHttpV2HuffEncode (store : HuffEncodeBuf) (kglAlign : ℕ → ℕ → ℕ) (src : Bytes)
    (dst : ℕ → Byte) (lower : Bool) : Option (ℕ × (ℕ → Byte)) :=
  huffEncodeLoop store kglAlign (huffTable lower) src.length src ⟨0, 0, 0, dst⟩

/-! ## The code of a string -/

/-- The codes of a string, one after the other. -/
def huffBits (lower : Bool) (s : Bytes) : List Bool := s.flatMap fun ch => (huffTable lower ch).bits

/-- The code of a string: padded with one bits to a byte boundary. -/
def huffCodeBytes (lower : Bool) (s : Bytes) : Bytes :=
  packBits (huffBits lower s ++ huffPadding (huffBits lower s).length)

end Khttpd
