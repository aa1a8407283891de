import Khttpd.Model.Frame

/-!
# Incremental Huffman decoding

`kgl_http_v2_huff_decode` of `KHuffDecode.cpp`. The 256 by 16 table of the decoder automaton
is a parameter: nothing below looks at its contents.
-/

set_option autoImplicit false

namespace Khttpd

/-- `kgl_http_v2_huff_decode_code_t`. -/
structure HuffDecodeCode where
  next : Byte
  emit : Byte
  sym : Byte
  ending : Byte
  deriving DecidableEq, Repr

/-- The shape of `kgl_http_v2_huff_decode_codes`: automaton state and four bits of input. -/
abbrev HuffDecodeCodes : Type := Byte → Byte → HuffDecodeCode

/-- What one decoding run carries: the automaton state, whether the code read last may end the
string, and the bytes emitted. -/
structure HuffDecodeRun where
  state : Byte
  ending : Bool
  dst : Bytes
  deriving DecidableEq, Repr

/-- `kgl_http_v2_huff_decode_bits`; `none` is `return false`. -/
def huffDecodeBits (codes : HuffDecodeCodes) (bits : Byte) (r : HuffDecodeRun) :
    Option HuffDecodeRun :=
  let code := codes r.state bits
  if code.next = r.state then none
  else some
    { state := code.next
      ending := code.ending != 0
      dst := if code.emit != 0 then r.dst ++ [code.sym] else r.dst }

/-- The loop of `kgl_http_v2_huff_decode`: the high and then the low half of each byte. -/
def huffDecodeLoop (codes : HuffDecodeCodes) : Bytes → HuffDecodeRun → Option HuffDecodeRun
  | [], r => some r
  | ch :: src, r =>
    match huffDecodeBits codes (ch >>> 4) r with
    | none => none
    | some r =>
      match huffDecodeBits codes (ch &&& 0xf) r with
      | none => none
      | some r => huffDecodeLoop codes src r

/-- `kgl_http_v2_huff_decode`: decode `src` from automaton state `state`, appending to `dst`.
On the `last` part the input must end at a boundary and the automaton starts over. -/
def huffDecode (codes : HuffDecodeCodes) (state : Byte) (src dst : Bytes) (last : Bool) :
    Option (Byte × Bytes) :=
  match huffDecodeLoop codes src ⟨state, true, dst⟩ with
  | none => none
  | some r => if last then if r.ending then some (0, r.dst) else none else some (r.state, r.dst)

end Khttpd
