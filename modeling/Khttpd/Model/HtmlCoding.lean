import Khttpd.Model.KXml
import Khttpd.Model.Streams

/-!
# HTML entities in their buffers

`KXml::htmlEncode`, and `KXml::htmlDecode` as it works in its buffer. Lengths are `int`; memory is
always granted.
-/

set_option autoImplicit false

namespace Khttpd

/-! ## `KXml::htmlEncode` -/

/-- What is written for a character. -/
def htmlEncodeChar (c : Byte) : Bytes :=
  if c = 39 then kglString "&#39;"
  else if c = 34 then kglString "&#34;"
  else if c = 38 then kglString "&amp;"
  else if c = 62 then kglString "&gt;"
  else if c = 60 then kglString "&lt;"
  else [c]

/-- The loop of `htmlEncode`, up to the NUL. -/
def htmlEncodeLoop : Bytes → Bytes
  | [] => []
  | c :: src => if c = 0 then [] else htmlEncodeChar c ++ htmlEncodeLoop src

/-- The size that is allocated for a string of `len` bytes; `none` when it is no `int`. -/
def htmlEncodeSize (len : ℕ) : Option ℕ := if 5 * len + 1 < 2 ^ 31 then some (5 * len + 1) else none

/-- `KXml::htmlEncode` with the size of `buf`, `none` where it is null: the string that is left in
the buffer, and `len`. There is no result where the size overflows, or the buffer does. -/
def htmlEncode (str : Bytes) (len : ℕ) (buf : Option ℕ) : Option (Bytes × ℤ) :=
  match buf <|> htmlEncodeSize len with
  | none => none
  | some size =>
    let dst := htmlEncodeLoop str
    if dst.length < size then some (dst, toInt32 dst.length) else none

/-! ## `KXml::htmlDecode` -/

/-- The loop of `htmlDecode` with the positions of `dst` and `src` in the buffer, of at most `fuel`
rounds. -/
def htmlDecodeLoop : ℕ → Bytes → ℕ → ℕ → Bytes × ℕ
  | 0, buf, dst, _ => (buf, dst)
  | fuel + 1, buf, dst, src =>
    match cstr (buf.drop src) with
    | [] => (buf.set dst 0, dst)
    | c :: s =>
      match if c = 38 then entity s else none with
      | some (b, rest) =>
        htmlDecodeLoop fuel (buf.set dst b) (dst + 1) (src + 1 + (s.length - rest.length))
      | none => htmlDecodeLoop fuel (buf.set dst c) (dst + 1) (src + 1)

/-- `KXml::htmlDecode`: the buffer that it leaves, and `len`. -/
def htmlDecodeBuf (buf : Bytes) : Bytes × ℤ :=
  let r := htmlDecodeLoop (buf.length + 1) buf 0 0
  (r.1, toInt32 r.2)

end Khttpd
