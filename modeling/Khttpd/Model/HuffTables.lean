import Khttpd.Lib.PrefixCode
import Khttpd.Model.HuffDecode

/-!
# The Huffman tables of HPACK

The code table of `KHuffEncode.cpp` and the automaton of `KHuffDecode.cpp`, as the source lists
them, the text of a byte string under the code, and the calls of `kgl_http_v2_huff_decode` by
which such a text is read.
-/

set_option autoImplicit false

namespace Khttpd

open PrefixCode

/-- `kgl_http_v2_huff_encode_code_t`: the `len` low bits of `code`. -/
structure HuffEncodeCode where
  code : ℕ
  len : ℕ
  deriving DecidableEq, Repr

/-- The bits of a code, the highest first. -/
def HuffEncodeCode.bits (c : HuffEncodeCode) : List Bool :=
  PrefixCode.bits c.len c.code

/-- Row `i` of a table of 256 rows that are listed in sixteen groups of sixteen. -/
def tableRow {α : Type} (table : List (List α)) (i : ℕ) (default : α) : α :=
  (table.getD (i / 16) []).getD (i % 16) default

/-- The rows of `kgl_http_v2_huff_encode_table`. -/
def huffEncodeRows : List (List HuffEncodeCode) :=
  [[⟨0x1ff8, 13⟩, ⟨0x7fffd8, 23⟩, ⟨0xfffffe2, 28⟩, ⟨0xfffffe3, 28⟩,
    ⟨0xfffffe4, 28⟩, ⟨0xfffffe5, 28⟩, ⟨0xfffffe6, 28⟩, ⟨0xfffffe7, 28⟩,
    ⟨0xfffffe8, 28⟩, ⟨0xffffea, 24⟩, ⟨0x3ffffffc, 30⟩, ⟨0xfffffe9, 28⟩,
    ⟨0xfffffea, 28⟩, ⟨0x3ffffffd, 30⟩, ⟨0xfffffeb, 28⟩, ⟨0xfffffec, 28⟩],
   [⟨0xfffffed, 28⟩, ⟨0xfffffee, 28⟩, ⟨0xfffffef, 28⟩, ⟨0xffffff0, 28⟩,
    ⟨0xffffff1, 28⟩, ⟨0xffffff2, 28⟩, ⟨0x3ffffffe, 30⟩, ⟨0xffffff3, 28⟩,
    ⟨0xffffff4, 28⟩, ⟨0xffffff5, 28⟩, ⟨0xffffff6, 28⟩, ⟨0xffffff7, 28⟩,
    ⟨0xffffff8, 28⟩, ⟨0xffffff9, 28⟩, ⟨0xffffffa, 28⟩, ⟨0xffffffb, 28⟩],
   [⟨0x14, 6⟩, ⟨0x3f8, 10⟩, ⟨0x3f9, 10⟩, ⟨0xffa, 12⟩,
    ⟨0x1ff9, 13⟩, ⟨0x15, 6⟩, ⟨0xf8, 8⟩, ⟨0x7fa, 11⟩,
    ⟨0x3fa, 10⟩, ⟨0x3fb, 10⟩, ⟨0xf9, 8⟩, ⟨0x7fb, 11⟩,
    ⟨0xfa, 8⟩, ⟨0x16, 6⟩, ⟨0x17, 6⟩, ⟨0x18, 6⟩],
   [⟨0x0, 5⟩, ⟨0x1, 5⟩, ⟨0x2, 5⟩, ⟨0x19, 6⟩,
    ⟨0x1a, 6⟩, ⟨0x1b, 6⟩, ⟨0x1c, 6⟩, ⟨0x1d, 6⟩,
    ⟨0x1e, 6⟩, ⟨0x1f, 6⟩, ⟨0x5c, 7⟩, ⟨0xfb, 8⟩,
    ⟨0x7ffc, 15⟩, ⟨0x20, 6⟩, ⟨0xffb, 12⟩, ⟨0x3fc, 10⟩],
   [⟨0x1ffa, 13⟩, ⟨0x21, 6⟩, ⟨0x5d, 7⟩, ⟨0x5e, 7⟩,
    ⟨0x5f, 7⟩, ⟨0x60, 7⟩, ⟨0x61, 7⟩, ⟨0x62, 7⟩,
    ⟨0x63, 7⟩, ⟨0x64, 7⟩, ⟨0x65, 7⟩, ⟨0x66, 7⟩,
    ⟨0x67, 7⟩, ⟨0x68, 7⟩, ⟨0x69, 7⟩, ⟨0x6a, 7⟩],
   [⟨0x6b, 7⟩, ⟨0x6c, 7⟩, ⟨0x6d, 7⟩, ⟨0x6e, 7⟩,
    ⟨0x6f, 7⟩, ⟨0x70, 7⟩, ⟨0x71, 7⟩, ⟨0x72, 7⟩,
    ⟨0xfc, 8⟩, ⟨0x73, 7⟩, ⟨0xfd, 8⟩, ⟨0x1ffb, 13⟩,
    ⟨0x7fff0, 19⟩, ⟨0x1ffc, 13⟩, ⟨0x3ffc, 14⟩, ⟨0x22, 6⟩],
   [⟨0x7ffd, 15⟩, ⟨0x3, 5⟩, ⟨0x23, 6⟩, ⟨0x4, 5⟩,
    ⟨0x24, 6⟩, ⟨0x5, 5⟩, ⟨0x25, 6⟩, ⟨0x26, 6⟩,
    ⟨0x27, 6⟩, ⟨0x6, 5⟩, ⟨0x74, 7⟩, ⟨0x75, 7⟩,
    ⟨0x28, 6⟩, ⟨0x29, 6⟩, ⟨0x2a, 6⟩, ⟨0x7, 5⟩],
   [⟨0x2b, 6⟩, ⟨0x76, 7⟩, ⟨0x2c, 6⟩, ⟨0x8, 5⟩,
    ⟨0x9, 5⟩, ⟨0x2d, 6⟩, ⟨0x77, 7⟩, ⟨0x78, 7⟩,
    ⟨0x79, 7⟩, ⟨0x7a, 7⟩, ⟨0x7b, 7⟩, ⟨0x7ffe, 15⟩,
    ⟨0x7fc, 11⟩, ⟨0x3ffd, 14⟩, ⟨0x1ffd, 13⟩, ⟨0xffffffc, 28⟩],
   [⟨0xfffe6, 20⟩, ⟨0x3fffd2, 22⟩, ⟨0xfffe7, 20⟩, ⟨0xfffe8, 20⟩,
    ⟨0x3fffd3, 22⟩, ⟨0x3fffd4, 22⟩, ⟨0x3fffd5, 22⟩, ⟨0x7fffd9, 23⟩,
    ⟨0x3fffd6, 22⟩, ⟨0x7fffda, 23⟩, ⟨0x7fffdb, 23⟩, ⟨0x7fffdc, 23⟩,
    ⟨0x7fffdd, 23⟩, ⟨0x7fffde, 23⟩, ⟨0xffffeb, 24⟩, ⟨0x7fffdf, 23⟩],
   [⟨0xffffec, 24⟩, ⟨0xffffed, 24⟩, ⟨0x3fffd7, 22⟩, ⟨0x7fffe0, 23⟩,
    ⟨0xffffee, 24⟩, ⟨0x7fffe1, 23⟩, ⟨0x7fffe2, 23⟩, ⟨0x7fffe3, 23⟩,
    ⟨0x7fffe4, 23⟩, ⟨0x1fffdc, 21⟩, ⟨0x3fffd8, 22⟩, ⟨0x7fffe5, 23⟩,
    ⟨0x3fffd9, 22⟩, ⟨0x7fffe6, 23⟩, ⟨0x7fffe7, 23⟩, ⟨0xffffef, 24⟩],
   [⟨0x3fffda, 22⟩, ⟨0x1fffdd, 21⟩, ⟨0xfffe9, 20⟩, ⟨0x3fffdb, 22⟩,
    ⟨0x3fffdc, 22⟩, ⟨0x7fffe8, 23⟩, ⟨0x7fffe9, 23⟩, ⟨0x1fffde, 21⟩,
    ⟨0x7fffea, 23⟩, ⟨0x3fffdd, 22⟩, ⟨0x3fffde, 22⟩, ⟨0xfffff0, 24⟩,
    ⟨0x1fffdf, 21⟩, ⟨0x3fffdf, 22⟩, ⟨0x7fffeb, 23⟩, ⟨0x7fffec, 23⟩],
   [⟨0x1fffe0, 21⟩, ⟨0x1fffe1, 21⟩, ⟨0x3fffe0, 22⟩, ⟨0x1fffe2, 21⟩,
    ⟨0x7fffed, 23⟩, ⟨0x3fffe1, 22⟩, ⟨0x7fffee, 23⟩, ⟨0x7fffef, 23⟩,
    ⟨0xfffea, 20⟩, ⟨0x3fffe2, 22⟩, ⟨0x3fffe3, 22⟩, ⟨0x3fffe4, 22⟩,
    ⟨0x7ffff0, 23⟩, ⟨0x3fffe5, 22⟩, ⟨0x3fffe6, 22⟩, ⟨0x7ffff1, 23⟩],
   [⟨0x3ffffe0, 26⟩, ⟨0x3ffffe1, 26⟩, ⟨0xfffeb, 20⟩, ⟨0x7fff1, 19⟩,
    ⟨0x3fffe7, 22⟩, ⟨0x7ffff2, 23⟩, ⟨0x3fffe8, 22⟩, ⟨0x1ffffec, 25⟩,
    ⟨0x3ffffe2, 26⟩, ⟨0x3ffffe3, 26⟩, ⟨0x3ffffe4, 26⟩, ⟨0x7ffffde, 27⟩,
    ⟨0x7ffffdf, 27⟩, ⟨0x3ffffe5, 26⟩, ⟨0xfffff1, 24⟩, ⟨0x1ffffed, 25⟩],
   [⟨0x7fff2, 19⟩, ⟨0x1fffe3, 21⟩, ⟨0x3ffffe6, 26⟩, ⟨0x7ffffe0, 27⟩,
    ⟨0x7ffffe1, 27⟩, ⟨0x3ffffe7, 26⟩, ⟨0x7ffffe2, 27⟩, ⟨0xfffff2, 24⟩,
    ⟨0x1fffe4, 21⟩, ⟨0x1fffe5, 21⟩, ⟨0x3ffffe8, 26⟩, ⟨0x3ffffe9, 26⟩,
    ⟨0xffffffd, 28⟩, ⟨0x7ffffe3, 27⟩, ⟨0x7ffffe4, 27⟩, ⟨0x7ffffe5, 27⟩],
   [⟨0xfffec, 20⟩, ⟨0xfffff3, 24⟩, ⟨0xfffed, 20⟩, ⟨0x1fffe6, 21⟩,
    ⟨0x3fffe9, 22⟩, ⟨0x1fffe7, 21⟩, ⟨0x1fffe8, 21⟩, ⟨0x7ffff3, 23⟩,
    ⟨0x3fffea, 22⟩, ⟨0x3fffeb, 22⟩, ⟨0x1ffffee, 25⟩, ⟨0x1ffffef, 25⟩,
    ⟨0xfffff4, 24⟩, ⟨0xfffff5, 24⟩, ⟨0x3ffffea, 26⟩, ⟨0x7ffff4, 23⟩],
   [⟨0x3ffffeb, 26⟩, ⟨0x7ffffe6, 27⟩, ⟨0x3ffffec, 26⟩, ⟨0x3ffffed, 26⟩,
    ⟨0x7ffffe7, 27⟩, ⟨0x7ffffe8, 27⟩, ⟨0x7ffffe9, 27⟩, ⟨0x7ffffea, 27⟩,
    ⟨0x7ffffeb, 27⟩, ⟨0xffffffe, 28⟩, ⟨0x7ffffec, 27⟩, ⟨0x7ffffed, 27⟩,
    ⟨0x7ffffee, 27⟩, ⟨0x7ffffef, 27⟩, ⟨0x7fffff0, 27⟩, ⟨0x3ffffee, 26⟩]]

/-- The code of the byte with number `ch`. -/
def huffEncodeRow (ch : ℕ) : HuffEncodeCode :=
  tableRow huffEncodeRows ch ⟨0, 0⟩

/-- `kgl_http_v2_huff_encode_table`. -/
def kglHttpV2HuffEncodeTable (ch : Byte) : HuffEncodeCode :=
  huffEncodeRow ch.toNat

/-- The rows of `kgl_http_v2_huff_decode_codes`, one for each state: eight entries in each half,
in each entry the bytes `next`, `emit`, `sym` and `ending`. -/
def huffDecodeRows : List (List (ℕ × ℕ)) :=
  [[(0x04000000_05000000_07000000_08000000_0b000000_0c000000_10000000_13000000,
     0x19000000_1c000000_20000000_23000000_2a000000_31000000_39000000_40000001),
    (0x00013001_00013101_00013201_00016101_00016301_00016501_00016901_00016f01,
     0x00017301_00017401_0d000000_0e000000_11000000_12000000_14000000_15000000),
    (0x01013000_16013001_01013100_16013101_01013200_16013201_01016100_16016101,
     0x01016300_16016301_01016500_16016501_01016900_16016901_01016f00_16016f01),
    (0x02013000_09013000_17013000_28013001_02013100_09013100_17013100_28013101,
     0x02013200_09013200_17013200_28013201_02016100_09016100_17016100_28016101),
    (0x03013000_06013000_0a013000_0f013000_18013000_1f013000_29013000_38013001,
     0x03013100_06013100_0a013100_0f013100_18013100_1f013100_29013100_38013101),
    (0x03013200_06013200_0a013200_0f013200_18013200_1f013200_29013200_38013201,
     0x03016100_06016100_0a016100_0f016100_18016100_1f016100_29016100_38016101),
    (0x02016300_09016300_17016300_28016301_02016500_09016500_17016500_28016501,
     0x02016900_09016900_17016900_28016901_02016f00_09016f00_17016f00_28016f01),
    (0x03016300_06016300_0a016300_0f016300_18016300_1f016300_29016300_38016301,
     0x03016500_06016500_0a016500_0f016500_18016500_1f016500_29016500_38016501),
    (0x03016900_06016900_0a016900_0f016900_18016900_1f016900_29016900_38016901,
     0x03016f00_06016f00_0a016f00_0f016f00_18016f00_1f016f00_29016f00_38016f01),
    (0x01017300_16017301_01017400_16017401_00012001_00012501_00012d01_00012e01,
     0x00012f01_00013301_00013401_00013501_00013601_00013701_00013801_00013901),
    (0x02017300_09017300_17017300_28017301_02017400_09017400_17017400_28017401,
     0x01012000_16012001_01012500_16012501_01012d00_16012d01_01012e00_16012e01),
    (0x03017300_06017300_0a017300_0f017300_18017300_1f017300_29017300_38017301,
     0x03017400_06017400_0a017400_0f017400_18017400_1f017400_29017400_38017401),
    (0x02012000_09012000_17012000_28012001_02012500_09012500_17012500_28012501,
     0x02012d00_09012d00_17012d00_28012d01_02012e00_09012e00_17012e00_28012e01),
    (0x03012000_06012000_0a012000_0f012000_18012000_1f012000_29012000_38012001,
     0x03012500_06012500_0a012500_0f012500_18012500_1f012500_29012500_38012501),
    (0x03012d00_06012d00_0a012d00_0f012d00_18012d00_1f012d00_29012d00_38012d01,
     0x03012e00_06012e00_0a012e00_0f012e00_18012e00_1f012e00_29012e00_38012e01),
    (0x01012f00_16012f01_01013300_16013301_01013400_16013401_01013500_16013501,
     0x01013600_16013601_01013700_16013701_01013800_16013801_01013900_16013901)],
   [(0x02012f00_09012f00_17012f00_28012f01_02013300_09013300_17013300_28013301,
     0x02013400_09013400_17013400_28013401_02013500_09013500_17013500_28013501),
    (0x03012f00_06012f00_0a012f00_0f012f00_18012f00_1f012f00_29012f00_38012f01,
     0x03013300_06013300_0a013300_0f013300_18013300_1f013300_29013300_38013301),
    (0x03013400_06013400_0a013400_0f013400_18013400_1f013400_29013400_38013401,
     0x03013500_06013500_0a013500_0f013500_18013500_1f013500_29013500_38013501),
    (0x02013600_09013600_17013600_28013601_02013700_09013700_17013700_28013701,
     0x02013800_09013800_17013800_28013801_02013900_09013900_17013900_28013901),
    (0x03013600_06013600_0a013600_0f013600_18013600_1f013600_29013600_38013601,
     0x03013700_06013700_0a013700_0f013700_18013700_1f013700_29013700_38013701),
    (0x03013800_06013800_0a013800_0f013800_18013800_1f013800_29013800_38013801,
     0x03013900_06013900_0a013900_0f013900_18013900_1f013900_29013900_38013901),
    (0x1a000000_1b000000_1d000000_1e000000_21000000_22000000_24000000_25000000,
     0x2b000000_2e000000_32000000_35000000_3a000000_3d000000_41000000_44000001),
    (0x00013d01_00014101_00015f01_00016201_00016401_00016601_00016701_00016801,
     0x00016c01_00016d01_00016e01_00017001_00017201_00017501_26000000_27000000),
    (0x01013d00_16013d01_01014100_16014101_01015f00_16015f01_01016200_16016201,
     0x01016400_16016401_01016600_16016601_01016700_16016701_01016800_16016801),
    (0x02013d00_09013d00_17013d00_28013d01_02014100_09014100_17014100_28014101,
     0x02015f00_09015f00_17015f00_28015f01_02016200_09016200_17016200_28016201),
    (0x03013d00_06013d00_0a013d00_0f013d00_18013d00_1f013d00_29013d00_38013d01,
     0x03014100_06014100_0a014100_0f014100_18014100_1f014100_29014100_38014101),
    (0x03015f00_06015f00_0a015f00_0f015f00_18015f00_1f015f00_29015f00_38015f01,
     0x03016200_06016200_0a016200_0f016200_18016200_1f016200_29016200_38016201),
    (0x02016400_09016400_17016400_28016401_02016600_09016600_17016600_28016601,
     0x02016700_09016700_17016700_28016701_02016800_09016800_17016800_28016801),
    (0x03016400_06016400_0a016400_0f016400_18016400_1f016400_29016400_38016401,
     0x03016600_06016600_0a016600_0f016600_18016600_1f016600_29016600_38016601),
    (0x03016700_06016700_0a016700_0f016700_18016700_1f016700_29016700_38016701,
     0x03016800_06016800_0a016800_0f016800_18016800_1f016800_29016800_38016801),
    (0x01016c00_16016c01_01016d00_16016d01_01016e00_16016e01_01017000_16017001,
     0x01017200_16017201_01017500_16017501_00013a01_00014201_00014301_00014401)],
   [(0x02016c00_09016c00_17016c00_28016c01_02016d00_09016d00_17016d00_28016d01,
     0x02016e00_09016e00_17016e00_28016e01_02017000_09017000_17017000_28017001),
    (0x03016c00_06016c00_0a016c00_0f016c00_18016c00_1f016c00_29016c00_38016c01,
     0x03016d00_06016d00_0a016d00_0f016d00_18016d00_1f016d00_29016d00_38016d01),
    (0x03016e00_06016e00_0a016e00_0f016e00_18016e00_1f016e00_29016e00_38016e01,
     0x03017000_06017000_0a017000_0f017000_18017000_1f017000_29017000_38017001),
    (0x02017200_09017200_17017200_28017201_02017500_09017500_17017500_28017501,
     0x01013a00_16013a01_01014200_16014201_01014300_16014301_01014400_16014401),
    (0x03017200_06017200_0a017200_0f017200_18017200_1f017200_29017200_38017201,
     0x03017500_06017500_0a017500_0f017500_18017500_1f017500_29017500_38017501),
    (0x02013a00_09013a00_17013a00_28013a01_02014200_09014200_17014200_28014201,
     0x02014300_09014300_17014300_28014301_02014400_09014400_17014400_28014401),
    (0x03013a00_06013a00_0a013a00_0f013a00_18013a00_1f013a00_29013a00_38013a01,
     0x03014200_06014200_0a014200_0f014200_18014200_1f014200_29014200_38014201),
    (0x03014300_06014300_0a014300_0f014300_18014300_1f014300_29014300_38014301,
     0x03014400_06014400_0a014400_0f014400_18014400_1f014400_29014400_38014401),
    (0x2c000000_2d000000_2f000000_30000000_33000000_34000000_36000000_37000000,
     0x3b000000_3c000000_3e000000_3f000000_42000000_43000000_45000000_48000001),
    (0x00014501_00014601_00014701_00014801_00014901_00014a01_00014b01_00014c01,
     0x00014d01_00014e01_00014f01_00015001_00015101_00015201_00015301_00015401),
    (0x01014500_16014501_01014600_16014601_01014700_16014701_01014800_16014801,
     0x01014900_16014901_01014a00_16014a01_01014b00_16014b01_01014c00_16014c01),
    (0x02014500_09014500_17014500_28014501_02014600_09014600_17014600_28014601,
     0x02014700_09014700_17014700_28014701_02014800_09014800_17014800_28014801),
    (0x03014500_06014500_0a014500_0f014500_18014500_1f014500_29014500_38014501,
     0x03014600_06014600_0a014600_0f014600_18014600_1f014600_29014600_38014601),
    (0x03014700_06014700_0a014700_0f014700_18014700_1f014700_29014700_38014701,
     0x03014800_06014800_0a014800_0f014800_18014800_1f014800_29014800_38014801),
    (0x02014900_09014900_17014900_28014901_02014a00_09014a00_17014a00_28014a01,
     0x02014b00_09014b00_17014b00_28014b01_02014c00_09014c00_17014c00_28014c01),
    (0x03014900_06014900_0a014900_0f014900_18014900_1f014900_29014900_38014901,
     0x03014a00_06014a00_0a014a00_0f014a00_18014a00_1f014a00_29014a00_38014a01)],
   [(0x03014b00_06014b00_0a014b00_0f014b00_18014b00_1f014b00_29014b00_38014b01,
     0x03014c00_06014c00_0a014c00_0f014c00_18014c00_1f014c00_29014c00_38014c01),
    (0x01014d00_16014d01_01014e00_16014e01_01014f00_16014f01_01015000_16015001,
     0x01015100_16015101_01015200_16015201_01015300_16015301_01015400_16015401),
    (0x02014d00_09014d00_17014d00_28014d01_02014e00_09014e00_17014e00_28014e01,
     0x02014f00_09014f00_17014f00_28014f01_02015000_09015000_17015000_28015001),
    (0x03014d00_06014d00_0a014d00_0f014d00_18014d00_1f014d00_29014d00_38014d01,
     0x03014e00_06014e00_0a014e00_0f014e00_18014e00_1f014e00_29014e00_38014e01),
    (0x03014f00_06014f00_0a014f00_0f014f00_18014f00_1f014f00_29014f00_38014f01,
     0x03015000_06015000_0a015000_0f015000_18015000_1f015000_29015000_38015001),
    (0x02015100_09015100_17015100_28015101_02015200_09015200_17015200_28015201,
     0x02015300_09015300_17015300_28015301_02015400_09015400_17015400_28015401),
    (0x03015100_06015100_0a015100_0f015100_18015100_1f015100_29015100_38015101,
     0x03015200_06015200_0a015200_0f015200_18015200_1f015200_29015200_38015201),
    (0x03015300_06015300_0a015300_0f015300_18015300_1f015300_29015300_38015301,
     0x03015400_06015400_0a015400_0f015400_18015400_1f015400_29015400_38015401),
    (0x00015501_00015601_00015701_00015901_00016a01_00016b01_00017101_00017601,
     0x00017701_00017801_00017901_00017a01_46000000_47000000_49000000_4a000001),
    (0x01015500_16015501_01015600_16015601_01015700_16015701_01015900_16015901,
     0x01016a00_16016a01_01016b00_16016b01_01017100_16017101_01017600_16017601),
    (0x02015500_09015500_17015500_28015501_02015600_09015600_17015600_28015601,
     0x02015700_09015700_17015700_28015701_02015900_09015900_17015900_28015901),
    (0x03015500_06015500_0a015500_0f015500_18015500_1f015500_29015500_38015501,
     0x03015600_06015600_0a015600_0f015600_18015600_1f015600_29015600_38015601),
    (0x03015700_06015700_0a015700_0f015700_18015700_1f015700_29015700_38015701,
     0x03015900_06015900_0a015900_0f015900_18015900_1f015900_29015900_38015901),
    (0x02016a00_09016a00_17016a00_28016a01_02016b00_09016b00_17016b00_28016b01,
     0x02017100_09017100_17017100_28017101_02017600_09017600_17017600_28017601),
    (0x03016a00_06016a00_0a016a00_0f016a00_18016a00_1f016a00_29016a00_38016a01,
     0x03016b00_06016b00_0a016b00_0f016b00_18016b00_1f016b00_29016b00_38016b01),
    (0x03017100_06017100_0a017100_0f017100_18017100_1f017100_29017100_38017101,
     0x03017600_06017600_0a017600_0f017600_18017600_1f017600_29017600_38017601)],
   [(0x01017700_16017701_01017800_16017801_01017900_16017901_01017a00_16017a01,
     0x00012601_00012a01_00012c01_00013b01_00015801_00015a01_4b000000_4e000001),
    (0x02017700_09017700_17017700_28017701_02017800_09017800_17017800_28017801,
     0x02017900_09017900_17017900_28017901_02017a00_09017a00_17017a00_28017a01),
    (0x03017700_06017700_0a017700_0f017700_18017700_1f017700_29017700_38017701,
     0x03017800_06017800_0a017800_0f017800_18017800_1f017800_29017800_38017801),
    (0x03017900_06017900_0a017900_0f017900_18017900_1f017900_29017900_38017901,
     0x03017a00_06017a00_0a017a00_0f017a00_18017a00_1f017a00_29017a00_38017a01),
    (0x01012600_16012601_01012a00_16012a01_01012c00_16012c01_01013b00_16013b01,
     0x01015800_16015801_01015a00_16015a01_4c000000_4d000000_4f000000_51000001),
    (0x02012600_09012600_17012600_28012601_02012a00_09012a00_17012a00_28012a01,
     0x02012c00_09012c00_17012c00_28012c01_02013b00_09013b00_17013b00_28013b01),
    (0x03012600_06012600_0a012600_0f012600_18012600_1f012600_29012600_38012601,
     0x03012a00_06012a00_0a012a00_0f012a00_18012a00_1f012a00_29012a00_38012a01),
    (0x03012c00_06012c00_0a012c00_0f012c00_18012c00_1f012c00_29012c00_38012c01,
     0x03013b00_06013b00_0a013b00_0f013b00_18013b00_1f013b00_29013b00_38013b01),
    (0x02015800_09015800_17015800_28015801_02015a00_09015a00_17015a00_28015a01,
     0x00012101_00012201_00012801_00012901_00013f01_50000000_52000000_54000001),
    (0x03015800_06015800_0a015800_0f015800_18015800_1f015800_29015800_38015801,
     0x03015a00_06015a00_0a015a00_0f015a00_18015a00_1f015a00_29015a00_38015a01),
    (0x01012100_16012101_01012200_16012201_01012800_16012801_01012900_16012901,
     0x01013f00_16013f01_00012701_00012b01_00017c01_53000000_55000000_58000001),
    (0x02012100_09012100_17012100_28012101_02012200_09012200_17012200_28012201,
     0x02012800_09012800_17012800_28012801_02012900_09012900_17012900_28012901),
    (0x03012100_06012100_0a012100_0f012100_18012100_1f012100_29012100_38012101,
     0x03012200_06012200_0a012200_0f012200_18012200_1f012200_29012200_38012201),
    (0x03012800_06012800_0a012800_0f012800_18012800_1f012800_29012800_38012801,
     0x03012900_06012900_0a012900_0f012900_18012900_1f012900_29012900_38012901),
    (0x02013f00_09013f00_17013f00_28013f01_01012700_16012701_01012b00_16012b01,
     0x01017c00_16017c01_00012301_00013e01_56000000_57000000_59000000_5a000001),
    (0x03013f00_06013f00_0a013f00_0f013f00_18013f00_1f013f00_29013f00_38013f01,
     0x02012700_09012700_17012700_28012701_02012b00_09012b00_17012b00_28012b01)],
   [(0x03012700_06012700_0a012700_0f012700_18012700_1f012700_29012700_38012701,
     0x03012b00_06012b00_0a012b00_0f012b00_18012b00_1f012b00_29012b00_38012b01),
    (0x02017c00_09017c00_17017c00_28017c01_01012300_16012301_01013e00_16013e01,
     0x00010001_00012401_00014001_00015b01_00015d01_00017e01_5b000000_5c000001),
    (0x03017c00_06017c00_0a017c00_0f017c00_18017c00_1f017c00_29017c00_38017c01,
     0x02012300_09012300_17012300_28012301_02013e00_09013e00_17013e00_28013e01),
    (0x03012300_06012300_0a012300_0f012300_18012300_1f012300_29012300_38012301,
     0x03013e00_06013e00_0a013e00_0f013e00_18013e00_1f013e00_29013e00_38013e01),
    (0x01010000_16010001_01012400_16012401_01014000_16014001_01015b00_16015b01,
     0x01015d00_16015d01_01017e00_16017e01_00015e01_00017d01_5d000000_5e000001),
    (0x02010000_09010000_17010000_28010001_02012400_09012400_17012400_28012401,
     0x02014000_09014000_17014000_28014001_02015b00_09015b00_17015b00_28015b01),
    (0x03010000_06010000_0a010000_0f010000_18010000_1f010000_29010000_38010001,
     0x03012400_06012400_0a012400_0f012400_18012400_1f012400_29012400_38012401),
    (0x03014000_06014000_0a014000_0f014000_18014000_1f014000_29014000_38014001,
     0x03015b00_06015b00_0a015b00_0f015b00_18015b00_1f015b00_29015b00_38015b01),
    (0x02015d00_09015d00_17015d00_28015d01_02017e00_09017e00_17017e00_28017e01,
     0x01015e00_16015e01_01017d00_16017d01_00013c01_00016001_00017b01_5f000001),
    (0x03015d00_06015d00_0a015d00_0f015d00_18015d00_1f015d00_29015d00_38015d01,
     0x03017e00_06017e00_0a017e00_0f017e00_18017e00_1f017e00_29017e00_38017e01),
    (0x02015e00_09015e00_17015e00_28015e01_02017d00_09017d00_17017d00_28017d01,
     0x01013c00_16013c01_01016000_16016001_01017b00_16017b01_60000000_6e000001),
    (0x03015e00_06015e00_0a015e00_0f015e00_18015e00_1f015e00_29015e00_38015e01,
     0x03017d00_06017d00_0a017d00_0f017d00_18017d00_1f017d00_29017d00_38017d01),
    (0x02013c00_09013c00_17013c00_28013c01_02016000_09016000_17016000_28016001,
     0x02017b00_09017b00_17017b00_28017b01_61000000_65000000_6f000000_85000001),
    (0x03013c00_06013c00_0a013c00_0f013c00_18013c00_1f013c00_29013c00_38013c01,
     0x03016000_06016000_0a016000_0f016000_18016000_1f016000_29016000_38016001),
    (0x03017b00_06017b00_0a017b00_0f017b00_18017b00_1f017b00_29017b00_38017b01,
     0x62000000_63000000_66000000_69000000_70000000_77000000_86000000_99000001),
    (0x00015c01_0001c301_0001d001_64000000_67000000_68000000_6a000000_6b000000,
     0x71000000_74000000_78000000_7e000000_87000000_8e000000_9a000000_a9000001)],
   [(0x01015c00_16015c01_0101c300_1601c301_0101d000_1601d001_00018001_00018201,
     0x00018301_0001a201_0001b801_0001c201_0001e001_0001e201_6c000000_6d000000),
    (0x02015c00_09015c00_17015c00_28015c01_0201c300_0901c300_1701c300_2801c301,
     0x0201d000_0901d000_1701d000_2801d001_01018000_16018001_01018200_16018201),
    (0x03015c00_06015c00_0a015c00_0f015c00_18015c00_1f015c00_29015c00_38015c01,
     0x0301c300_0601c300_0a01c300_0f01c300_1801c300_1f01c300_2901c300_3801c301),
    (0x0301d000_0601d000_0a01d000_0f01d000_1801d000_1f01d000_2901d000_3801d001,
     0x02018000_09018000_17018000_28018001_02018200_09018200_17018200_28018201),
    (0x03018000_06018000_0a018000_0f018000_18018000_1f018000_29018000_38018001,
     0x03018200_06018200_0a018200_0f018200_18018200_1f018200_29018200_38018201),
    (0x01018300_16018301_0101a200_1601a201_0101b800_1601b801_0101c200_1601c201,
     0x0101e000_1601e001_0101e200_1601e201_00019901_0001a101_0001a701_0001ac01),
    (0x02018300_09018300_17018300_28018301_0201a200_0901a200_1701a200_2801a201,
     0x0201b800_0901b800_1701b800_2801b801_0201c200_0901c200_1701c200_2801c201),
    (0x03018300_06018300_0a018300_0f018300_18018300_1f018300_29018300_38018301,
     0x0301a200_0601a200_0a01a200_0f01a200_1801a200_1f01a200_2901a200_3801a201),
    (0x0301b800_0601b800_0a01b800_0f01b800_1801b800_1f01b800_2901b800_3801b801,
     0x0301c200_0601c200_0a01c200_0f01c200_1801c200_1f01c200_2901c200_3801c201),
    (0x0201e000_0901e000_1701e000_2801e001_0201e200_0901e200_1701e200_2801e201,
     0x01019900_16019901_0101a100_1601a101_0101a700_1601a701_0101ac00_1601ac01),
    (0x0301e000_0601e000_0a01e000_0f01e000_1801e000_1f01e000_2901e000_3801e001,
     0x0301e200_0601e200_0a01e200_0f01e200_1801e200_1f01e200_2901e200_3801e201),
    (0x02019900_09019900_17019900_28019901_0201a100_0901a100_1701a100_2801a101,
     0x0201a700_0901a700_1701a700_2801a701_0201ac00_0901ac00_1701ac00_2801ac01),
    (0x03019900_06019900_0a019900_0f019900_18019900_1f019900_29019900_38019901,
     0x0301a100_0601a100_0a01a100_0f01a100_1801a100_1f01a100_2901a100_3801a101),
    (0x0301a700_0601a700_0a01a700_0f01a700_1801a700_1f01a700_2901a700_3801a701,
     0x0301ac00_0601ac00_0a01ac00_0f01ac00_1801ac00_1f01ac00_2901ac00_3801ac01),
    (0x72000000_73000000_75000000_76000000_79000000_7b000000_7f000000_82000000,
     0x88000000_8b000000_8f000000_92000000_9b000000_a2000000_aa000000_b4000001),
    (0x0001b001_0001b101_0001b301_0001d101_0001d801_0001d901_0001e301_0001e501,
     0x0001e601_7a000000_7c000000_7d000000_80000000_81000000_83000000_84000000)],
   [(0x0101b000_1601b001_0101b100_1601b101_0101b300_1601b301_0101d100_1601d101,
     0x0101d800_1601d801_0101d900_1601d901_0101e300_1601e301_0101e500_1601e501),
    (0x0201b000_0901b000_1701b000_2801b001_0201b100_0901b100_1701b100_2801b101,
     0x0201b300_0901b300_1701b300_2801b301_0201d100_0901d100_1701d100_2801d101),
    (0x0301b000_0601b000_0a01b000_0f01b000_1801b000_1f01b000_2901b000_3801b001,
     0x0301b100_0601b100_0a01b100_0f01b100_1801b100_1f01b100_2901b100_3801b101),
    (0x0301b300_0601b300_0a01b300_0f01b300_1801b300_1f01b300_2901b300_3801b301,
     0x0301d100_0601d100_0a01d100_0f01d100_1801d100_1f01d100_2901d100_3801d101),
    (0x0201d800_0901d800_1701d800_2801d801_0201d900_0901d900_1701d900_2801d901,
     0x0201e300_0901e300_1701e300_2801e301_0201e500_0901e500_1701e500_2801e501),
    (0x0301d800_0601d800_0a01d800_0f01d800_1801d800_1f01d800_2901d800_3801d801,
     0x0301d900_0601d900_0a01d900_0f01d900_1801d900_1f01d900_2901d900_3801d901),
    (0x0301e300_0601e300_0a01e300_0f01e300_1801e300_1f01e300_2901e300_3801e301,
     0x0301e500_0601e500_0a01e500_0f01e500_1801e500_1f01e500_2901e500_3801e501),
    (0x0101e600_1601e601_00018101_00018401_00018501_00018601_00018801_00019201,
     0x00019a01_00019c01_0001a001_0001a301_0001a401_0001a901_0001aa01_0001ad01),
    (0x0201e600_0901e600_1701e600_2801e601_01018100_16018101_01018400_16018401,
     0x01018500_16018501_01018600_16018601_01018800_16018801_01019200_16019201),
    (0x0301e600_0601e600_0a01e600_0f01e600_1801e600_1f01e600_2901e600_3801e601,
     0x02018100_09018100_17018100_28018101_02018400_09018400_17018400_28018401),
    (0x03018100_06018100_0a018100_0f018100_18018100_1f018100_29018100_38018101,
     0x03018400_06018400_0a018400_0f018400_18018400_1f018400_29018400_38018401),
    (0x02018500_09018500_17018500_28018501_02018600_09018600_17018600_28018601,
     0x02018800_09018800_17018800_28018801_02019200_09019200_17019200_28019201),
    (0x03018500_06018500_0a018500_0f018500_18018500_1f018500_29018500_38018501,
     0x03018600_06018600_0a018600_0f018600_18018600_1f018600_29018600_38018601),
    (0x03018800_06018800_0a018800_0f018800_18018800_1f018800_29018800_38018801,
     0x03019200_06019200_0a019200_0f019200_18019200_1f019200_29019200_38019201),
    (0x01019a00_16019a01_01019c00_16019c01_0101a000_1601a001_0101a300_1601a301,
     0x0101a400_1601a401_0101a900_1601a901_0101aa00_1601aa01_0101ad00_1601ad01),
    (0x02019a00_09019a00_17019a00_28019a01_02019c00_09019c00_17019c00_28019c01,
     0x0201a000_0901a000_1701a000_2801a001_0201a300_0901a300_1701a300_2801a301)],
   [(0x03019a00_06019a00_0a019a00_0f019a00_18019a00_1f019a00_29019a00_38019a01,
     0x03019c00_06019c00_0a019c00_0f019c00_18019c00_1f019c00_29019c00_38019c01),
    (0x0301a000_0601a000_0a01a000_0f01a000_1801a000_1f01a000_2901a000_3801a001,
     0x0301a300_0601a300_0a01a300_0f01a300_1801a300_1f01a300_2901a300_3801a301),
    (0x0201a400_0901a400_1701a400_2801a401_0201a900_0901a900_1701a900_2801a901,
     0x0201aa00_0901aa00_1701aa00_2801aa01_0201ad00_0901ad00_1701ad00_2801ad01),
    (0x0301a400_0601a400_0a01a400_0f01a400_1801a400_1f01a400_2901a400_3801a401,
     0x0301a900_0601a900_0a01a900_0f01a900_1801a900_1f01a900_2901a900_3801a901),
    (0x0301aa00_0601aa00_0a01aa00_0f01aa00_1801aa00_1f01aa00_2901aa00_3801aa01,
     0x0301ad00_0601ad00_0a01ad00_0f01ad00_1801ad00_1f01ad00_2901ad00_3801ad01),
    (0x89000000_8a000000_8c000000_8d000000_90000000_91000000_93000000_96000000,
     0x9c000000_9f000000_a3000000_a6000000_ab000000_ae000000_b5000000_be000001),
    (0x0001b201_0001b501_0001b901_0001ba01_0001bb01_0001bd01_0001be01_0001c401,
     0x0001c601_0001e401_0001e801_0001e901_94000000_95000000_97000000_98000000),
    (0x0101b200_1601b201_0101b500_1601b501_0101b900_1601b901_0101ba00_1601ba01,
     0x0101bb00_1601bb01_0101bd00_1601bd01_0101be00_1601be01_0101c400_1601c401),
    (0x0201b200_0901b200_1701b200_2801b201_0201b500_0901b500_1701b500_2801b501,
     0x0201b900_0901b900_1701b900_2801b901_0201ba00_0901ba00_1701ba00_2801ba01),
    (0x0301b200_0601b200_0a01b200_0f01b200_1801b200_1f01b200_2901b200_3801b201,
     0x0301b500_0601b500_0a01b500_0f01b500_1801b500_1f01b500_2901b500_3801b501),
    (0x0301b900_0601b900_0a01b900_0f01b900_1801b900_1f01b900_2901b900_3801b901,
     0x0301ba00_0601ba00_0a01ba00_0f01ba00_1801ba00_1f01ba00_2901ba00_3801ba01),
    (0x0201bb00_0901bb00_1701bb00_2801bb01_0201bd00_0901bd00_1701bd00_2801bd01,
     0x0201be00_0901be00_1701be00_2801be01_0201c400_0901c400_1701c400_2801c401),
    (0x0301bb00_0601bb00_0a01bb00_0f01bb00_1801bb00_1f01bb00_2901bb00_3801bb01,
     0x0301bd00_0601bd00_0a01bd00_0f01bd00_1801bd00_1f01bd00_2901bd00_3801bd01),
    (0x0301be00_0601be00_0a01be00_0f01be00_1801be00_1f01be00_2901be00_3801be01,
     0x0301c400_0601c400_0a01c400_0f01c400_1801c400_1f01c400_2901c400_3801c401),
    (0x0101c600_1601c601_0101e400_1601e401_0101e800_1601e801_0101e900_1601e901,
     0x00010101_00018701_00018901_00018a01_00018b01_00018c01_00018d01_00018f01),
    (0x0201c600_0901c600_1701c600_2801c601_0201e400_0901e400_1701e400_2801e401,
     0x0201e800_0901e800_1701e800_2801e801_0201e900_0901e900_1701e900_2801e901)],
   [(0x0301c600_0601c600_0a01c600_0f01c600_1801c600_1f01c600_2901c600_3801c601,
     0x0301e400_0601e400_0a01e400_0f01e400_1801e400_1f01e400_2901e400_3801e401),
    (0x0301e800_0601e800_0a01e800_0f01e800_1801e800_1f01e800_2901e800_3801e801,
     0x0301e900_0601e900_0a01e900_0f01e900_1801e900_1f01e900_2901e900_3801e901),
    (0x01010100_16010101_01018700_16018701_01018900_16018901_01018a00_16018a01,
     0x01018b00_16018b01_01018c00_16018c01_01018d00_16018d01_01018f00_16018f01),
    (0x02010100_09010100_17010100_28010101_02018700_09018700_17018700_28018701,
     0x02018900_09018900_17018900_28018901_02018a00_09018a00_17018a00_28018a01),
    (0x03010100_06010100_0a010100_0f010100_18010100_1f010100_29010100_38010101,
     0x03018700_06018700_0a018700_0f018700_18018700_1f018700_29018700_38018701),
    (0x03018900_06018900_0a018900_0f018900_18018900_1f018900_29018900_38018901,
     0x03018a00_06018a00_0a018a00_0f018a00_18018a00_1f018a00_29018a00_38018a01),
    (0x02018b00_09018b00_17018b00_28018b01_02018c00_09018c00_17018c00_28018c01,
     0x02018d00_09018d00_17018d00_28018d01_02018f00_09018f00_17018f00_28018f01),
    (0x03018b00_06018b00_0a018b00_0f018b00_18018b00_1f018b00_29018b00_38018b01,
     0x03018c00_06018c00_0a018c00_0f018c00_18018c00_1f018c00_29018c00_38018c01),
    (0x03018d00_06018d00_0a018d00_0f018d00_18018d00_1f018d00_29018d00_38018d01,
     0x03018f00_06018f00_0a018f00_0f018f00_18018f00_1f018f00_29018f00_38018f01),
    (0x9d000000_9e000000_a0000000_a1000000_a4000000_a5000000_a7000000_a8000000,
     0xac000000_ad000000_af000000_b1000000_b6000000_b9000000_bf000000_cf000001),
    (0x00019301_00019501_00019601_00019701_00019801_00019b01_00019d01_00019e01,
     0x0001a501_0001a601_0001a801_0001ae01_0001af01_0001b401_0001b601_0001b701),
    (0x01019300_16019301_01019500_16019501_01019600_16019601_01019700_16019701,
     0x01019800_16019801_01019b00_16019b01_01019d00_16019d01_01019e00_16019e01),
    (0x02019300_09019300_17019300_28019301_02019500_09019500_17019500_28019501,
     0x02019600_09019600_17019600_28019601_02019700_09019700_17019700_28019701),
    (0x03019300_06019300_0a019300_0f019300_18019300_1f019300_29019300_38019301,
     0x03019500_06019500_0a019500_0f019500_18019500_1f019500_29019500_38019501),
    (0x03019600_06019600_0a019600_0f019600_18019600_1f019600_29019600_38019601,
     0x03019700_06019700_0a019700_0f019700_18019700_1f019700_29019700_38019701),
    (0x02019800_09019800_17019800_28019801_02019b00_09019b00_17019b00_28019b01,
     0x02019d00_09019d00_17019d00_28019d01_02019e00_09019e00_17019e00_28019e01)],
   [(0x03019800_06019800_0a019800_0f019800_18019800_1f019800_29019800_38019801,
     0x03019b00_06019b00_0a019b00_0f019b00_18019b00_1f019b00_29019b00_38019b01),
    (0x03019d00_06019d00_0a019d00_0f019d00_18019d00_1f019d00_29019d00_38019d01,
     0x03019e00_06019e00_0a019e00_0f019e00_18019e00_1f019e00_29019e00_38019e01),
    (0x0101a500_1601a501_0101a600_1601a601_0101a800_1601a801_0101ae00_1601ae01,
     0x0101af00_1601af01_0101b400_1601b401_0101b600_1601b601_0101b700_1601b701),
    (0x0201a500_0901a500_1701a500_2801a501_0201a600_0901a600_1701a600_2801a601,
     0x0201a800_0901a800_1701a800_2801a801_0201ae00_0901ae00_1701ae00_2801ae01),
    (0x0301a500_0601a500_0a01a500_0f01a500_1801a500_1f01a500_2901a500_3801a501,
     0x0301a600_0601a600_0a01a600_0f01a600_1801a600_1f01a600_2901a600_3801a601),
    (0x0301a800_0601a800_0a01a800_0f01a800_1801a800_1f01a800_2901a800_3801a801,
     0x0301ae00_0601ae00_0a01ae00_0f01ae00_1801ae00_1f01ae00_2901ae00_3801ae01),
    (0x0201af00_0901af00_1701af00_2801af01_0201b400_0901b400_1701b400_2801b401,
     0x0201b600_0901b600_1701b600_2801b601_0201b700_0901b700_1701b700_2801b701),
    (0x0301af00_0601af00_0a01af00_0f01af00_1801af00_1f01af00_2901af00_3801af01,
     0x0301b400_0601b400_0a01b400_0f01b400_1801b400_1f01b400_2901b400_3801b401),
    (0x0301b600_0601b600_0a01b600_0f01b600_1801b600_1f01b600_2901b600_3801b601,
     0x0301b700_0601b700_0a01b700_0f01b700_1801b700_1f01b700_2901b700_3801b701),
    (0x0001bc01_0001bf01_0001c501_0001e701_0001ef01_b0000000_b2000000_b3000000,
     0xb7000000_b8000000_ba000000_bb000000_c0000000_c7000000_d0000000_df000001),
    (0x0101bc00_1601bc01_0101bf00_1601bf01_0101c500_1601c501_0101e700_1601e701,
     0x0101ef00_1601ef01_00010901_00018e01_00019001_00019101_00019401_00019f01),
    (0x0201bc00_0901bc00_1701bc00_2801bc01_0201bf00_0901bf00_1701bf00_2801bf01,
     0x0201c500_0901c500_1701c500_2801c501_0201e700_0901e700_1701e700_2801e701),
    (0x0301bc00_0601bc00_0a01bc00_0f01bc00_1801bc00_1f01bc00_2901bc00_3801bc01,
     0x0301bf00_0601bf00_0a01bf00_0f01bf00_1801bf00_1f01bf00_2901bf00_3801bf01),
    (0x0301c500_0601c500_0a01c500_0f01c500_1801c500_1f01c500_2901c500_3801c501,
     0x0301e700_0601e700_0a01e700_0f01e700_1801e700_1f01e700_2901e700_3801e701),
    (0x0201ef00_0901ef00_1701ef00_2801ef01_01010900_16010901_01018e00_16018e01,
     0x01019000_16019001_01019100_16019101_01019400_16019401_01019f00_16019f01),
    (0x0301ef00_0601ef00_0a01ef00_0f01ef00_1801ef00_1f01ef00_2901ef00_3801ef01,
     0x02010900_09010900_17010900_28010901_02018e00_09018e00_17018e00_28018e01)],
   [(0x03010900_06010900_0a010900_0f010900_18010900_1f010900_29010900_38010901,
     0x03018e00_06018e00_0a018e00_0f018e00_18018e00_1f018e00_29018e00_38018e01),
    (0x02019000_09019000_17019000_28019001_02019100_09019100_17019100_28019101,
     0x02019400_09019400_17019400_28019401_02019f00_09019f00_17019f00_28019f01),
    (0x03019000_06019000_0a019000_0f019000_18019000_1f019000_29019000_38019001,
     0x03019100_06019100_0a019100_0f019100_18019100_1f019100_29019100_38019101),
    (0x03019400_06019400_0a019400_0f019400_18019400_1f019400_29019400_38019401,
     0x03019f00_06019f00_0a019f00_0f019f00_18019f00_1f019f00_29019f00_38019f01),
    (0x0001ab01_0001ce01_0001d701_0001e101_0001ec01_0001ed01_bc000000_bd000000,
     0xc1000000_c4000000_c8000000_cb000000_d1000000_d8000000_e0000000_ee000001),
    (0x0101ab00_1601ab01_0101ce00_1601ce01_0101d700_1601d701_0101e100_1601e101,
     0x0101ec00_1601ec01_0101ed00_1601ed01_0001c701_0001cf01_0001ea01_0001eb01),
    (0x0201ab00_0901ab00_1701ab00_2801ab01_0201ce00_0901ce00_1701ce00_2801ce01,
     0x0201d700_0901d700_1701d700_2801d701_0201e100_0901e100_1701e100_2801e101),
    (0x0301ab00_0601ab00_0a01ab00_0f01ab00_1801ab00_1f01ab00_2901ab00_3801ab01,
     0x0301ce00_0601ce00_0a01ce00_0f01ce00_1801ce00_1f01ce00_2901ce00_3801ce01),
    (0x0301d700_0601d700_0a01d700_0f01d700_1801d700_1f01d700_2901d700_3801d701,
     0x0301e100_0601e100_0a01e100_0f01e100_1801e100_1f01e100_2901e100_3801e101),
    (0x0201ec00_0901ec00_1701ec00_2801ec01_0201ed00_0901ed00_1701ed00_2801ed01,
     0x0101c700_1601c701_0101cf00_1601cf01_0101ea00_1601ea01_0101eb00_1601eb01),
    (0x0301ec00_0601ec00_0a01ec00_0f01ec00_1801ec00_1f01ec00_2901ec00_3801ec01,
     0x0301ed00_0601ed00_0a01ed00_0f01ed00_1801ed00_1f01ed00_2901ed00_3801ed01),
    (0x0201c700_0901c700_1701c700_2801c701_0201cf00_0901cf00_1701cf00_2801cf01,
     0x0201ea00_0901ea00_1701ea00_2801ea01_0201eb00_0901eb00_1701eb00_2801eb01),
    (0x0301c700_0601c700_0a01c700_0f01c700_1801c700_1f01c700_2901c700_3801c701,
     0x0301cf00_0601cf00_0a01cf00_0f01cf00_1801cf00_1f01cf00_2901cf00_3801cf01),
    (0x0301ea00_0601ea00_0a01ea00_0f01ea00_1801ea00_1f01ea00_2901ea00_3801ea01,
     0x0301eb00_0601eb00_0a01eb00_0f01eb00_1801eb00_1f01eb00_2901eb00_3801eb01),
    (0xc2000000_c3000000_c5000000_c6000000_c9000000_ca000000_cc000000_cd000000,
     0xd2000000_d5000000_d9000000_dc000000_e1000000_e7000000_ef000000_f6000001),
    (0x0001c001_0001c101_0001c801_0001c901_0001ca01_0001cd01_0001d201_0001d501,
     0x0001da01_0001db01_0001ee01_0001f001_0001f201_0001f301_0001ff01_ce000000)],
   [(0x0101c000_1601c001_0101c100_1601c101_0101c800_1601c801_0101c900_1601c901,
     0x0101ca00_1601ca01_0101cd00_1601cd01_0101d200_1601d201_0101d500_1601d501),
    (0x0201c000_0901c000_1701c000_2801c001_0201c100_0901c100_1701c100_2801c101,
     0x0201c800_0901c800_1701c800_2801c801_0201c900_0901c900_1701c900_2801c901),
    (0x0301c000_0601c000_0a01c000_0f01c000_1801c000_1f01c000_2901c000_3801c001,
     0x0301c100_0601c100_0a01c100_0f01c100_1801c100_1f01c100_2901c100_3801c101),
    (0x0301c800_0601c800_0a01c800_0f01c800_1801c800_1f01c800_2901c800_3801c801,
     0x0301c900_0601c900_0a01c900_0f01c900_1801c900_1f01c900_2901c900_3801c901),
    (0x0201ca00_0901ca00_1701ca00_2801ca01_0201cd00_0901cd00_1701cd00_2801cd01,
     0x0201d200_0901d200_1701d200_2801d201_0201d500_0901d500_1701d500_2801d501),
    (0x0301ca00_0601ca00_0a01ca00_0f01ca00_1801ca00_1f01ca00_2901ca00_3801ca01,
     0x0301cd00_0601cd00_0a01cd00_0f01cd00_1801cd00_1f01cd00_2901cd00_3801cd01),
    (0x0301d200_0601d200_0a01d200_0f01d200_1801d200_1f01d200_2901d200_3801d201,
     0x0301d500_0601d500_0a01d500_0f01d500_1801d500_1f01d500_2901d500_3801d501),
    (0x0101da00_1601da01_0101db00_1601db01_0101ee00_1601ee01_0101f000_1601f001,
     0x0101f200_1601f201_0101f300_1601f301_0101ff00_1601ff01_0001cb01_0001cc01),
    (0x0201da00_0901da00_1701da00_2801da01_0201db00_0901db00_1701db00_2801db01,
     0x0201ee00_0901ee00_1701ee00_2801ee01_0201f000_0901f000_1701f000_2801f001),
    (0x0301da00_0601da00_0a01da00_0f01da00_1801da00_1f01da00_2901da00_3801da01,
     0x0301db00_0601db00_0a01db00_0f01db00_1801db00_1f01db00_2901db00_3801db01),
    (0x0301ee00_0601ee00_0a01ee00_0f01ee00_1801ee00_1f01ee00_2901ee00_3801ee01,
     0x0301f000_0601f000_0a01f000_0f01f000_1801f000_1f01f000_2901f000_3801f001),
    (0x0201f200_0901f200_1701f200_2801f201_0201f300_0901f300_1701f300_2801f301,
     0x0201ff00_0901ff00_1701ff00_2801ff01_0101cb00_1601cb01_0101cc00_1601cc01),
    (0x0301f200_0601f200_0a01f200_0f01f200_1801f200_1f01f200_2901f200_3801f201,
     0x0301f300_0601f300_0a01f300_0f01f300_1801f300_1f01f300_2901f300_3801f301),
    (0x0301ff00_0601ff00_0a01ff00_0f01ff00_1801ff00_1f01ff00_2901ff00_3801ff01,
     0x0201cb00_0901cb00_1701cb00_2801cb01_0201cc00_0901cc00_1701cc00_2801cc01),
    (0x0301cb00_0601cb00_0a01cb00_0f01cb00_1801cb00_1f01cb00_2901cb00_3801cb01,
     0x0301cc00_0601cc00_0a01cc00_0f01cc00_1801cc00_1f01cc00_2901cc00_3801cc01),
    (0xd3000000_d4000000_d6000000_d7000000_da000000_db000000_dd000000_de000000,
     0xe2000000_e4000000_e8000000_eb000000_f0000000_f3000000_f7000000_fa000001)],
   [(0x0001d301_0001d401_0001d601_0001dd01_0001de01_0001df01_0001f101_0001f401,
     0x0001f501_0001f601_0001f701_0001f801_0001fa01_0001fb01_0001fc01_0001fd01),
    (0x0101d300_1601d301_0101d400_1601d401_0101d600_1601d601_0101dd00_1601dd01,
     0x0101de00_1601de01_0101df00_1601df01_0101f100_1601f101_0101f400_1601f401),
    (0x0201d300_0901d300_1701d300_2801d301_0201d400_0901d400_1701d400_2801d401,
     0x0201d600_0901d600_1701d600_2801d601_0201dd00_0901dd00_1701dd00_2801dd01),
    (0x0301d300_0601d300_0a01d300_0f01d300_1801d300_1f01d300_2901d300_3801d301,
     0x0301d400_0601d400_0a01d400_0f01d400_1801d400_1f01d400_2901d400_3801d401),
    (0x0301d600_0601d600_0a01d600_0f01d600_1801d600_1f01d600_2901d600_3801d601,
     0x0301dd00_0601dd00_0a01dd00_0f01dd00_1801dd00_1f01dd00_2901dd00_3801dd01),
    (0x0201de00_0901de00_1701de00_2801de01_0201df00_0901df00_1701df00_2801df01,
     0x0201f100_0901f100_1701f100_2801f101_0201f400_0901f400_1701f400_2801f401),
    (0x0301de00_0601de00_0a01de00_0f01de00_1801de00_1f01de00_2901de00_3801de01,
     0x0301df00_0601df00_0a01df00_0f01df00_1801df00_1f01df00_2901df00_3801df01),
    (0x0301f100_0601f100_0a01f100_0f01f100_1801f100_1f01f100_2901f100_3801f101,
     0x0301f400_0601f400_0a01f400_0f01f400_1801f400_1f01f400_2901f400_3801f401),
    (0x0101f500_1601f501_0101f600_1601f601_0101f700_1601f701_0101f800_1601f801,
     0x0101fa00_1601fa01_0101fb00_1601fb01_0101fc00_1601fc01_0101fd00_1601fd01),
    (0x0201f500_0901f500_1701f500_2801f501_0201f600_0901f600_1701f600_2801f601,
     0x0201f700_0901f700_1701f700_2801f701_0201f800_0901f800_1701f800_2801f801),
    (0x0301f500_0601f500_0a01f500_0f01f500_1801f500_1f01f500_2901f500_3801f501,
     0x0301f600_0601f600_0a01f600_0f01f600_1801f600_1f01f600_2901f600_3801f601),
    (0x0301f700_0601f700_0a01f700_0f01f700_1801f700_1f01f700_2901f700_3801f701,
     0x0301f800_0601f800_0a01f800_0f01f800_1801f800_1f01f800_2901f800_3801f801),
    (0x0201fa00_0901fa00_1701fa00_2801fa01_0201fb00_0901fb00_1701fb00_2801fb01,
     0x0201fc00_0901fc00_1701fc00_2801fc01_0201fd00_0901fd00_1701fd00_2801fd01),
    (0x0301fa00_0601fa00_0a01fa00_0f01fa00_1801fa00_1f01fa00_2901fa00_3801fa01,
     0x0301fb00_0601fb00_0a01fb00_0f01fb00_1801fb00_1f01fb00_2901fb00_3801fb01),
    (0x0301fc00_0601fc00_0a01fc00_0f01fc00_1801fc00_1f01fc00_2901fc00_3801fc01,
     0x0301fd00_0601fd00_0a01fd00_0f01fd00_1801fd00_1f01fd00_2901fd00_3801fd01),
    (0x0001fe01_e3000000_e5000000_e6000000_e9000000_ea000000_ec000000_ed000000,
     0xf1000000_f2000000_f4000000_f5000000_f8000000_f9000000_fb000000_fc000001)],
   [(0x0101fe00_1601fe01_00010201_00010301_00010401_00010501_00010601_00010701,
     0x00010801_00010b01_00010c01_00010e01_00010f01_00011001_00011101_00011201),
    (0x0201fe00_0901fe00_1701fe00_2801fe01_01010200_16010201_01010300_16010301,
     0x01010400_16010401_01010500_16010501_01010600_16010601_01010700_16010701),
    (0x0301fe00_0601fe00_0a01fe00_0f01fe00_1801fe00_1f01fe00_2901fe00_3801fe01,
     0x02010200_09010200_17010200_28010201_02010300_09010300_17010300_28010301),
    (0x03010200_06010200_0a010200_0f010200_18010200_1f010200_29010200_38010201,
     0x03010300_06010300_0a010300_0f010300_18010300_1f010300_29010300_38010301),
    (0x02010400_09010400_17010400_28010401_02010500_09010500_17010500_28010501,
     0x02010600_09010600_17010600_28010601_02010700_09010700_17010700_28010701),
    (0x03010400_06010400_0a010400_0f010400_18010400_1f010400_29010400_38010401,
     0x03010500_06010500_0a010500_0f010500_18010500_1f010500_29010500_38010501),
    (0x03010600_06010600_0a010600_0f010600_18010600_1f010600_29010600_38010601,
     0x03010700_06010700_0a010700_0f010700_18010700_1f010700_29010700_38010701),
    (0x01010800_16010801_01010b00_16010b01_01010c00_16010c01_01010e00_16010e01,
     0x01010f00_16010f01_01011000_16011001_01011100_16011101_01011200_16011201),
    (0x02010800_09010800_17010800_28010801_02010b00_09010b00_17010b00_28010b01,
     0x02010c00_09010c00_17010c00_28010c01_02010e00_09010e00_17010e00_28010e01),
    (0x03010800_06010800_0a010800_0f010800_18010800_1f010800_29010800_38010801,
     0x03010b00_06010b00_0a010b00_0f010b00_18010b00_1f010b00_29010b00_38010b01),
    (0x03010c00_06010c00_0a010c00_0f010c00_18010c00_1f010c00_29010c00_38010c01,
     0x03010e00_06010e00_0a010e00_0f010e00_18010e00_1f010e00_29010e00_38010e01),
    (0x02010f00_09010f00_17010f00_28010f01_02011000_09011000_17011000_28011001,
     0x02011100_09011100_17011100_28011101_02011200_09011200_17011200_28011201),
    (0x03010f00_06010f00_0a010f00_0f010f00_18010f00_1f010f00_29010f00_38010f01,
     0x03011000_06011000_0a011000_0f011000_18011000_1f011000_29011000_38011001),
    (0x03011100_06011100_0a011100_0f011100_18011100_1f011100_29011100_38011101,
     0x03011200_06011200_0a011200_0f011200_18011200_1f011200_29011200_38011201),
    (0x00011301_00011401_00011501_00011701_00011801_00011901_00011a01_00011b01,
     0x00011c01_00011d01_00011e01_00011f01_00017f01_0001dc01_0001f901_fd000001),
    (0x01011300_16011301_01011400_16011401_01011500_16011501_01011700_16011701,
     0x01011800_16011801_01011900_16011901_01011a00_16011a01_01011b00_16011b01)],
   [(0x02011300_09011300_17011300_28011301_02011400_09011400_17011400_28011401,
     0x02011500_09011500_17011500_28011501_02011700_09011700_17011700_28011701),
    (0x03011300_06011300_0a011300_0f011300_18011300_1f011300_29011300_38011301,
     0x03011400_06011400_0a011400_0f011400_18011400_1f011400_29011400_38011401),
    (0x03011500_06011500_0a011500_0f011500_18011500_1f011500_29011500_38011501,
     0x03011700_06011700_0a011700_0f011700_18011700_1f011700_29011700_38011701),
    (0x02011800_09011800_17011800_28011801_02011900_09011900_17011900_28011901,
     0x02011a00_09011a00_17011a00_28011a01_02011b00_09011b00_17011b00_28011b01),
    (0x03011800_06011800_0a011800_0f011800_18011800_1f011800_29011800_38011801,
     0x03011900_06011900_0a011900_0f011900_18011900_1f011900_29011900_38011901),
    (0x03011a00_06011a00_0a011a00_0f011a00_18011a00_1f011a00_29011a00_38011a01,
     0x03011b00_06011b00_0a011b00_0f011b00_18011b00_1f011b00_29011b00_38011b01),
    (0x01011c00_16011c01_01011d00_16011d01_01011e00_16011e01_01011f00_16011f01,
     0x01017f00_16017f01_0101dc00_1601dc01_0101f900_1601f901_fe000000_ff000001),
    (0x02011c00_09011c00_17011c00_28011c01_02011d00_09011d00_17011d00_28011d01,
     0x02011e00_09011e00_17011e00_28011e01_02011f00_09011f00_17011f00_28011f01),
    (0x03011c00_06011c00_0a011c00_0f011c00_18011c00_1f011c00_29011c00_38011c01,
     0x03011d00_06011d00_0a011d00_0f011d00_18011d00_1f011d00_29011d00_38011d01),
    (0x03011e00_06011e00_0a011e00_0f011e00_18011e00_1f011e00_29011e00_38011e01,
     0x03011f00_06011f00_0a011f00_0f011f00_18011f00_1f011f00_29011f00_38011f01),
    (0x02017f00_09017f00_17017f00_28017f01_0201dc00_0901dc00_1701dc00_2801dc01,
     0x0201f900_0901f900_1701f900_2801f901_00010a01_00010d01_00011601_fa000000),
    (0x03017f00_06017f00_0a017f00_0f017f00_18017f00_1f017f00_29017f00_38017f01,
     0x0301dc00_0601dc00_0a01dc00_0f01dc00_1801dc00_1f01dc00_2901dc00_3801dc01),
    (0x0301f900_0601f900_0a01f900_0f01f900_1801f900_1f01f900_2901f900_3801f901,
     0x01010a00_16010a01_01010d00_16010d01_01011600_16011601_fc000000_fc000000),
    (0x02010a00_09010a00_17010a00_28010a01_02010d00_09010d00_17010d00_28010d01,
     0x02011600_09011600_17011600_28011601_fd000000_fd000000_fd000000_fd000000),
    (0x03010a00_06010a00_0a010a00_0f010a00_18010a00_1f010a00_29010a00_38010a01,
     0x03010d00_06010d00_0a010d00_0f010d00_18010d00_1f010d00_29010d00_38010d01),
    (0x03011600_06011600_0a011600_0f011600_18011600_1f011600_29011600_38011601,
     0xff000000_ff000000_ff000000_ff000000_ff000000_ff000000_ff000000_ff000000)]]

/-- The entry of a state for four bits of input, as one number. -/
def huffDecodeEntry (state bits : ℕ) : ℕ :=
  let row := tableRow huffDecodeRows state (0, 0)
  (if bits < 8 then row.1 >>> (32 * (7 - bits)) else row.2 >>> (32 * (15 - bits))) % 2 ^ 32

/-- `kgl_http_v2_huff_decode_codes`. -/
def kglHttpV2HuffDecodeCodes : HuffDecodeCodes := fun state bits =>
  let entry := huffDecodeEntry state.toNat bits.toNat
  { next := UInt8.ofNat (entry / 2 ^ 24)
    emit := UInt8.ofNat (entry / 2 ^ 16)
    sym := UInt8.ofNat (entry / 2 ^ 8)
    ending := UInt8.ofNat entry }

/-! ## Texts -/

/-- The code of a byte. -/
def huffCode (ch : Byte) : List Bool :=
  (kglHttpV2HuffEncodeTable ch).bits

/-- One bits up to the next byte boundary. -/
def huffPadding (len : ℕ) : List Bool :=
  List.replicate ((8 - len % 8) % 8) true

/-- The bytes that bits fill, eight in each. -/
def packBits : List Bool → Bytes
  | b₇ :: b₆ :: b₅ :: b₄ :: b₃ :: b₂ :: b₁ :: b₀ :: x =>
    UInt8.ofNat (value [b₇, b₆, b₅, b₄, b₃, b₂, b₁, b₀]) :: packBits x
  | _ => []

/-- The Huffman text of `s`: its codes one after the other, padded with one bits to a byte
boundary. -/
def huffText (s : Bytes) : Bytes :=
  packBits (s.flatMap huffCode ++ huffPadding (s.flatMap huffCode).length)

/-! ## Calls -/

/-- Decode a string that comes in pieces, with `last` on the final one; `none` where a call
fails. -/
def huffDecodePieces (codes : HuffDecodeCodes) :
    List Bytes → Byte → Bytes → Option (Byte × Bytes)
  | [], state, dst => some (state, dst)
  | piece :: pieces, state, dst =>
    match huffDecode codes state piece dst pieces.isEmpty with
    | none => none
    | some (state, dst) => huffDecodePieces codes pieces state dst

/-- What a call of `kgl_http_v2_huff_decode` returns and leaves behind, also where it fails. -/
structure HuffDecodeResult where
  ok : Bool
  state : Byte
  dst : Bytes
  deriving DecidableEq, Repr

/-- The loop of `kgl_http_v2_huff_decode` with the run in which it stops. -/
def huffDecodeLoopResult (codes : HuffDecodeCodes) :
    Bytes → HuffDecodeRun → Bool × HuffDecodeRun
  | [], r => (true, r)
  | ch :: src, r =>
    match huffDecodeBits codes (ch >>> 4) r with
    | none => (false, r)
    | some r =>
      match huffDecodeBits codes (ch &&& 0xf) r with
      | none => (false, r)
      | some r => huffDecodeLoopResult codes src r

/-- `kgl_http_v2_huff_decode` with all that it leaves behind. -/
def huffDecodeResult (codes : HuffDecodeCodes) (state : Byte) (src dst : Bytes) (last : Bool) :
    HuffDecodeResult :=
  match huffDecodeLoopResult codes src ⟨state, true, dst⟩ with
  | (false, r) => ⟨false, r.state, r.dst⟩
  | (true, r) =>
    if last then
      if r.ending then ⟨true, 0, r.dst⟩ else ⟨false, r.state, r.dst⟩
    else ⟨true, r.state, r.dst⟩

/-- Calls one after the other, each with its input and its `last`, up to the first that fails. -/
def huffDecodeCalls (codes : HuffDecodeCodes) :
    List (Bytes × Bool) → Byte → Bytes → HuffDecodeResult
  | [], state, dst => ⟨true, state, dst⟩
  | (src, last) :: calls, state, dst =>
    let r := huffDecodeResult codes state src dst last
    if r.ok then huffDecodeCalls codes calls r.state r.dst else r

/-- `alloc` of `state_field_len`: the room for a string of `len` bytes and its NUL. -/
def fieldAlloc (huff : Bool) (len : ℕ) : ℕ :=
  (if huff then len * 8 / 5 else len) + 1

end Khttpd
