import Mathlib.Data.List.DropRight
import Khttpd.Model.Text

/-!
# Decoding chunked bodies

`KDechunkEngine` and `KDechunkContext`. The engine keeps its whole state in one 32-bit word.
A context keeps the bytes from `hot` on in its buffer; the bytes before `hot` are gone. The
network is the list of what the next reads return, and a read fails when the list ends.
-/

set_option autoImplicit false

namespace Khttpd

/-! ## The engine -/

/-- `KHTTPD_MAX_CHUNK_SIZE`. -/
def maxChunkSize : BitVec 32 := 0x1FFFFFFF

/-- `KHTTPD_CHUNK_STATUS_PREFIX`. -/
def chunkStatusPrefix : BitVec 32 := 0xE0000000

/-- `KHTTPD_CHUNK_PART_SIZE_END`. -/
def chunkPartSizeEnd : BitVec 32 := 0xA0000000

/-- `KHTTPD_CHUNK_PART_SIZE`. -/
def chunkPartSize : BitVec 32 := 0x80000000

/-- `KHTTPD_CHUNK_STATUS_READ_SIZE` and the states after it. -/
def chunkReadSize : BitVec 32 := 0
@[inherit_doc chunkReadSize] def chunkReadEnd : BitVec 32 := 0xC0000001
@[inherit_doc chunkReadSize] def chunkReadLast : BitVec 32 := 0xC0000002
@[inherit_doc chunkReadSize] def chunkIsEnd : BitVec 32 := 0xC0000004
@[inherit_doc chunkReadSize] def chunkIsFailed : BitVec 32 := 0xC0000008

/-- `KDechunkResult`, with the piece that `Success` and `Trailer` return. -/
inductive KDechunkResult
  | success (piece : Bytes)
  | continue
  | trailer (piece : Bytes)
  | end
  | failed
  deriving DecidableEq, Repr

/-- What `dechunk` leaves: `chunk_size`, the bytes from `*buf` on, and its result. -/
structure DechunkOut where
  chunkSize : BitVec 32
  rest : Bytes
  result : KDechunkResult
  deriving DecidableEq, Repr

/-- The value of a hexadecimal digit of a chunk size. -/
def hexDigit (ch : Byte) : Option ℕ :=
  if 48 ≤ ch ∧ ch ≤ 57 then some (ch.toNat - 48)
  else
    let ch := ch ||| 0x20
    if 97 ≤ ch ∧ ch ≤ 102 then some (ch.toNat - 97 + 10) else none

/-- The loop of `dechunk` over a size line, up to its end or the end of the input. -/
def dechunkSizeLoop (chunkSize : BitVec 32) : Bytes → DechunkOut × Bool
  | [] => (⟨chunkSize, [], .continue⟩, false)
  | ch :: buf =>
    if ch = 10 then (⟨chunkSize &&& ~~~chunkStatusPrefix, buf, .continue⟩, true)
    else if chunkSize &&& chunkPartSizeEnd = chunkPartSizeEnd then dechunkSizeLoop chunkSize buf
    else
      match hexDigit ch with
      | some digit =>
        let newChunkSize := (chunkSize &&& ~~~chunkStatusPrefix) * 16 + BitVec.ofNat 32 digit
        if newChunkSize > maxChunkSize then (⟨chunkIsFailed, ch :: buf, .failed⟩, false)
        else dechunkSizeLoop (newChunkSize ||| chunkPartSize) buf
      | none => dechunkSizeLoop (chunkSize ||| chunkPartSizeEnd) buf

/-- The state `KHTTPD_CHUNK_STATUS_READ_LAST`: a trailer line or the blank line. The trim on the
right starts at the newline and stops at the first byte that is left, so a line with one byte
left ends the body too. -/
def dechunkLast (buf : Bytes) : DechunkOut :=
  match memchr 10 buf with
  | none => ⟨chunkReadLast, buf, .continue⟩
  | some (line, rest) =>
    let piece := (line.dropWhile isSpace).rdropWhile isSpace
    if piece.length ≤ 1 then ⟨chunkIsEnd, rest, .end⟩ else ⟨chunkReadLast, rest, .trailer piece⟩

/-- The bytes of a chunk, at most `pieceLength` of them. -/
def dechunkData (chunkSize : BitVec 32) (buf : Bytes) (pieceLength : ℕ) : DechunkOut :=
  let length := min chunkSize.toNat buf.length
  if length = 0 then ⟨chunkSize, buf, .continue⟩
  else
    let length := min pieceLength length
    let left := chunkSize - BitVec.ofNat 32 length
    ⟨if left = 0 then chunkReadEnd else left, buf.drop length, .success (buf.take length)⟩

/-- The default case of `dechunk`: a size line, unless one is behind, and what follows it. -/
def dechunkSize (chunkSize : BitVec 32) (buf : Bytes) (pieceLength : ℕ) : DechunkOut :=
  if chunkSize = chunkReadSize ∨ chunkSize &&& chunkPartSize = chunkPartSize then
    match dechunkSizeLoop chunkSize buf with
    | (out, false) => out
    | (out, true) =>
      if out.chunkSize = 0 then dechunkLast out.rest
      else dechunkData out.chunkSize out.rest pieceLength
  else dechunkData chunkSize buf pieceLength

/-- `KDechunkEngine::dechunk`. -/
def dechunk (chunkSize : BitVec 32) (buf : Bytes) (pieceLength : ℕ) : DechunkOut :=
  if chunkSize = chunkIsFailed then ⟨chunkSize, buf, .failed⟩
  else if chunkSize = chunkIsEnd then ⟨chunkSize, buf, .end⟩
  else if chunkSize = chunkReadLast then dechunkLast buf
  else if chunkSize = chunkReadEnd then
    match memchr 10 buf with
    | none => ⟨chunkSize, [], .continue⟩
    | some (_, rest) => dechunkSize chunkReadSize rest pieceLength
  else dechunkSize chunkSize buf pieceLength

/-! ## Any caller

The engine does not keep what it leaves: a caller hands it over again, before what has come since.
-/

/-- The piece of a chunk that a result hands over. -/
def KDechunkResult.piece : KDechunkResult → Bytes
  | .success piece => piece
  | _ => []

/-- The trailer line that a result hands over. -/
def KDechunkResult.trailers : KDechunkResult → List Bytes
  | .trailer piece => [piece]
  | _ => []

/-- A call of `dechunk`: the bytes that have come since the one before, and the room for a piece. -/
structure DechunkCall where
  more : Bytes
  pieceLength : ℕ

/-- An engine and its caller: the bytes that the calls took, those they left, and their results. -/
structure DechunkFeed where
  chunkSize : BitVec 32
  taken : Bytes
  unread : Bytes
  results : List KDechunkResult

namespace DechunkFeed

/-- Before the first call. -/
def init : DechunkFeed := ⟨chunkReadSize, [], [], []⟩

/-- A call. After the end or a failure none is made; the engine asserts it. -/
def call (f : DechunkFeed) (c : DechunkCall) : DechunkFeed :=
  let buf := f.unread ++ c.more
  if f.chunkSize = chunkIsFailed ∨ f.chunkSize = chunkIsEnd then { f with unread := buf }
  else
    let out := dechunk f.chunkSize buf c.pieceLength
    { chunkSize := out.chunkSize
      taken := f.taken ++ buf.take (buf.length - out.rest.length)
      unread := out.rest
      results := f.results ++ [out.result] }

/-- Calls one after the other. -/
def calls (cs : List DechunkCall) : DechunkFeed := cs.foldl call init

/-- The pieces of chunks that the calls handed over. -/
def payload (f : DechunkFeed) : Bytes := f.results.flatMap KDechunkResult.piece

/-- The trailer lines that the calls handed over. -/
def trailers (f : DechunkFeed) : List Bytes := f.results.flatMap KDechunkResult.trailers

end DechunkFeed

/-! ## The context -/

/-- `KDechunkContext`; `trailer` is the list of the header manager. -/
structure KDechunkContext where
  chunkSize : BitVec 32
  buffer : Bytes
  trailer : List (Bytes × Bytes)
  deriving DecidableEq, Repr

/-- The constructor. -/
def KDechunkContext.init (buf : Bytes) : KDechunkContext := ⟨chunkReadSize, buf, []⟩

/-- `add_header` of the trailer list; a field above the size limit is not kept. -/
def addTrailerField (trailer : List (Bytes × Bytes)) (attr val : Bytes) : List (Bytes × Bytes) :=
  if attr.length > maxHeaderAttrValSize ∨ val.length > maxHeaderAttrValSize then trailer
  else trailer ++ [(attr, val)]

/-- What `read` does with a trailer line: the lengths are cut to an `hlen_t`. -/
def addTrailerLine (trailer : List (Bytes × Bytes)) (piece : Bytes) : List (Bytes × Bytes) :=
  match memchr 58 piece with
  | none => trailer
  | some (attr, sp) => addTrailerField trailer (hlen attr) (hlen (sp.dropWhile khttpIsSpace))

namespace KDechunkContext

/-- The calls of `dechunk` in `read` until one returns something else than a trailer line, with
at most `fuel` trailer lines. -/
def dechunkLoop (ctx : KDechunkContext) (length : ℕ) : ℕ → KDechunkContext × KDechunkResult
  | 0 => (ctx, .continue)
  | fuel + 1 =>
    let out := dechunk ctx.chunkSize ctx.buffer length
    let ctx := { ctx with chunkSize := out.chunkSize, buffer := out.rest }
    match out.result with
    | .trailer piece =>
      dechunkLoop { ctx with trailer := addTrailerLine ctx.trailer piece } length fuel
    | result => (ctx, result)

/-- One round of the loop of `read` before the network is asked. -/
def readRound (ctx : KDechunkContext) (length : ℕ) : KDechunkContext × KDechunkResult :=
  if ctx.buffer = [] then (ctx, .continue) else ctx.dechunkLoop length (ctx.buffer.length + 1)

/-- `KDechunkContext::read`: the bytes for the caller (none at the end of the body), or `none` for
`-1`. The network after the call is the second component. -/
def read (length : ℕ) : KDechunkContext → List Bytes → KDechunkContext × List Bytes × Option Bytes
  | ctx, [] =>
    let r := ctx.readRound length
    match r.2 with
    | .success piece => (r.1, [], some piece)
    | .end => (r.1, [], some [])
    | _ => (r.1, [], none)
  | ctx, got :: net =>
    let r := ctx.readRound length
    match r.2 with
    | .success piece => (r.1, got :: net, some piece)
    | .end => (r.1, got :: net, some [])
    | .continue =>
      if got = [] then (r.1, net, none)
      else read length { r.1 with buffer := r.1.buffer ++ got } net
    | _ => (r.1, got :: net, none)

/-- The first `n` calls of `read` by a caller with room for `length i` bytes at call `i`. -/
def reads (length : ℕ → ℕ) :
    ℕ → KDechunkContext → List Bytes → List (Option Bytes) × KDechunkContext × List Bytes
  | 0, ctx, net => ([], ctx, net)
  | n + 1, ctx, net =>
    let r := ctx.read (length 0) net
    let rest := reads (fun i => length (i + 1)) n r.1 r.2.1
    (r.2.2 :: rest.1, rest.2)

end KDechunkContext

end Khttpd
