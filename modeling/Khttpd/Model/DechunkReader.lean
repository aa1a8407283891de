import Khttpd.Model.Dechunk

/-!
# The reader of chunked bodies

`KDechunkReader::read`. What the upstream gives comes into the caller's buffer, behind what was
decoded so far, and the engine works on it there. What the engine leaves is not kept for the next
round.
-/

set_option autoImplicit false

namespace Khttpd

/-- `us->read(src, len)`: the bytes that come, none where it returns 0 or less. The upstream is the
list of what arrives; of one piece at most `len` bytes come at once. -/
def upstreamRead (len : ℕ) : List Bytes → Bytes × List Bytes
  | [] => ([], [])
  | got :: net => if got.length ≤ len then (got, net) else (got.take len, got.drop len :: net)

/-- A read that gives bytes takes them from the upstream. -/
theorem upstreamRead_flatten (len : ℕ) (net : List Bytes) :
    (upstreamRead len net).1 ++ (upstreamRead len net).2.flatten = net.flatten := by
  unfold upstreamRead
  split
  · rfl
  · split
    · rfl
    · rw [List.flatten_cons, List.flatten_cons, ← List.append_assoc, List.take_append_drop]

namespace KDechunkReader

/-- The caller's buffer: its memory from `buf` on, and where `dst`, `src` and `end` are. -/
structure Buffer where
  mem : ℕ → Byte
  dst : ℕ
  src : ℕ
  endp : ℕ

/-- What the loop over one read leaves: `chunk_size` of the engine, the buffer, and the result that
ended it. -/
structure Decoded where
  chunkSize : BitVec 32
  buf : Buffer
  result : KDechunkResult

/-- The calls of `dechunk` on the bytes of one read, up to the first one without a piece of a chunk,
with at most `fuel` of them. A piece is copied down to `dst`. -/
def decodeLoop : ℕ → BitVec 32 → Buffer → Decoded
  | 0, chunkSize, b => ⟨chunkSize, b, .continue⟩
  | fuel + 1, chunkSize, b =>
    let out := dechunk chunkSize (memRead b.mem b.src (b.endp - b.src)) maxChunkSize.toNat
    let src := b.endp - out.rest.length
    match out.result with
    | .success piece =>
      let mem := if src - piece.length ≠ b.dst then memWrite b.mem b.dst piece else b.mem
      decodeLoop fuel out.chunkSize ⟨mem, b.dst + piece.length, src, b.endp⟩
    | result => ⟨out.chunkSize, { b with src := src }, result⟩

/-- What a call of `read` leaves: `chunk_size`, the memory of the caller's buffer, the upstream, and
the number of bytes, or `none` for `-1`. -/
structure ReadOut where
  chunkSize : BitVec 32
  mem : ℕ → Byte
  net : List Bytes
  result : Option ℕ

/-- `read` from `retry` on, with `dst - buf` bytes decoded. Each piece has a byte of the read at
least. -/
def readLoop (len : ℕ) (chunkSize : BitVec 32) (mem : ℕ → Byte) (dst : ℕ) (net : List Bytes) :
    ReadOut :=
  if len - dst = 0 then ⟨chunkSize, mem, net, some dst⟩
  else if chunkSize = chunkIsEnd then ⟨chunkSize, mem, net, some dst⟩
  else
    let got := (upstreamRead (len - dst) net).1
    let net' := (upstreamRead (len - dst) net).2
    if got = [] then ⟨chunkSize, mem, net', none⟩
    else
      let d := decodeLoop (got.length + 1) chunkSize
        ⟨memWrite mem dst got, dst, dst, dst + got.length⟩
      match d.result with
      | .continue => readLoop len d.chunkSize d.buf.mem d.buf.dst net'
      | .end => ⟨d.chunkSize, d.buf.mem, net', some d.buf.dst⟩
      | _ => ⟨d.chunkSize, d.buf.mem, net', none⟩
termination_by net.flatten.length
decreasing_by
  rename_i hgot
  have hlength := congrArg List.length (upstreamRead_flatten (len - dst) net)
  have hpos : 0 < (upstreamRead (len - dst) net).1.length := List.length_pos_iff.mpr hgot
  rw [List.length_append] at hlength
  show (upstreamRead (len - dst) net).2.flatten.length < net.flatten.length
  omega

/-- `KDechunkReader::read(us, buf, len)`. -/
def read (len : ℕ) (chunkSize : BitVec 32) (mem : ℕ → Byte) (net : List Bytes) : ReadOut :=
  readLoop len chunkSize mem 0 net

/-- The bytes that a call has returned in the caller's buffer. -/
def ReadOut.bytes (r : ReadOut) : Option Bytes := r.result.map fun n => memRead r.mem 0 n

/-- The first `n` calls of `read` by a caller with room for `length i` bytes at call `i`, and one
buffer for all of them. -/
def reads (length : ℕ → ℕ) : ℕ → BitVec 32 → (ℕ → Byte) → List Bytes → List (Option Bytes)
  | 0, _, _, _ => []
  | n + 1, chunkSize, mem, net =>
    let r := read (length 0) chunkSize mem net
    r.bytes :: reads (fun i => length (i + 1)) n r.chunkSize r.mem r.net

end KDechunkReader

end Khttpd
