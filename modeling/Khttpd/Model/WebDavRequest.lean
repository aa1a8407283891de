import Khttpd.Model.DechunkReader
import Khttpd.Model.Sink

/-!
# Responses of a WebDAV server

`KResponseData`: what `parse_header` keeps of a response, and how `read`, `read_all` and `read_body`
take its body from the upstream. The upstream is the list of what arrives; how much room
`ks_get_write_buffer` finds in a buffer is a parameter.
-/

set_option autoImplicit false

namespace Khttpd

theorem upstreamRead_length (len : ℕ) (net : List Bytes) :
    (upstreamRead len net).1.length + (upstreamRead len net).2.flatten.length =
      net.flatten.length := by
  have h := congrArg List.length (upstreamRead_flatten len net)
  rwa [List.length_append] at h

namespace KDechunkReader

/-- A call that decodes something takes something from the upstream. -/
theorem readLoop_net (len : ℕ) (chunkSize : BitVec 32) (mem : ℕ → Byte) (dst : ℕ)
    (net : List Bytes) :
    (readLoop len chunkSize mem dst net).net.flatten.length ≤ net.flatten.length ∧
      ((readLoop len chunkSize mem dst net).result = some dst ∨
        (readLoop len chunkSize mem dst net).result = none ∨
        (readLoop len chunkSize mem dst net).net.flatten.length < net.flatten.length) := by
  induction hn : net.flatten.length using Nat.strong_induction_on generalizing chunkSize mem dst net
  rename_i n ih
  have hlength := upstreamRead_length (len - dst) net
  unfold readLoop
  by_cases hroom : len - dst = 0
  · rw [if_pos hroom]
    exact ⟨hn.le, .inl rfl⟩
  rw [if_neg hroom]
  by_cases hend : chunkSize = chunkIsEnd
  · rw [if_pos hend]
    exact ⟨hn.le, .inl rfl⟩
  rw [if_neg hend]
  dsimp only
  by_cases hgot : (upstreamRead (len - dst) net).1 = []
  · rw [if_pos hgot]
    have hle : (upstreamRead (len - dst) net).2.flatten.length ≤ n := by omega
    exact ⟨hle, .inr (.inl rfl)⟩
  rw [if_neg hgot]
  have hpos : 0 < (upstreamRead (len - dst) net).1.length := List.length_pos_iff.mpr hgot
  have hless : (upstreamRead (len - dst) net).2.flatten.length < n := by omega
  split
  · refine ⟨le_trans (ih _ hless _ _ _ _ rfl).1 hless.le, .inr (.inr ?_)⟩
    exact lt_of_le_of_lt (ih _ hless _ _ _ _ rfl).1 hless
  · exact ⟨hless.le, .inr (.inr hless)⟩
  · exact ⟨hless.le, .inr (.inl rfl)⟩

end KDechunkReader

/-- `us->read(buf, len)`: a piece of what arrives, of which at most `len` bytes come at once. It is
empty at the end, and `none` is an error: the upstream has an empty piece there. -/
def usRead (len : ℕ) : List Bytes → Option Bytes × List Bytes
  | [] => (some [], [])
  | [] :: net => (none, net)
  | got :: net =>
    if got.length ≤ len then (some got, net) else (some (got.take len), got.drop len :: net)

/-- `is_status_code_no_body`. -/
def isStatusCodeNoBody (statusCode : ℕ) : Bool :=
  statusCode == 100 || statusCode == 304 || statusCode == 204

/-- `KResponseData`: of `dechunk` the `chunk_size` of its engine, and the list of the header
manager. -/
structure KResponseData where
  header : List (Bytes × Bytes)
  statusCode : ℕ
  left : ℤ
  dechunk : Option (BitVec 32)
  deriving DecidableEq

namespace KResponseData

/-- The constructor: a response filled with zeros. -/
def init : KResponseData := ⟨[], 0, 0, none⟩

/-! ## The header -/

/-- `parse_header` of the status line. -/
def parseStatus (d : KResponseData) (val : Bytes) : KResponseData :=
  let d := { d with statusCode := (atoi val % 2 ^ 16).toNat }
  if isStatusCodeNoBody d.statusCode then { d with left := 0 } else d

/-- `parse_header` of the other lines, and what it returns. -/
def parseHeader (d : KResponseData) (attr val : Bytes) : KResponseData × Bool :=
  if caseString attr = kglString "transfer-encoding" then
    if caseString val = kglString "chunked" ∧ d.dechunk = none then
      ({ d with left := -1, dechunk := some chunkReadSize }, true)
    else (d, true)
  else if caseString attr = kglString "content-length" then
    ({ d with left := string2int val, dechunk := none }, true)
  else if attr.length > maxHeaderAttrValSize ∨ val.length > maxHeaderAttrValSize then (d, false)
  else ({ d with header := d.header ++ [(attr, val)] }, true)

/-- The header of a response: its status line and the lines behind it. -/
def parseResponse (status : Bytes) (lines : List (Bytes × Bytes)) : KResponseData :=
  lines.foldl (fun d line => (parseHeader d line.1 line.2).1) (parseStatus init status)

/-! ## The body -/

/-- What a read leaves: the response, the memory of the caller's buffer, the upstream, and the
number of bytes, or `none` where it is negative. -/
structure ReadOut where
  data : KResponseData
  mem : ℕ → Byte
  net : List Bytes
  got : Option ℕ

/-- `read(mem + buf, len)`. -/
def read (buf len : ℕ) (d : KResponseData) (mem : ℕ → Byte) (net : List Bytes) : ReadOut :=
  if d.left = 0 then ⟨d, mem, net, some 0⟩
  else if 0 < d.left then
    let r := usRead (min d.left.toNat len) net
    match r.1 with
    | none => ⟨d, mem, r.2, none⟩
    | some [] => ⟨d, mem, r.2, none⟩
    | some got =>
      ⟨{ d with left := d.left - got.length }, memWrite mem buf got, r.2, some got.length⟩
  else
    match d.dechunk with
    | some chunkSize =>
      let r := KDechunkReader.read len chunkSize (fun i => mem (buf + i)) net
      ⟨{ d with left := if r.result = some 0 then 0 else d.left, dechunk := some r.chunkSize },
        fun i => if i < buf then mem i else r.mem (i - buf), r.net, r.result⟩
    | none =>
      let r := usRead len net
      match r.1 with
      | none => ⟨d, mem, r.2, none⟩
      | some got => ⟨d, memWrite mem buf got, r.2, some got.length⟩

/-- `read_all(mem + buf, len)`, with `total` bytes read already. -/
def readAll (buf len total : ℕ) (d : KResponseData) (mem : ℕ → Byte) (net : List Bytes) :
    ReadOut :=
  if len = 0 then ⟨d, mem, net, some total⟩
  else
    let r := read buf len d mem net
    match r.got with
    | none => r
    | some 0 => { r with got := some total }
    | some (got + 1) =>
      readAll (buf + (got + 1)) (len - (got + 1)) (total + (got + 1)) r.data r.mem r.net
termination_by len

/-- What `read_body` gives of `KGL_RESULT`. -/
inductive KglResult
  | ok
  | insufficientBuffer
  | socketBroken
  deriving DecidableEq, Repr

/-- What `read_body` returns and leaves: the memory of the buffer, and `result`, unless nothing was
assigned to it. -/
structure BodyOut where
  data : KResponseData
  net : List Bytes
  buffer : Option (ℕ → Byte)
  result : Option KglResult

/-- A read leaves at most what there was, and less if it gives something. -/
theorem usRead_net (len : ℕ) (net : List Bytes) {got : Bytes}
    (h : (usRead len net).1 = some got) :
    got.length + (usRead len net).2.flatten.length = net.flatten.length := by
  revert h
  unfold usRead
  split
  · rintro ⟨rfl⟩
    rfl
  · simp
  · split
    · rintro ⟨rfl⟩
      simp
    · rintro ⟨rfl⟩
      simp only [List.flatten_cons, List.length_append, List.length_take, List.length_drop]
      omega

/-- A read takes what it gives from the upstream. -/
theorem read_net {buf len : ℕ} {d : KResponseData} {mem : ℕ → Byte} {net : List Bytes} {got : ℕ}
    (h : (read buf len d mem net).got = some (got + 1)) :
    (read buf len d mem net).net.flatten.length < net.flatten.length := by
  revert h
  unfold read
  split_ifs with hzero hpos
  · simp
  · dsimp only
    cases hread : (usRead (min d.left.toNat len) net).1 with
    | none => simp
    | some piece =>
      have hnet := usRead_net _ net hread
      cases piece with
      | nil => simp
      | cons c piece =>
        intro _
        show (usRead (min d.left.toNat len) net).2.flatten.length < net.flatten.length
        rw [← hnet, List.length_cons]
        omega
  · cases d.dechunk with
    | some chunkSize =>
      dsimp only
      intro h
      rcases (KDechunkReader.readLoop_net len chunkSize (fun i => mem (buf + i)) 0 net).2 with
        hsame | hnone | hless
      · exact absurd (hsame.symm.trans h) (by simp)
      · exact absurd (hnone.symm.trans h) (by simp)
      · exact hless
    | none =>
      dsimp only
      cases hread : (usRead len net).1 with
      | none => simp
      | some piece =>
        have hnet := usRead_net len net hread
        intro h
        have hlength : piece.length = got + 1 := Option.some.inj h
        show (usRead len net).2.flatten.length < net.flatten.length
        omega

/-- The loop of `read_body` for a body whose length is not known; `used` bytes of the buffer have
been written, and `room used` is what `ks_get_write_buffer` finds behind them. -/
def readRest (room : ℕ → ℕ) (used : ℕ) (d : KResponseData) (buffer : ℕ → Byte)
    (net : List Bytes) : BodyOut :=
  match h : (read used (room used) d buffer net).got with
  | none =>
    let r := read used (room used) d buffer net
    ⟨r.data, r.net, none, some .socketBroken⟩
  | some 0 =>
    let r := read used (room used) d buffer net
    ⟨r.data, r.net, some (memWrite r.mem used [0]), none⟩
  | some (got + 1) =>
    let r := read used (room used) d buffer net
    readRest room (used + (got + 1)) r.data r.mem r.net
termination_by net.flatten.length
decreasing_by exact read_net h

/-- `read_body`; `fresh` is what is in the memory of a new buffer. -/
def readBody (room : ℕ → ℕ) (fresh : ℕ → Byte) (maxBodyLen : ℤ) (d : KResponseData)
    (net : List Bytes) : BodyOut :=
  if d.left = 0 then ⟨d, net, none, some .ok⟩
  else if maxBodyLen < d.left then ⟨d, net, none, some .insufficientBuffer⟩
  else if 0 < d.left then
    let r := readAll 0 d.left.toNat 0 d fresh net
    if r.got = some 0 then ⟨r.data, r.net, none, some .socketBroken⟩
    else ⟨r.data, r.net, some (memWrite r.mem d.left.toNat [0]), some .ok⟩
  else readRest room 0 d fresh net

end KResponseData

end Khttpd
