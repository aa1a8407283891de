import Mathlib.Data.List.Infix
import Khttpd.Analysis.Chunked

/-!
# The engine byte by byte

`ChunkScan` follows the bytes that the engine takes, one at a time and whatever the cuts. It keeps
the whole value of a size line, where the word of the engine keeps the low 32 bits, and the trailer
line that the engine leaves to its caller. A run of calls hands over what the scan of the bytes
taken says.
-/

set_option autoImplicit false

namespace Khttpd

/-! ## The scan -/

/-- Where the scan is. -/
inductive ScanState
  /-- Before a size line. -/
  | start
  /-- In the digits of a size line. -/
  | size (value : ℕ)
  /-- Behind the digits of a size line, if it has any. -/
  | ext (value : Option ℕ)
  /-- In the bytes of a chunk. -/
  | data (left : ℕ)
  /-- Behind the bytes of a chunk. -/
  | dataEnd
  /-- In a trailer line, behind the size line with that value. -/
  | last (value : Option ℕ) (line : Bytes)
  /-- Behind the line that ended the body. -/
  | ended (value : Option ℕ) (line : Bytes)
  /-- Behind a digit too many. -/
  | failed
  deriving DecidableEq

/-- What is left of a trailer line. -/
def visible (line : Bytes) : Bytes := (line.dropWhile isSpace).rdropWhile isSpace

/-- The low 32 bits of the value of a size line; none stands for a line without digits. -/
def lowValue (value : Option ℕ) : ℕ := value.getD 0 % 2 ^ 32

namespace ScanState

/-- Behind a size line. -/
def sizeEnd (value : Option ℕ) : ScanState :=
  if lowValue value = 0 then last value [] else data (lowValue value)

/-- Behind a digit. -/
def digit (value : ℕ) : ScanState :=
  if maxChunkSize.toNat < value % 2 ^ 32 then failed else size value

/-- Behind one more byte. -/
def next : ScanState → Byte → ScanState
  | start, ch =>
    match hexDigit ch with
    | some d => digit (0 * 16 + d)
    | none => if ch = 10 then sizeEnd none else ext none
  | size value, ch =>
    match hexDigit ch with
    | some d => digit (value * 16 + d)
    | none => if ch = 10 then sizeEnd (some value) else ext (some value)
  | ext value, ch => if ch = 10 then sizeEnd value else ext value
  | data left, _ => if left = 1 then dataEnd else data (left - 1)
  | dataEnd, ch => if ch = 10 then start else dataEnd
  | last value line, ch =>
    if ch = 10 then if (visible line).length ≤ 1 then ended value line else last value []
    else last value (line ++ [ch])
  | ended value line, _ => ended value line
  | failed, _ => failed

/-- What one more byte adds to the payload. -/
def piece : ScanState → Byte → Bytes
  | data _, ch => [ch]
  | _, _ => []

/-- The trailer line that one more byte ends. -/
def trailers : ScanState → Byte → List Bytes
  | last _ line, ch => if ch = 10 ∧ 1 < (visible line).length then [visible line] else []
  | _, _ => []

/-- The word of the engine. -/
def word : ScanState → BitVec 32
  | start => chunkReadSize
  | size value => BitVec.ofNat 32 (value % 2 ^ 32) ||| chunkPartSize
  | ext value => BitVec.ofNat 32 (lowValue value) ||| chunkPartSizeEnd
  | data left => BitVec.ofNat 32 left
  | dataEnd => chunkReadEnd
  | last _ _ => chunkReadLast
  | ended _ _ => chunkIsEnd
  | failed => chunkIsFailed

/-- The word has room for the number in a state, and no trailer line is begun. -/
def Fits : ScanState → Prop
  | size value => value % 2 ^ 32 ≤ maxChunkSize.toNat
  | ext value => lowValue value ≤ maxChunkSize.toNat
  | data left => 0 < left ∧ left ≤ maxChunkSize.toNat
  | last _ line => line = []
  | failed => False
  | _ => True

/-- The states in a size line. -/
def InSize : ScanState → Prop
  | start | size _ | ext _ => True
  | _ => False

/-- The body is over. -/
def IsEnded : ScanState → Prop
  | ended _ _ => True
  | _ => False

/-- No size line is behind the end. -/
theorem InSize.not_isEnded {st : ScanState} (h : st.InSize) : ¬st.IsEnded := by
  cases st with
  | ended => exact h.elim
  | start | size | ext | data | dataEnd | last | failed => exact id

end ScanState

/-- The scan, with the payload and the trailer lines so far. -/
structure ChunkScan where
  state : ScanState
  payload : Bytes
  trailers : List Bytes

namespace ChunkScan

/-- Before the first byte. -/
def init : ChunkScan := ⟨.start, [], []⟩

/-- One more byte. -/
def step (s : ChunkScan) (ch : Byte) : ChunkScan :=
  ⟨s.state.next ch, s.payload ++ s.state.piece ch, s.trailers ++ s.state.trailers ch⟩

/-- More bytes. -/
def run (s : ChunkScan) (bytes : Bytes) : ChunkScan := bytes.foldl step s

/-- The scan in another state. -/
def setState (s : ChunkScan) (st : ScanState) : ChunkScan := { s with state := st }

@[simp] theorem run_nil (s : ChunkScan) : s.run [] = s := rfl

@[simp] theorem run_cons (s : ChunkScan) (ch : Byte) (bytes : Bytes) :
    s.run (ch :: bytes) = (s.step ch).run bytes := rfl

theorem run_append (s : ChunkScan) (bytes more : Bytes) :
    s.run (bytes ++ more) = (s.run bytes).run more := List.foldl_append

@[simp] theorem setState_state (s : ChunkScan) : s.setState s.state = s := rfl

@[simp] theorem setState_setState (s : ChunkScan) (st st' : ScanState) :
    (s.setState st).setState st' = s.setState st' := rfl

/-- Outside of the bytes of a chunk and of a trailer line a byte adds nothing. -/
theorem step_setState {s : ChunkScan} {ch : Byte} (hpiece : s.state.piece ch = [])
    (htrailers : s.state.trailers ch = []) : s.step ch = s.setState (s.state.next ch) := by
  unfold step ChunkScan.setState
  rw [hpiece, htrailers, List.append_nil, List.append_nil]

/-- In a size line a byte adds nothing. -/
theorem step_size {s : ChunkScan} (hsize : s.state.InSize) (ch : Byte) :
    s.step ch = s.setState (s.state.next ch) := by
  obtain ⟨st, payload, trailers⟩ := s
  cases st with
  | start | size value | ext value => exact step_setState rfl rfl
  | data | dataEnd | last | ended | failed => exact hsize.elim

/-- Bytes that change nothing, one by one. -/
theorem run_self {s : ChunkScan} {bytes : Bytes} (hnext : ∀ ch ∈ bytes, s.state.next ch = s.state)
    (hpiece : ∀ ch, s.state.piece ch = []) (htrailers : ∀ ch, s.state.trailers ch = []) :
    s.run bytes = s := by
  induction bytes with
  | nil => rfl
  | cons ch bytes ih =>
    have hone : s.step ch = s := by
      rw [step_setState (hpiece ch) (htrailers ch), hnext ch List.mem_cons_self, setState_state]
    rw [run_cons, hone]
    exact ih fun ch' hch' => hnext ch' (List.mem_cons_of_mem _ hch')

/-- After the end nothing comes. -/
theorem run_ended {s : ChunkScan} {value : Option ℕ} {line : Bytes}
    (h : s.state = .ended value line) (bytes : Bytes) : s.run bytes = s := by
  apply run_self <;> intros <;> rw [h] <;> rfl

/-- After a failure nothing comes. -/
theorem run_failed {s : ChunkScan} (h : s.state = .failed) (bytes : Bytes) : s.run bytes = s := by
  apply run_self <;> intros <;> rw [h] <;> rfl

/-- The bytes of a line before its end, behind the digits of a size line. -/
theorem run_ext {s : ChunkScan} {value : Option ℕ} (h : s.state = .ext value) {bytes : Bytes}
    (hline : 10 ∉ bytes) : s.run bytes = s := by
  refine run_self ?_ (fun ch => by rw [h]; rfl) (fun ch => by rw [h]; rfl)
  intro ch hch
  have hne : ch ≠ 10 := fun heq => hline (heq ▸ hch)
  rw [h]
  exact if_neg hne

/-- The bytes of a line before its end, behind a chunk. -/
theorem run_dataEnd {s : ChunkScan} (h : s.state = .dataEnd) {bytes : Bytes}
    (hline : 10 ∉ bytes) : s.run bytes = s := by
  refine run_self ?_ (fun ch => by rw [h]; rfl) (fun ch => by rw [h]; rfl)
  intro ch hch
  have hne : ch ≠ 10 := fun heq => hline (heq ▸ hch)
  rw [h]
  exact if_neg hne

/-- The line end behind a chunk. -/
theorem run_dataEnd_line {s : ChunkScan} (h : s.state = .dataEnd) {bytes : Bytes}
    (hline : 10 ∉ bytes) : s.run (bytes ++ [10]) = s.setState .start := by
  rw [run_append, run_dataEnd h hline, run_cons, run_nil,
    step_setState (by rw [h]; rfl) (by rw [h]; rfl), h]
  rfl

/-- The bytes of a trailer line before its end. -/
theorem run_last {s : ChunkScan} {value : Option ℕ} {line : Bytes} (h : s.state = .last value line)
    {bytes : Bytes} (hline : 10 ∉ bytes) : s.run bytes =
      s.setState (.last value (line ++ bytes)) := by
  induction bytes generalizing s line with
  | nil =>
    rw [List.append_nil, ← h]
    rfl
  | cons ch bytes ih =>
    have hne : ch ≠ 10 := fun hch => hline (hch ▸ List.mem_cons_self)
    have hone : s.step ch = s.setState (.last value (line ++ [ch])) := by
      have hnext : s.state.next ch = .last value (line ++ [ch]) := by
        rw [h]
        exact if_neg hne
      have htrailers : s.state.trailers ch = [] := by
        rw [h]
        exact if_neg fun hch => hne hch.1
      rw [step_setState (by rw [h]; rfl) htrailers, hnext]
    have hrest := ih (s := s.setState (.last value (line ++ [ch]))) rfl
      fun hmem => hline (List.mem_cons_of_mem _ hmem)
    rw [run_cons, hone, hrest, setState_setState, List.append_assoc]
    rfl

/-- A trailer line. -/
theorem run_trailer {s : ChunkScan} {value : Option ℕ} (h : s.state = .last value [])
    {line : Bytes} (hline : 10 ∉ line) (hvisible : 1 < (visible line).length) :
    s.run (line ++ [10]) = { s with trailers := s.trailers ++ [visible line] } := by
  rw [run_append, run_last h hline, List.nil_append, run_cons, run_nil]
  have hnext : (ScanState.last value line).next 10 = .last value [] := by
    rw [ScanState.next, if_pos rfl, if_neg (Nat.not_le.mpr hvisible)]
  have htrailers : (ScanState.last value line).trailers 10 = [visible line] :=
    if_pos ⟨rfl, hvisible⟩
  show ChunkScan.mk ((ScanState.last value line).next 10) (s.payload ++ [])
    (s.trailers ++ (ScanState.last value line).trailers 10) = _
  rw [hnext, htrailers, List.append_nil, ← h]

/-- The line that ends the body. -/
theorem run_lastLine {s : ChunkScan} {value : Option ℕ} (h : s.state = .last value [])
    {line : Bytes} (hline : 10 ∉ line) (hvisible : (visible line).length ≤ 1) :
    s.run (line ++ [10]) = s.setState (.ended value line) := by
  rw [run_append, run_last h hline, List.nil_append, run_cons, run_nil]
  have hnext : (ScanState.last value line).next 10 = .ended value line := by
    rw [ScanState.next, if_pos rfl, if_pos hvisible]
  have htrailers : (ScanState.last value line).trailers 10 = [] :=
    if_neg fun hch => absurd hch.2 (Nat.not_lt.mpr hvisible)
  rw [step_setState rfl htrailers]
  exact congrArg s.setState hnext

/-- Where the scan is after some bytes of a chunk. -/
def afterData (left taken : ℕ) : ScanState :=
  if left = taken then .dataEnd else .data (left - taken)

/-- Bytes of a chunk. -/
theorem run_data {s : ChunkScan} {left : ℕ} (h : s.state = .data left) {bytes : Bytes}
    (hne : bytes ≠ []) (hle : bytes.length ≤ left) :
    s.run bytes = ⟨afterData left bytes.length, s.payload ++ bytes, s.trailers⟩ := by
  induction bytes generalizing s left with
  | nil => exact absurd rfl hne
  | cons ch bytes ih =>
    have hone : s.step ch = ⟨afterData left 1, s.payload ++ [ch], s.trailers⟩ := by
      unfold step
      rw [h]
      show ChunkScan.mk _ (s.payload ++ [ch]) (s.trailers ++ []) = _
      rw [List.append_nil]
      rfl
    rw [run_cons, hone]
    rw [List.length_cons] at hle ⊢
    by_cases hbytes : bytes = []
    · subst hbytes
      rfl
    · have hpos := List.length_pos_iff.mpr hbytes
      have hmore : afterData left 1 = .data (left - 1) := if_neg (by omega)
      rw [hmore, ih (s := ⟨.data (left - 1), s.payload ++ [ch], s.trailers⟩) rfl hbytes (by omega),
        List.append_assoc, List.singleton_append]
      have hafter : afterData (left - 1) bytes.length = afterData left (bytes.length + 1) := by
        unfold afterData
        by_cases heq : left = bytes.length + 1
        · rw [if_pos heq, if_pos (by omega)]
        · rw [if_neg heq, if_neg (by omega)]
          congr 1
          omega
      rw [hafter]

end ChunkScan

/-! ## A size line -/

/-- The low 32 bits of a number are all that a word has of it. -/
theorem ofNat_mod (n : ℕ) : BitVec.ofNat 32 (n % 2 ^ 32) = BitVec.ofNat 32 n := by
  apply BitVec.eq_of_toNat_eq
  rw [BitVec.toNat_ofNat, BitVec.toNat_ofNat]
  exact Nat.mod_mod n (2 ^ 32)

/-- One digit of a size line. -/
theorem dechunkSizeLoop_hexDigit {w : BitVec 32} {value d : ℕ} {ch : Byte} {buf : Bytes}
    (hdigit : hexDigit ch = some d) (hpart : w &&& chunkPartSizeEnd ≠ chunkPartSizeEnd)
    (hw : w &&& ~~~chunkStatusPrefix = BitVec.ofNat 32 value) :
    dechunkSizeLoop w (ch :: buf) =
      if maxChunkSize.toNat < (value * 16 + d) % 2 ^ 32 then
        (⟨chunkIsFailed, ch :: buf, .failed⟩, false)
      else dechunkSizeLoop (ScanState.size (value * 16 + d)).word buf := by
  have hmax : BitVec.ofNat 32 (value * 16 + d) > maxChunkSize ↔
      maxChunkSize.toNat < (value * 16 + d) % 2 ^ 32 := by
    rw [gt_iff_lt, BitVec.lt_def, BitVec.toNat_ofNat]
  rw [dechunkSizeLoop, if_neg (ne_newline_of_hexDigit hdigit), if_neg hpart, hdigit]
  dsimp only
  rw [word_digit hw, ScanState.word, ofNat_mod]
  by_cases hover : maxChunkSize.toNat < (value * 16 + d) % 2 ^ 32
  · rw [if_pos hover, if_pos (hmax.mpr hover)]
  · rw [if_neg hover, if_neg fun h => hover (hmax.mp h)]

/-- What the loop over a size line leaves. -/
inductive SizeScan (s : ChunkScan) (buf : Bytes) : DechunkOut × Bool → Prop
  /-- The line goes on. -/
  | more (st : ScanState) (hscan : s.run buf = s.setState st) (hfits : st.Fits)
      (hsize : st.InSize) : SizeScan s buf (⟨st.word, [], .continue⟩, false)
  /-- The line is over. -/
  | line (used rest : Bytes) (value : Option ℕ) (hbuf : buf = used ++ rest)
      (hscan : s.run used = s.setState (.sizeEnd value))
      (hfits : lowValue value ≤ maxChunkSize.toNat) :
      SizeScan s buf (⟨BitVec.ofNat 32 (lowValue value), rest, .continue⟩, true)
  /-- A digit is too much. -/
  | failed (used : Bytes) (ch : Byte) (rest : Bytes) (hbuf : buf = used ++ ch :: rest)
      (st : ScanState) (hscan : s.run used = s.setState st) (hsize : st.InSize)
      (hfail : st.next ch = .failed) : SizeScan s buf (⟨chunkIsFailed, ch :: rest, .failed⟩, false)

/-- A byte before the rest of the loop. -/
theorem SizeScan.cons {s : ChunkScan} {ch : Byte} {buf : Bytes} {out : DechunkOut × Bool}
    {st : ScanState} (hstep : s.step ch = s.setState st) (h : SizeScan (s.setState st) buf out) :
    SizeScan s (ch :: buf) out := by
  cases h with
  | more st' hscan hfits hsize =>
    refine .more st' ?_ hfits hsize
    rw [ChunkScan.run_cons, hstep, hscan, ChunkScan.setState_setState]
  | line used rest value hbuf hscan hfits =>
    refine .line (ch :: used) rest value (by rw [hbuf, List.cons_append]) ?_ hfits
    rw [ChunkScan.run_cons, hstep, hscan, ChunkScan.setState_setState]
  | failed used ch' rest hbuf st' hscan hsize hfail =>
    refine .failed (ch :: used) ch' rest (by rw [hbuf, List.cons_append]) st' ?_ hsize hfail
    rw [ChunkScan.run_cons, hstep, hscan, ChunkScan.setState_setState]

/-- One digit, and the rest of the loop. -/
theorem SizeScan.digit {s : ChunkScan} (hsize : s.state.InSize) {value d : ℕ}
    {ch : Byte} {buf : Bytes}
    (hdigit : hexDigit ch = some d)
    (hnext : s.state.next ch = .digit (value * 16 + d))
    (hpart : s.state.word &&& chunkPartSizeEnd ≠ chunkPartSizeEnd)
    (hw : s.state.word &&& ~~~chunkStatusPrefix = BitVec.ofNat 32 value)
    (h : (ScanState.size (value * 16 + d)).Fits →
      SizeScan (s.setState (.size (value * 16 + d))) buf
        (dechunkSizeLoop (ScanState.size (value * 16 + d)).word buf)) :
    SizeScan s (ch :: buf) (dechunkSizeLoop s.state.word (ch :: buf)) := by
  rw [dechunkSizeLoop_hexDigit hdigit hpart hw]
  by_cases hover : maxChunkSize.toNat < (value * 16 + d) % 2 ^ 32
  · rw [if_pos hover]
    exact .failed [] ch buf rfl s.state rfl hsize (hnext.trans (if_pos hover))
  · rw [if_neg hover]
    have hstate : ScanState.digit (value * 16 + d) = .size (value * 16 + d) := if_neg hover
    have hstep := ChunkScan.step_size hsize ch
    rw [hnext, hstate] at hstep
    exact .cons hstep (h (Nat.not_lt.mp hover))

/-- A size line is read byte by byte. -/
theorem dechunkSizeLoop_scan {s : ChunkScan} (hfits : s.state.Fits) (hsize : s.state.InSize)
    (buf : Bytes) : SizeScan s buf (dechunkSizeLoop s.state.word buf) := by
  induction buf generalizing s with
  | nil => exact .more s.state rfl hfits hsize
  | cons ch buf ih =>
    have hstep := ChunkScan.step_size hsize ch
    have hend : ∀ {value : Option ℕ}, ch = 10 → s.state.next ch = .sizeEnd value →
        lowValue value ≤ maxChunkSize.toNat →
        s.state.word &&& ~~~chunkStatusPrefix = BitVec.ofNat 32 (lowValue value) →
        SizeScan s (ch :: buf) (dechunkSizeLoop s.state.word (ch :: buf)) := by
      intro value hch hnext hlow hword
      rw [dechunkSizeLoop, if_pos hch, hword]
      refine .line [ch] buf value rfl ?_ hlow
      rw [ChunkScan.run_cons, ChunkScan.run_nil, hstep, hnext]
    have hskip : ∀ {value : Option ℕ}, s.state.next ch = .ext value →
        lowValue value ≤ maxChunkSize.toNat →
        dechunkSizeLoop s.state.word (ch :: buf) =
          dechunkSizeLoop (ScanState.ext value).word buf →
        SizeScan s (ch :: buf) (dechunkSizeLoop s.state.word (ch :: buf)) := by
      intro value hnext hlow hloop
      rw [hnext] at hstep
      rw [hloop]
      exact .cons hstep (ih (s := s.setState (.ext value)) hlow trivial)
    obtain ⟨st, payload, trailers⟩ := s
    cases st with
    | start =>
      have hpart : ScanState.start.word &&& chunkPartSizeEnd ≠ chunkPartSizeEnd := by decide
      have hclear : ScanState.start.word &&& ~~~chunkStatusPrefix = BitVec.ofNat 32 0 := by decide
      cases hdigit : hexDigit ch with
      | some d =>
        refine .digit hsize hdigit ?_ hpart hclear
          fun hfits' => ih (s := ⟨.size (0 * 16 + d), payload, trailers⟩) hfits' trivial
        show ScanState.next _ ch = _
        rw [ScanState.next, hdigit]
      | none =>
        have hnext : ScanState.start.next ch =
            if ch = 10 then .sizeEnd none else .ext none := by
          rw [ScanState.next, hdigit]
        by_cases hch : ch = 10
        · rw [if_pos hch] at hnext
          exact hend hch hnext (by decide) hclear
        · rw [if_neg hch] at hnext
          refine hskip hnext (by decide) ?_
          rw [dechunkSizeLoop, if_neg hch, if_neg hpart, hdigit]
          rfl
    | size value =>
      have hpart : (ScanState.size value).word &&& chunkPartSizeEnd ≠ chunkPartSizeEnd := by
        rw [ScanState.word, ofNat_or_and_mask hfits _ (by decide)]
        decide
      have hclear : (ScanState.size value).word &&& ~~~chunkStatusPrefix =
          BitVec.ofNat 32 (value % 2 ^ 32) := ofNat_or_and_not_statusBits hfits (by decide)
      cases hdigit : hexDigit ch with
      | some d =>
        rw [ofNat_mod] at hclear
        refine .digit hsize hdigit ?_ hpart hclear
          fun hfits' => ih (s := ⟨.size (value * 16 + d), payload, trailers⟩) hfits' trivial
        show ScanState.next _ ch = _
        rw [ScanState.next, hdigit]
      | none =>
        have hnext : (ScanState.size value).next ch =
            if ch = 10 then .sizeEnd (some value) else .ext (some value) := by
          rw [ScanState.next, hdigit]
        by_cases hch : ch = 10
        · rw [if_pos hch] at hnext
          exact hend hch hnext hfits hclear
        · rw [if_neg hch] at hnext
          refine hskip hnext hfits ?_
          have hword : (ScanState.size value).word ||| chunkPartSizeEnd =
              (ScanState.ext (some value)).word := by
            rw [ScanState.word, BitVec.or_assoc]
            rfl
          rw [dechunkSizeLoop, if_neg hch, if_neg hpart, hdigit]
          dsimp only
          rw [hword]
    | ext value =>
      have hpart : (ScanState.ext value).word &&& chunkPartSizeEnd = chunkPartSizeEnd := by
        rw [ScanState.word, ofNat_or_and_mask hfits _ (by decide)]
        decide
      by_cases hch : ch = 10
      · exact hend hch (if_pos hch) hfits (ofNat_or_and_not_statusBits hfits (by decide))
      · refine hskip (if_neg hch) hfits ?_
        rw [dechunkSizeLoop, if_neg hch, if_pos hpart]
    | data | dataEnd | last | ended | failed => exact hsize.elim

/-! ## A call -/

/-- What a call of the engine leaves. -/
inductive CallScan (s : ChunkScan) (buf : Bytes) (out : DechunkOut) : Prop
  /-- The bytes taken are scanned. -/
  | ok (used : Bytes) (hbuf : buf = used ++ out.rest)
      (hword : out.chunkSize = (s.run used).state.word) (hfits : (s.run used).state.Fits)
      (hpayload : (s.run used).payload = s.payload ++ out.result.piece)
      (htrailers : (s.run used).trailers = s.trailers ++ out.result.trailers)
      (hend : out.result = .end ↔ (s.run used).state.IsEnded) (hresult : out.result ≠ .failed)
      (hall : (s.run used).state.InSize → out.rest = [])
  /-- The byte behind the bytes taken is a digit too much. -/
  | failed (used : Bytes) (ch : Byte) (rest : Bytes) (hbuf : buf = used ++ ch :: rest)
      (hrest : out.rest = ch :: rest) (hword : out.chunkSize = chunkIsFailed)
      (hresult : out.result = .failed) (st : ScanState) (hscan : s.run used = s.setState st)
      (hsize : st.InSize) (hfail : st.next ch = .failed)

/-- A call that goes on behind bytes that add nothing. -/
theorem CallScan.append {s : ChunkScan} {used buf : Bytes} {out : DechunkOut} {st : ScanState}
    (hscan : s.run used = s.setState st) (h : CallScan (s.setState st) buf out) :
    CallScan s (used ++ buf) out := by
  cases h with
  | ok used' hbuf hword hfits hpayload htrailers hend hresult hall =>
    have hrun : s.run (used ++ used') = (s.setState st).run used' := by
      rw [ChunkScan.run_append, hscan]
    refine .ok (used ++ used') (by rw [hbuf, List.append_assoc]) ?_ ?_ ?_ ?_ ?_ hresult ?_
    · rw [hrun]
      exact hword
    · rw [hrun]
      exact hfits
    · rw [hrun]
      exact hpayload
    · rw [hrun]
      exact htrailers
    · rw [hrun]
      exact hend
    · rw [hrun]
      exact hall
  | failed used' ch rest hbuf hrest hword hresult st' hscan' hsize hfail =>
    refine .failed (used ++ used') ch rest (by rw [hbuf, List.append_assoc]) hrest hword hresult
      st' ?_ hsize hfail
    rw [ChunkScan.run_append, hscan, hscan', ChunkScan.setState_setState]

/-- A call that needs more bytes. -/
theorem CallScan.continue {s : ChunkScan} {used rest : Bytes} {st : ScanState}
    (hscan : s.run used = s.setState st) (hfits : st.Fits) (hend : ¬st.IsEnded)
    (hall : st.InSize → rest = []) : CallScan s (used ++ rest) ⟨st.word, rest, .continue⟩ := by
  refine .ok used rfl ?_ ?_ ?_ ?_ ?_ nofun ?_
  · rw [hscan]
    rfl
  · rw [hscan]
    exact hfits
  · rw [hscan]
    exact (List.append_nil _).symm
  · rw [hscan]
    exact (List.append_nil _).symm
  · rw [hscan]
    exact ⟨nofun, fun h => absurd h hend⟩
  · rw [hscan]
    exact hall

/-- The trailers are read line by line. -/
theorem dechunkLast_scan {s : ChunkScan} {value : Option ℕ} (h : s.state = .last value [])
    (buf : Bytes) : CallScan s buf (dechunkLast buf) := by
  unfold dechunkLast
  cases hfound : memchr 10 buf with
  | none =>
    have hstate : (ScanState.last value []).Fits := rfl
    have hscan : s.run [] = s.setState (.last value []) := by
      rw [ChunkScan.run_nil, ← h]
      rfl
    exact .continue hscan hstate id False.elim
  | some r =>
    obtain ⟨line, rest⟩ := r
    obtain ⟨hline, hbuf⟩ := memchr_eq_some hfound
    have hcut : buf = (line ++ [10]) ++ rest := by
      rw [hbuf, List.append_assoc, List.singleton_append]
    dsimp only
    by_cases hvisible : (visible line).length ≤ 1
    · have hrun := ChunkScan.run_lastLine h hline hvisible
      have hshort : ((line.dropWhile isSpace).rdropWhile isSpace).length ≤ 1 := hvisible
      rw [if_pos hshort]
      refine .ok (line ++ [10]) hcut ?_ ?_ ?_ ?_ ?_ nofun ?_
      · rw [hrun]
        rfl
      · rw [hrun]
        trivial
      · rw [hrun]
        exact (List.append_nil _).symm
      · rw [hrun]
        exact (List.append_nil _).symm
      · rw [hrun]
        exact ⟨fun _ => trivial, fun _ => rfl⟩
      · rw [hrun]
        exact False.elim
    · have hrun := ChunkScan.run_trailer h hline (Nat.not_le.mp hvisible)
      have hlong : ¬((line.dropWhile isSpace).rdropWhile isSpace).length ≤ 1 := hvisible
      rw [if_neg hlong]
      refine .ok (line ++ [10]) hcut ?_ ?_ ?_ ?_ ?_ nofun ?_
      · rw [hrun]
        show chunkReadLast = s.state.word
        rw [h]
        rfl
      · rw [hrun]
        show s.state.Fits
        rw [h]
        exact rfl
      · rw [hrun]
        exact (List.append_nil _).symm
      · rw [hrun]
        rfl
      · rw [hrun]
        show _ ↔ s.state.IsEnded
        rw [h]
        exact ⟨nofun, False.elim⟩
      · rw [hrun]
        show s.state.InSize → _
        rw [h]
        exact False.elim

/-- The bytes of a chunk are handed over in order. -/
theorem dechunkData_scan {s : ChunkScan} {left : ℕ} (h : s.state = .data left)
    (hfits : (ScanState.data left).Fits) (buf : Bytes) (length : ℕ) :
    CallScan s buf (dechunkData (BitVec.ofNat 32 left) buf length) := by
  obtain ⟨hpos, hmax⟩ := hfits
  have hself : s.run [] = s.setState (.data left) := by
    rw [ChunkScan.run_nil, ← h]
    rfl
  unfold dechunkData
  rw [toNat_ofNat_chunk hmax]
  dsimp only
  by_cases hbuf : min left buf.length = 0
  · rw [if_pos hbuf]
    have hstate : (ScanState.data left).Fits := ⟨hpos, hmax⟩
    exact .continue hself hstate id False.elim
  · rw [if_neg hbuf]
    obtain ⟨k, hk⟩ : ∃ k, k = min length (min left buf.length) := ⟨_, rfl⟩
    rw [← hk]
    rw [ofNat_sub hmax (by omega)]
    have hcut : buf = buf.take k ++ buf.drop k := (List.take_append_drop k buf).symm
    by_cases hzero : k = 0
    · have hleft : ¬BitVec.ofNat 32 (left - k) = 0 := by
        rw [ofNat_eq_zero (by omega)]
        omega
      rw [if_neg hleft, hzero]
      refine .ok [] rfl ?_ ?_ ?_ ?_ ?_ nofun ?_
      · rw [hself]
        rfl
      · rw [hself]
        exact ⟨hpos, hmax⟩
      · rw [hself]
        exact (List.append_nil _).symm
      · rw [hself]
        exact (List.append_nil _).symm
      · rw [hself]
        exact ⟨nofun, False.elim⟩
      · rw [hself]
        exact False.elim
    · have hklen : (buf.take k).length = k := by
        rw [List.length_take]
        omega
      have hmore : buf.take k ≠ [] := List.ne_nil_of_length_pos (by omega)
      have hrun := ChunkScan.run_data h hmore (by omega)
      rw [hklen] at hrun
      have hafter : (if BitVec.ofNat 32 (left - k) = 0 then chunkReadEnd
          else BitVec.ofNat 32 (left - k)) = (ChunkScan.afterData left k).word ∧
          (ChunkScan.afterData left k).Fits ∧ ¬(ChunkScan.afterData left k).IsEnded ∧
          ¬(ChunkScan.afterData left k).InSize := by
        unfold ChunkScan.afterData
        by_cases hend : left = k
        · rw [if_pos hend, if_pos (by rw [ofNat_eq_zero (by omega)]; omega)]
          exact ⟨rfl, trivial, id, id⟩
        · rw [if_neg hend, if_neg (by rw [ofNat_eq_zero (by omega)]; omega)]
          exact ⟨rfl, ⟨by omega, by omega⟩, id, id⟩
      obtain ⟨hword, hfits, hended, hsize⟩ := hafter
      refine .ok (buf.take k) hcut ?_ ?_ ?_ ?_ ?_ nofun ?_
      · rw [hrun]
        exact hword
      · rw [hrun]
        exact hfits
      · rw [hrun]
        rfl
      · rw [hrun]
        exact (List.append_nil _).symm
      · rw [hrun]
        exact ⟨nofun, fun hst => absurd hst hended⟩
      · rw [hrun]
        exact fun hst => absurd hst hsize

/-- A size line and what follows it. -/
theorem dechunkSize_scan {s : ChunkScan} (hfits : s.state.Fits) (hsize : s.state.InSize)
    (buf : Bytes) (length : ℕ) : CallScan s buf (dechunkSize s.state.word buf length) := by
  have hcond : s.state.word = chunkReadSize ∨
      s.state.word &&& chunkPartSize = chunkPartSize := by
    obtain ⟨st, payload, trailers⟩ := s
    cases st with
    | start => exact Or.inl rfl
    | size value | ext value =>
      right
      show ScanState.word _ &&& chunkPartSize = chunkPartSize
      rw [ScanState.word, ofNat_or_and_mask hfits _ (by decide)]
      decide
    | data | dataEnd | last | ended | failed => exact hsize.elim
  have hloop := dechunkSizeLoop_scan hfits hsize buf
  unfold dechunkSize
  rw [if_pos hcond]
  generalize dechunkSizeLoop s.state.word buf = out at hloop
  cases hloop with
  | more st hscan hfits' hsize' =>
    have hnone : st.InSize → ([] : Bytes) = [] := fun _ => rfl
    have hcall := CallScan.continue hscan hfits' hsize'.not_isEnded hnone
    rw [List.append_nil] at hcall
    exact hcall
  | line used rest value hbuf hscan hlow =>
    rw [hbuf]
    dsimp only
    by_cases hzero : lowValue value = 0
    · have hstate : ScanState.sizeEnd value = .last value [] := if_pos hzero
      rw [if_pos ((ofNat_eq_zero hlow).mpr hzero)]
      rw [hstate] at hscan
      exact .append hscan (dechunkLast_scan rfl rest)
    · have hstate : ScanState.sizeEnd value = .data (lowValue value) := if_neg hzero
      rw [if_neg (mt (ofNat_eq_zero hlow).mp hzero)]
      rw [hstate] at hscan
      exact .append hscan
        (dechunkData_scan rfl ⟨Nat.pos_of_ne_zero hzero, hlow⟩ rest length)
  | failed used ch rest hbuf st hscan hsize' hfail =>
    exact .failed used ch rest hbuf rfl rfl rfl st hscan hsize' hfail

/-- A call of the engine scans the bytes it takes. -/
theorem dechunk_scan {s : ChunkScan} (hfits : s.state.Fits) (hended : ¬s.state.IsEnded)
    (buf : Bytes) (length : ℕ) : CallScan s buf (dechunk s.state.word buf length) := by
  obtain ⟨st, payload, trailers⟩ := s
  have hsize : ScanState.InSize st → st.word &&& chunkStatus ≠ chunkStatus →
      CallScan ⟨st, payload, trailers⟩ buf (dechunk st.word buf length) := by
    intro hsize hstatus
    rw [dechunk_of_status hstatus]
    exact dechunkSize_scan hfits hsize buf length
  cases st with
  | start => exact hsize trivial (by decide)
  | size value => exact hsize trivial (ofNat_or_and_status hfits chunkPartSize (by decide))
  | ext value => exact hsize trivial (ofNat_or_and_status hfits chunkPartSizeEnd (by decide))
  | data left =>
    obtain ⟨hpos, hmax⟩ := hfits
    show CallScan _ buf (dechunk (BitVec.ofNat 32 left) buf length)
    rw [dechunk_of_data hpos hmax]
    exact dechunkData_scan rfl ⟨hpos, hmax⟩ buf length
  | dataEnd =>
    show CallScan _ buf (dechunk chunkReadEnd buf length)
    rw [dechunk, if_neg (by decide), if_neg (by decide), if_neg (by decide), if_pos rfl]
    cases hfound : memchr 10 buf with
    | none =>
      have hscan : ChunkScan.run ⟨.dataEnd, payload, trailers⟩ buf =
          ChunkScan.setState ⟨.dataEnd, payload, trailers⟩ .dataEnd :=
        ChunkScan.run_dataEnd rfl (memchr_eq_none hfound)
      have hnone : ScanState.dataEnd.InSize → ([] : Bytes) = [] := False.elim
      have hcall := CallScan.continue hscan trivial id hnone
      rw [List.append_nil] at hcall
      exact hcall
    | some r =>
      obtain ⟨line, rest⟩ := r
      obtain ⟨hline, hbuf⟩ := memchr_eq_some hfound
      have hcut : buf = (line ++ [10]) ++ rest := by
        rw [hbuf, List.append_assoc, List.singleton_append]
      rw [hcut]
      exact .append (ChunkScan.run_dataEnd_line rfl hline)
        (dechunkSize_scan (s := ⟨.start, payload, trailers⟩) trivial trivial rest length)
  | last value line =>
    obtain rfl : line = [] := hfits
    show CallScan _ buf (dechunk chunkReadLast buf length)
    rw [dechunk, if_neg (by decide), if_neg (by decide), if_pos rfl]
    exact dechunkLast_scan rfl buf
  | ended => exact absurd trivial hended
  | failed => exact hfits.elim

/-! ## A run of calls -/

namespace DechunkFeed

/-- The scan of the bytes that the calls took. -/
def scan (f : DechunkFeed) : ChunkScan := ChunkScan.init.run f.taken

/-- The calls so far say what the scan of the bytes they took says. -/
structure Scanned (f : DechunkFeed) : Prop where
  payload : f.scan.payload = f.payload
  trailers : f.scan.trailers = f.trailers
  ended : .end ∈ f.results ↔ f.scan.state.IsEnded
  state : (f.chunkSize = f.scan.state.word ∧ f.scan.state.Fits ∧ .failed ∉ f.results ∧
      (f.scan.state.InSize → f.unread = [])) ∨
    f.chunkSize = chunkIsFailed ∧ .failed ∈ f.results ∧ f.scan.state.InSize ∧
      ∃ ch rest, f.unread = ch :: rest ∧ f.scan.state.next ch = .failed

/-- Nothing is scanned before the first call. -/
theorem scanned_init : init.Scanned :=
  ⟨rfl, rfl, ⟨nofun, False.elim⟩, Or.inl ⟨rfl, trivial, List.not_mem_nil, fun _ => rfl⟩⟩

/-- The word of a state before the end is no word of a body that is over. -/
theorem isEnded_of_word {st : ScanState} (hfits : st.Fits) {w : BitVec 32}
    (hstatus : w &&& chunkStatus = chunkStatus) (hend : w ≠ chunkReadEnd)
    (hlast : w ≠ chunkReadLast) (h : st.word = w) : st.IsEnded := by
  have hsize : ∀ {n : ℕ} (bits : BitVec 32), n ≤ maxChunkSize.toNat →
      bits &&& chunkStatus ≠ chunkStatus → BitVec.ofNat 32 n ||| bits ≠ w := by
    intro n bits hmax hbits heq
    apply ofNat_or_and_status hmax bits hbits
    rw [heq]
    exact hstatus
  cases st with
  | ended => trivial
  | start =>
    rw [← h] at hstatus
    exact absurd hstatus (by decide)
  | dataEnd => exact absurd h.symm hend
  | last => exact absurd h.symm hlast
  | size value | ext value => exact absurd h (hsize _ hfits (by decide))
  | data left =>
    have hne := hsize 0#32 hfits.2 (by decide)
    rw [BitVec.or_zero] at hne
    exact absurd h hne
  | failed => exact hfits.elim

/-- The bytes before what a call leaves. -/
theorem take_used (used rest : Bytes) :
    (used ++ rest).take ((used ++ rest).length - rest.length) = used := by
  rw [List.length_append, Nat.add_sub_cancel, List.take_left]

/-- A call: none is made behind the end or a failure; otherwise it scans the bytes it takes, or it
fails in front of a digit. -/
theorem call_cases {f : DechunkFeed} (hf : f.Scanned) (c : DechunkCall) :
    (f.scan.state.IsEnded ∨ .failed ∈ f.results) ∧
        f.call c = { f with unread := f.unread ++ c.more } ∨
    (¬f.scan.state.IsEnded ∧ .failed ∉ f.results) ∧ ∃ used rest result,
      f.unread ++ c.more = used ++ rest ∧ f.call c =
        ⟨(dechunk f.chunkSize (f.unread ++ c.more) c.pieceLength).chunkSize, f.taken ++ used, rest,
          f.results ++ [result]⟩ ∧
      dechunk f.chunkSize (f.unread ++ c.more) c.pieceLength =
        ⟨(f.call c).chunkSize, rest, result⟩ ∧
      (f.scan.run used).payload = f.scan.payload ++ result.piece ∧
      (f.scan.run used).trailers = f.scan.trailers ++ result.trailers ∧
      (result = .end ↔ (f.scan.run used).state.IsEnded) ∧
      ((f.call c).chunkSize = (f.scan.run used).state.word ∧ (f.scan.run used).state.Fits ∧
          result ≠ .failed ∧ ((f.scan.run used).state.InSize → rest = []) ∨
        (f.call c).chunkSize = chunkIsFailed ∧ result = .failed ∧
          (f.scan.run used).state.InSize ∧
          ∃ ch rest', rest = ch :: rest' ∧ (f.scan.run used).state.next ch = .failed) := by
  by_cases hstop : f.scan.state.IsEnded ∨ .failed ∈ f.results
  · left
    refine ⟨hstop, ?_⟩
    have hword : f.chunkSize = chunkIsFailed ∨ f.chunkSize = chunkIsEnd := by
      rcases hf.state with ⟨hword, -, hnone, -⟩ | ⟨hword, -⟩
      · have hended := hstop.resolve_right hnone
        right
        rw [hword]
        cases hst : f.scan.state with
        | ended => rfl
        | start | size | ext | data | dataEnd | last | failed =>
          rw [hst] at hended
          exact hended.elim
      · exact Or.inl hword
    unfold call
    exact if_pos hword
  · right
    obtain ⟨hended, hnone⟩ := not_or.mp hstop
    refine ⟨⟨hended, hnone⟩, ?_⟩
    obtain ⟨hword, hfits, -⟩ := hf.state.resolve_right fun h => hnone h.2.1
    have hgo : ¬(f.chunkSize = chunkIsFailed ∨ f.chunkSize = chunkIsEnd) := by
      rw [hword]
      rintro (h | h)
      · exact hended (isEnded_of_word hfits (by decide) (by decide) (by decide) h)
      · exact hended (isEnded_of_word hfits (by decide) (by decide) (by decide) h)
    have hscan := dechunk_scan hfits hended (f.unread ++ c.more) c.pieceLength
    rw [← hword] at hscan
    have hcall : f.call c =
        let out := dechunk f.chunkSize (f.unread ++ c.more) c.pieceLength
        ⟨out.chunkSize, f.taken ++
          (f.unread ++ c.more).take ((f.unread ++ c.more).length - out.rest.length), out.rest,
          f.results ++ [out.result]⟩ := by
      unfold call
      exact if_neg hgo
    rw [hcall]
    generalize dechunk f.chunkSize (f.unread ++ c.more) c.pieceLength = out at hscan
    obtain ⟨chunkSize, rest, result⟩ := out
    dsimp only at hscan ⊢
    cases hscan with
    | ok used hbuf hword' hfits' hpayload htrailers hend hresult hall =>
      dsimp only at hbuf
      rw [hbuf, take_used]
      exact ⟨used, rest, result, rfl, rfl, rfl, hpayload, htrailers, hend,
        Or.inl ⟨hword', hfits', hresult, hall⟩⟩
    | failed used ch rest' hbuf hrest hword' hresult st hrun hsize hfail =>
      dsimp only at hrest hresult
      subst hrest hresult
      rw [hbuf, take_used]
      refine ⟨used, ch :: rest', .failed, rfl, rfl, rfl, ?_, ?_, ?_,
        Or.inr ⟨hword', rfl, ?_, ch, rest', rfl, ?_⟩⟩
      · rw [hrun]
        exact (List.append_nil _).symm
      · rw [hrun]
        exact (List.append_nil _).symm
      · rw [hrun]
        exact ⟨nofun, fun h => absurd h hsize.not_isEnded⟩
      · rw [hrun]
        exact hsize
      · rw [hrun]
        exact hfail

/-- A call of a caller scans the bytes it takes. -/
theorem scanned_call {f : DechunkFeed} (hf : f.Scanned) (c : DechunkCall) : (f.call c).Scanned := by
  rcases call_cases hf c with ⟨hstop, hcall⟩ | ⟨⟨hended, hnone⟩, used, rest, result, -, hcall, -,
      hpayload, htrailers, hend, hstate⟩
  · rw [hcall]
    refine ⟨hf.payload, hf.trailers, hf.ended, ?_⟩
    rcases hf.state with ⟨hword, hfits, hnone, -⟩
      | ⟨hword, hfailed, hsize, ch, rest, hunread, hfail⟩
    · have hended := hstop.resolve_right hnone
      exact Or.inl ⟨hword, hfits, hnone, fun hsize => absurd hended hsize.not_isEnded⟩
    · refine Or.inr ⟨hword, hfailed, hsize, ch, rest ++ c.more, ?_, hfail⟩
      show f.unread ++ c.more = _
      rw [hunread, List.cons_append]
  · have hscan : (f.call c).scan = f.scan.run used := by
      rw [hcall]
      exact ChunkScan.run_append _ _ _
    have hresults : (f.call c).results = f.results ++ [result] := by rw [hcall]
    have hunread : (f.call c).unread = rest := by rw [hcall]
    have hmem : ∀ {r : KDechunkResult}, r ∉ f.results → (r ∈ (f.call c).results ↔ result = r) := by
      intro r hr
      rw [hresults, List.mem_append, List.mem_singleton]
      exact ⟨fun h => (h.resolve_left hr).symm, fun h => Or.inr h.symm⟩
    constructor
    · rw [hscan, hpayload, hf.payload]
      unfold payload
      rw [hresults, List.flatMap_append, List.flatMap_singleton]
    · rw [hscan, htrailers, hf.trailers]
      unfold trailers
      rw [hresults, List.flatMap_append, List.flatMap_singleton]
    · rw [hmem (mt hf.ended.mp hended), hscan]
      exact hend
    · rw [hmem hnone, hscan, hunread]
      exact hstate

/-- Every run of calls scans the bytes it takes. -/
theorem scanned_calls (cs : List DechunkCall) : (calls cs).Scanned := by
  unfold calls
  generalize hf : init = f
  have hinit : f.Scanned := hf ▸ scanned_init
  clear hf
  induction cs generalizing f with
  | nil => exact hinit
  | cons c cs ih => exact ih _ (scanned_call hinit c)

/-- What a run takes and leaves is what its calls were given. -/
theorem calls_bytes (cs : List DechunkCall) :
    (calls cs).taken ++ (calls cs).unread = cs.flatMap DechunkCall.more := by
  induction cs using List.reverseRecOn with
  | nil => rfl
  | append_singleton cs c ih =>
    have hcalls : calls (cs ++ [c]) = (calls cs).call c := List.foldl_concat ..
    rw [hcalls, List.flatMap_append, List.flatMap_singleton, ← ih]
    rcases call_cases (scanned_calls cs) c with
      ⟨-, hcall⟩ | ⟨-, used, rest, result, hbuf, hcall, -⟩
    · rw [hcall, List.append_assoc]
    · rw [hcall, List.append_assoc, List.append_assoc, hbuf]

end DechunkFeed

end Khttpd
