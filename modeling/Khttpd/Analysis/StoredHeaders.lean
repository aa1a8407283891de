import Khttpd.Analysis.HeaderMemory
import Khttpd.Analysis.MemoryBytes

/-!
# Headers that are stored as pointers

A header keeps the address of its name, and the value as a distance of 16 bits from there. The two
lengths are checked, the distance is not. Growing the buffer moves the bytes and the addresses
together, so a header that was stored right stays right.
-/

set_option autoImplicit false

namespace Khttpd

namespace InPlace

open MemoryProgram

/-! ## A growing buffer -/

/-- The last header lies in the buffer, and these are its name and its value. -/
structure Holds (s : SinkBuffer) (av : KHttpHeader) (name value : Bytes) : Prop where
  last : s.header.getLast? = some av
  reoffset : av.bufReoffset = true
  begins : s.buf ≤ av.buf
  nameIn : av.buf + av.nameLen ≤ s.buf + s.used
  valueIn : av.buf + av.valOffset + av.valLen ≤ s.buf + s.used
  name : av.name s.mem = name
  value : av.value s.mem = value

variable {s : SinkBuffer} {av : KHttpHeader} {name value : Bytes}

/-- What is received comes behind the header. -/
theorem Holds.received (h : Holds s av name value) (data : Bytes) :
    Holds (s.step (.received data)) av name value := by
  dsimp only [SinkBuffer.step]
  split
  · have hkeep : ∀ a n, a + n ≤ s.buf + s.used →
        memRead (memWrite s.mem (s.buf + s.used) data) a n = memRead s.mem a n := by
      intro a n ha
      exact memRead_memWrite_before s.mem data ha
    refine ⟨h.last, h.reoffset, h.begins, ?_, ?_, ?_, ?_⟩
    · have := h.nameIn
      dsimp only
      omega
    · have := h.valueIn
      dsimp only
      omega
    · exact (hkeep _ _ h.nameIn).trans h.name
    · exact (hkeep _ _ h.valueIn).trans h.value
  · exact h

/-- A new buffer has the same bytes, and the header points to them. -/
theorem Holds.getReadBuffer (h : Holds s av name value) (nb : ℕ) :
    ∃ av', Holds (s.getReadBuffer nb) av' name value := by
  unfold SinkBuffer.getReadBuffer
  split
  · exact ⟨av, h⟩
  · extract_lets deltaPoint
    have hbegins := h.begins
    have hmoved : (av.buf + deltaPoint).toNat = nb + (av.buf - s.buf) := by
      dsimp only [deltaPoint]
      omega
    have hcopy : ∀ a n, s.buf ≤ a → a + n ≤ s.buf + s.used →
        memRead (fun a => if nb ≤ a ∧ a < nb + s.used then s.mem (s.buf + (a - nb)) else s.mem a)
          (nb + (a - s.buf)) n = memRead s.mem a n := by
      intro a n hlow hhigh
      refine memRead_congr ?_
      intro i hi
      have hin : nb ≤ nb + (a - s.buf) + i ∧ nb + (a - s.buf) + i < nb + s.used := by omega
      have haddr : s.buf + (nb + (a - s.buf) + i - nb) = a + i := by omega
      rw [if_pos hin, haddr]
    have hnameIn := h.nameIn
    have hvalueIn := h.valueIn
    refine ⟨{ av with buf := nb + (av.buf - s.buf) }, ?_, h.reoffset, ?_, ?_, ?_, ?_, ?_⟩
    · dsimp only [adjustBufferOffset]
      rw [List.getLast?_map, h.last, Option.map_some, if_pos h.reoffset, hmoved]
    · exact Nat.le_add_right _ _
    · dsimp only
      omega
    · dsimp only
      omega
    · exact (hcopy _ _ hbegins hnameIn).trans h.name
    · have hoffset : nb + (av.buf - s.buf) + av.valOffset = nb +
        (av.buf + av.valOffset - s.buf) := by
        omega
      unfold KHttpHeader.value
      dsimp only
      rw [hoffset]
      exact (hcopy _ _ (by omega) hvalueIn).trans h.value

/-- Whatever happens to the buffer, the last header keeps its name and its value. -/
theorem Holds.run (h : Holds s av name value) (events : List BufferEvent) :
    ∃ av', Holds (s.run events) av' name value := by
  induction events generalizing s av with
  | nil => exact ⟨av, h⟩
  | cons e events ih =>
    cases e with
    | getReadBuffer nb =>
      obtain ⟨av', h'⟩ := h.getReadBuffer nb
      exact ih h'
    | received data => exact ih (h.received data)

/-! ## Storing a header -/

/-- The header has the parsed name and the parsed value, and goes on having their bytes whatever
happens to the buffer. -/
structure StoredExactly (s : SinkBuffer) (rs : KHttpParseResult) (av : KHttpHeader) : Prop where
  name : av.buf = rs.attr ∧ av.nameLen = rs.attrLen
  value : av.buf + av.valOffset = rs.val ∧ av.valLen = rs.valLen
  kept : ∀ events, ∃ av', (s.run events).header.getLast? = some av' ∧
    av'.name (s.run events).mem = memRead s.mem rs.attr rs.attrLen ∧
    av'.value (s.run events).mem = memRead s.mem rs.val rs.valLen

/-- A number of less than 16 bits is kept. -/
theorem toUint16_of_lt {n : ℕ} (h : n < 2 ^ 16) : toUint16 n = n := by
  unfold toUint16
  omega

/-- A header that is not rejected has its two lengths. -/
theorem addHeader_spec {attr attrLen val valLen : ℕ}
    (h : addHeader attr attrLen val valLen = some av) :
    av = ⟨attr, attrLen, toUint16 (val - attr), valLen, true⟩ := by
  unfold addHeader at h
  split at h
  · cases h
  split at h
  · cases h
  · rename_i hsize
    simp only [maxHeaderAttrValSize] at hsize
    rw [← Option.some_inj.mp h, toUint16_of_lt (by omega), toUint16_of_lt (by omega)]

/-- A line that `khttp_parse` takes gives a header in the buffer. -/
theorem parse_found (parser : KHttpParser) (m : ℕ → Byte) {start endp : ℕ} (hle : start ≤ endp) :
    FoundIn start endp (run (parse parser start endp) m).value.result := by
  cases hstarted : parser.started with
  | false => exact (khttpParse_unstarted (endp - start + 1) hstarted hle).2
  | true => exact (khttpParse_started (endp - start) hstarted hle).2

/-- The sink behind a line: the buffer as `khttp_parse` left it, and the header at the end of the
list. -/
def SinkBuffer.stored (s : SinkBuffer) (parser : KHttpParser) (av : KHttpHeader) : SinkBuffer :=
  let r := MemoryProgram.run (parse parser s.parserdHot (s.buf + s.used)) s.mem
  { s with mem := r.mem, parserdHot := r.value.start, header := s.header ++ [av] }

/-- `a: b` and the blank line behind it, in a new buffer. -/
def shortLine : SinkBuffer :=
  ⟨memoryOf [97, 58, 32, 98, 13, 10, 13, 10], 0, 8, 8192, 0, []⟩

/-- `X:`, then spaces up to `w` and there `v`, the line end and a `\r`. -/
def wideLine (w a : ℕ) : Byte :=
  if a = 0 then 88 else if a = 1 then 58 else if a < w then 32 else if a = w then 118
  else if a = w + 1 then 10 else 13

/-- A buffer with this line. -/
def wideSink (w : ℕ) : SinkBuffer := ⟨wideLine w, 0, w + 3, w + 3, 0, []⟩

/-- A loop runs over the bytes that it is to go on with. -/
theorem run_scanWhile {m : ℕ → Byte} {more : Byte → Bool} {fuel p i : ℕ} (hi : i < fuel)
    (hmore : ∀ j, j < i → m (p + j) ≠ 0 ∧ more (m (p + j)) = true)
    (hstop : ¬(m (p + i) ≠ 0 ∧ more (m (p + i)) = true)) :
    run (scanWhile more fuel p) m = ⟨p + i, m, List.range' p (i + 1)⟩ := by
  induction fuel generalizing p i with
  | zero => omega
  | succ fuel ih =>
    unfold scanWhile
    rw [run_load_bind]
    cases i with
    | zero =>
      rw [Nat.add_zero] at hstop
      rw [if_neg hstop]
      rfl
    | succ i =>
      have hshift : ∀ j, p + 1 + j = p + (j + 1) := fun j => by omega
      have hfirst : m p ≠ 0 ∧ more (m p) = true := hmore 0 (Nat.zero_lt_succ i)
      have hrest := ih (p := p + 1) (i := i) (Nat.lt_of_succ_lt_succ hi)
        (fun j hj => hshift j ▸ hmore (j + 1) (Nat.succ_lt_succ hj)) (hshift i ▸ hstop)
      rw [if_pos hfirst, hrest, hshift i]
      rfl

section

variable {w : ℕ} (hw : 2 ≤ w)

theorem wideLine_space {a : ℕ} (hlow : 2 ≤ a) (hhigh : a < w) : wideLine w a = 32 := by
  unfold wideLine
  rw [if_neg (by omega), if_neg (by omega), if_pos hhigh]

theorem wideLine_noEnd {a : ℕ} (h : a < w + 1) : wideLine w a ≠ 10 := by
  unfold wideLine
  split_ifs
  · decide
  · decide
  · decide
  · decide
  · omega
  · decide

include hw

theorem wideLine_value : wideLine w w = 118 := by
  unfold wideLine
  rw [if_neg (by omega), if_neg (by omega), if_neg (by omega), if_pos rfl]

theorem wideLine_end : wideLine w (w + 1) = 10 ∧ wideLine w (w + 1 + 1) = 13 := by
  unfold wideLine
  rw [if_neg (by omega), if_neg (by omega), if_neg (by omega), if_neg (by omega), if_pos rfl,
    if_neg (by omega), if_neg (by omega), if_neg (by omega), if_neg (by omega), if_neg (by omega)]
  exact ⟨rfl, rfl⟩

/-- The line without its line end is a header with its value far behind its name. -/
theorem run_wideHeader (parser : KHttpParser) :
    ∃ log, run (khttpParseHeader parser false 0 (w + 1)) (Function.update (wideLine w) (w + 1) 0) =
      ⟨.success ⟨0, 1, w, 1, false, false⟩,
        Function.update (Function.update (Function.update (wideLine w) (w + 1) 0) 1 0) 1 0,
          log⟩ := by
  have hkeep : ∀ a, a ≠ w + 1 → a ≠ 1 →
      Function.update (Function.update (wideLine w) (w + 1) 0) 1 0 a = wideLine w a := by
    intro a h1 h2
    rw [Function.update_of_ne h2, Function.update_of_ne h1]
  have hfound : run (memchr 0 58 (w + 1 - 0)) (Function.update (wideLine w) (w + 1) 0) =
      ⟨some (0 + 1), Function.update (wideLine w) (w + 1) 0, List.range' 0 (1 + 1)⟩ := by
    refine run_memchr_found (by omega) ?_ ?_
    · intro j hj
      obtain rfl := Nat.lt_one_iff.mp hj
      rw [Function.update_of_ne (by omega)]
      exact (by decide : (88 : Byte) ≠ 58)
    · rw [Function.update_of_ne (by omega)]
      rfl
  have hval : run (skipSpaces (w + 1 - (0 + 1)) (0 + 1 + 1))
      (Function.update (Function.update (wideLine w) (w + 1) 0) (0 + 1) 0) =
      ⟨0 + 1 + 1 + (w - 2), Function.update (Function.update (wideLine w) (w + 1) 0) (0 + 1) 0,
        List.range' (0 + 1 + 1) (w - 2 + 1)⟩ := by
    refine run_scanWhile (by omega) ?_ ?_
    · intro j hj
      rw [hkeep _ (by omega) (by omega), wideLine_space (by omega) (by omega)]
      decide
    · have hat : 0 + 1 + 1 + (w - 2) = w := by omega
      rw [hat, hkeep _ (by omega) (by omega), wideLine_value hw]
      decide
  have hname : run (findHeaderEnd (0 + 1 - 0 + 1) 0)
      (Function.update (Function.update (wideLine w) (w + 1) 0) (0 + 1) 0) =
      ⟨0 + 1, Function.update (Function.update (wideLine w) (w + 1) 0) (0 + 1) 0,
        List.range' 0 (1 + 1)⟩ := by
    refine run_scanWhile (by omega) ?_ ?_
    · intro j hj
      obtain rfl := Nat.lt_one_iff.mp hj
      rw [hkeep _ (by omega) (by omega)]
      exact ⟨(by decide : (88 : Byte) ≠ 0), rfl⟩
    · rw [Function.update_self]
      exact fun h => h.1 rfl
  have hvalue : 0 + 1 + 1 + (w - 2) = w := by omega
  have hlen : w + 1 - w = 1 := Nat.add_sub_cancel_left w 1
  unfold khttpParseHeader
  simp only [Bool.false_and, Bool.false_eq_true, if_false]
  rw [run_bind, hfound]
  dsimp only
  rw [run_store_bind, run_bind, hval]
  dsimp only
  rw [run_bind, hname]
  dsimp only
  rw [run_store_bind, run_pure, hvalue, hlen]
  exact ⟨_, rfl⟩

/-- What `khttp_parse` finds in the line, and the terminators that it leaves. -/
theorem run_wideLine :
    ∃ log, run (parse ⟨0, true, false, false⟩ 0 (w + 3)) (wideLine w) =
      ⟨⟨⟨w + 2, true, false, false⟩, w + 2, .success ⟨0, 1, w, 1, false, false⟩⟩,
        Function.update (Function.update (Function.update (wideLine w) (w + 1) 0) 1 0) 1 0,
          log⟩ := by
  have hfound : run (memchr 0 10 (w + 3 - 0)) (wideLine w) =
      ⟨some (w + 1), wideLine w, List.range' 0 (w + 1 + 1)⟩ := by
    have hat : wideLine w (0 + (w + 1)) = 10 := by
      rw [Nat.zero_add]
      exact (wideLine_end hw).1
    have h : run (memchr 0 10 (w + 3 - 0)) (wideLine w) =
        ⟨some (0 + (w + 1)), wideLine w, List.range' 0 (w + 1 + 1)⟩ := by
      apply run_memchr_found (by omega) _ hat
      intro j hj
      rw [Nat.zero_add]
      exact wideLine_noEnd hj
    rwa [Nat.zero_add] at h
  have hfold : run (foldLines 0 (w + 3) (w + 3 - (w + 1)) (w + 1)) (wideLine w) =
      ⟨some (w + 1), wideLine w, [w + 1 + 1]⟩ := by
    have hfuel : w + 3 - (w + 1) = 1 + 1 := by omega
    have hnot : ¬(wideLine w (w + 1 + 1) = 32 ∨ wideLine w (w + 1 + 1) = 9) := by
      rw [(wideLine_end hw).2]
      decide
    rw [hfuel]
    unfold foldLines
    rw [run_load_bind, if_neg hnot, run_pure]
  have hcr : run (crBefore (w + 1) (w + 1 + 1 - 0)) (wideLine w) = ⟨false, wideLine w, [w]⟩ := by
    unfold crBefore
    rw [if_pos (by omega), run_load_bind, run_pure, Nat.add_sub_cancel, wideLine_value hw]
    rfl
  obtain ⟨log, hheader⟩ := run_wideHeader hw ⟨0 + (w + 1 + 1 - 0), true, false, false⟩
  have hempty : ¬0 = w + 3 := by omega
  have hfirst : ¬(wideLine w 0 = 10 ∨ wideLine w 0 = 13) :=
    (by decide : ¬((88 : Byte) = 10 ∨ (88 : Byte) = 13))
  have hmore : ¬(w + 1 = w + 3 - 1) := by omega
  have hchecked : 0 + (w + 1 + 1 - 0) = w + 2 := by omega
  unfold parse khttpParse
  rw [if_neg hempty, run_bind, hfound]
  dsimp only
  rw [run_load_bind, if_neg hfirst, if_pos rfl, if_neg hmore, run_bind, hfold]
  dsimp only
  unfold takeLine
  dsimp only
  rw [run_bind, hcr]
  dsimp only
  rw [run_store_bind, run_bind]
  simp only [Bool.false_eq_true, if_false, Bool.not_true]
  rw [hheader, run_pure, hchecked]
  exact ⟨_, rfl⟩

end

end InPlace

end Khttpd
