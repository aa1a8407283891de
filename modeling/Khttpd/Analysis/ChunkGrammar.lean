import Khttpd.Analysis.ChunkScan

/-!
# What the engine has read

The bytes behind a state of the scan: whole chunks, and then a part of a chunk, of a size line or
of the trailers. The scan of such bytes is in that state unless it failed on the way, and every
scan that did not fail has read such bytes.
-/

set_option autoImplicit false

namespace Khttpd

/-! ## Numbers

The engine multiplies in 32 bits and checks the range afterwards, so a number can wrap below the
limit. It is refused where the top digit of the word is more than 1 on the way, that is, where one
of the digits before the last seven is.
-/

/-- One more digit of a number. -/
def hexStep (value : ℕ) (ch : Byte) : ℕ := value * 16 + (hexDigit ch).getD 0

/-- The low 32 bits of a number are too long for a chunk. -/
def Overlong (value : ℕ) : Prop := maxChunkSize.toNat < value % 2 ^ 32

/-- The digits of a number, with one more. -/
theorem hexValue_concat (digits : Bytes) (ch : Byte) :
    hexValue (digits ++ [ch]) = hexStep (hexValue digits) ch := List.foldl_concat ..

/-- A digit before the last seven is more than 1. -/
def Wide (digits : Bytes) : Prop :=
  ∃ ch ∈ digits.take (digits.length - 7), 1 < (hexDigit ch).getD 0

instance (digits : Bytes) : Decidable (Wide digits) := inferInstanceAs (Decidable (∃ ch ∈ _, _))

/-- The value of digits behind others. -/
theorem hexValue_append (digits more : Bytes) :
    hexValue (digits ++ more) = hexValue digits * 16 ^ more.length + hexValue more := by
  induction more using List.reverseRecOn with
  | nil =>
    rw [List.append_nil, List.length_nil, Nat.pow_zero, Nat.mul_one]
    rfl
  | append_singleton more ch ih =>
    rw [← List.append_assoc, hexValue_concat, hexValue_concat, ih, List.length_append,
      List.length_singleton, Nat.pow_succ]
    unfold hexStep
    rw [Nat.add_mul, Nat.mul_assoc, Nat.add_assoc]

/-- The value of a digit. -/
theorem hexDigit_getD_lt (ch : Byte) : (hexDigit ch).getD 0 < 16 := by
  cases hdigit : hexDigit ch with
  | none => decide
  | some d => exact hexDigit_lt hdigit

/-- The value of a number of some digits. -/
theorem hexValue_lt (digits : Bytes) : hexValue digits < 16 ^ digits.length := by
  induction digits using List.reverseRecOn with
  | nil => decide
  | append_singleton digits ch ih =>
    have hdigit := hexDigit_getD_lt ch
    rw [hexValue_concat, List.length_append, List.length_singleton, Nat.pow_succ]
    unfold hexStep
    omega

/-- The engine sees the eighth digit from the right as the top one. -/
theorem overlong_iff (front : Bytes) (ch : Byte) {back : Bytes} (hback : back.length = 7) :
    Overlong (hexValue (front ++ ch :: back)) ↔ 1 < (hexDigit ch).getD 0 := by
  have hdigit := hexDigit_getD_lt ch
  have hlow := hexValue_lt back
  have hvalue : hexValue (front ++ ch :: back) =
      (hexValue front * 16 + (hexDigit ch).getD 0) * 268435456 + hexValue back := by
    have hcut : front ++ ch :: back = (front ++ [ch]) ++ back := by
      rw [List.append_assoc, List.singleton_append]
    rw [hcut, hexValue_append, hexValue_concat, hback]
    rfl
  rw [hback] at hlow
  have hmax : maxChunkSize.toNat = 536870911 := rfl
  unfold Overlong
  rw [hvalue, hmax]
  omega

/-- No number of seven digits is too long. -/
theorem not_overlong_of_length {digits : Bytes} (h : digits.length ≤ 7) :
    ¬Overlong (hexValue digits) := by
  have hlt := hexValue_lt digits
  have hpow : 16 ^ digits.length ≤ 16 ^ 7 := Nat.pow_le_pow_right (by decide) h
  have hmax : maxChunkSize.toNat = 536870911 := rfl
  unfold Overlong
  rw [hmax]
  omega

/-- Some number on the way is too long where one of the digits before the last seven is more
than 1. -/
theorem exists_overlong_iff (digits : Bytes) :
    (∃ pre, pre ≠ [] ∧ pre <+: digits ∧ Overlong (pre.foldl hexStep 0)) ↔ Wide digits := by
  constructor
  · rintro ⟨pre, -, ⟨rest, rfl⟩, hlong⟩
    have hlength : 7 < pre.length := by
      by_contra hle
      exact not_overlong_of_length (Nat.not_lt.mp hle) hlong
    obtain ⟨ch, back, hdrop⟩ : ∃ ch back, pre.drop (pre.length - 8) = ch :: back := by
      cases hdrop : pre.drop (pre.length - 8) with
      | nil =>
        have hshort := congrArg List.length hdrop
        rw [List.length_drop, List.length_nil] at hshort
        omega
      | cons ch back => exact ⟨ch, back, rfl⟩
    have hcut : pre = pre.take (pre.length - 8) ++ ch :: back := by
      rw [← hdrop, List.take_append_drop]
    have hback : back.length = 7 := by
      have hshort := congrArg List.length hdrop
      rw [List.length_drop, List.length_cons] at hshort
      omega
    have hlong' : Overlong (hexValue pre) := hlong
    rw [hcut, overlong_iff _ _ hback] at hlong'
    refine ⟨ch, ?_, hlong'⟩
    generalize pre.take (pre.length - 8) = front at hcut
    have hcount : (pre ++ rest).length - 7 = (front ++ [ch]).length + rest.length := by
      rw [hcut]
      simp only [List.length_append, List.length_cons, List.length_nil, hback]
      omega
    have hshape : pre ++ rest = (front ++ [ch]) ++ (back ++ rest) := by
      rw [hcut]
      simp only [List.append_assoc, List.cons_append, List.nil_append]
    rw [hcount, hshape, List.take_append]
    apply List.mem_append_left
    rw [List.take_of_length_le (Nat.le_add_right _ _)]
    exact List.mem_append_right _ List.mem_cons_self
  · rintro ⟨ch, hmem, hdigit⟩
    obtain ⟨front, middle, hfront⟩ := List.append_of_mem hmem
    have hcut : digits = front ++ ch :: (middle ++ digits.drop (digits.length - 7)) := by
      calc digits = digits.take (digits.length - 7) ++ digits.drop (digits.length - 7) :=
            (List.take_append_drop _ _).symm
        _ = _ := by rw [hfront, List.append_assoc, List.cons_append]
    have hmore : 7 ≤ (middle ++ digits.drop (digits.length - 7)).length := by
      have hcount := congrArg List.length hfront
      rw [List.length_take, List.length_append, List.length_cons] at hcount
      rw [List.length_append, List.length_drop]
      omega
    generalize middle ++ digits.drop (digits.length - 7) = back at hcut hmore
    have hseven : (back.take 7).length = 7 := by
      rw [List.length_take]
      omega
    refine ⟨front ++ ch :: back.take 7, ?_, ?_, (overlong_iff front ch hseven).mpr hdigit⟩
    · exact List.append_ne_nil_of_right_ne_nil _ (List.cons_ne_nil _ _)
    · rw [hcut]
      exact (List.prefix_append_right_inj _).mpr
        (List.cons_prefix_cons.mpr ⟨rfl, List.take_prefix _ _⟩)

/-- A number that is refused is above the limit. -/
theorem Wide.lt {digits : Bytes} (h : Wide digits) : maxChunkSize.toNat < hexValue digits := by
  obtain ⟨pre, -, ⟨rest, hrest⟩, hlong⟩ := (exists_overlong_iff digits).mpr h
  calc maxChunkSize.toNat < hexValue pre % 2 ^ 32 := hlong
    _ ≤ hexValue pre := Nat.mod_le _ _
    _ ≤ hexValue pre * 16 ^ rest.length := Nat.le_mul_of_pos_right _ (Nat.pow_pos (by decide))
    _ ≤ hexValue (pre ++ rest) := by
        rw [hexValue_append]
        exact Nat.le_add_right _ _
    _ = hexValue digits := by rw [hrest]

/-- One more digit of a number that is not refused. -/
theorem not_wide_concat {digits : Bytes} (h : ¬Wide digits) {ch : Byte}
    (hfit : ¬Overlong (hexValue (digits ++ [ch]))) : ¬Wide (digits ++ [ch]) := by
  intro hwide
  obtain ⟨pre, hne, hpre, hlong⟩ := (exists_overlong_iff _).mpr hwide
  rcases List.prefix_concat_iff.mp hpre with rfl | hpre
  · exact hfit hlong
  · exact h ((exists_overlong_iff _).mp ⟨pre, hne, hpre, hlong⟩)

/-! ## Lines -/

/-- A size line up to its newline. -/
def SizeLine.line (l : SizeLine) : Bytes := l.digits ++ l.ext ++ [10]

/-- A line that does not start with a digit, without its newline. -/
structure NoDigits (ext : Bytes) : Prop where
  newline : 10 ∉ ext
  head : ∀ ch ∈ ext.head?, hexDigit ch = none

/-- A line that is read as a size line, with its value if it starts with a digit. -/
inductive HeadLine : Option ℕ → Bytes → Prop
  | digits (l : SizeLine) (hnarrow : ¬Wide l.digits) :
    HeadLine (some (hexValue l.digits)) l.line
  | bare {ext : Bytes} (h : NoDigits ext) : HeadLine none (ext ++ [10])

/-- Lines with their newlines. -/
def joinLines (lines : List Bytes) : Bytes := lines.flatMap fun line => line ++ [10]

/-- A trailer line that the engine hands over: more than one byte is left by the trim. -/
structure LongLine (line : Bytes) : Prop where
  newline : 10 ∉ line
  long : 1 < (visible line).length

/-- Whole chunks, as the engine reads them, and their bytes. A size line that it does not refuse
counts with the low 32 bits of its value. -/
inductive Framed : Bytes → Bytes → Prop
  | nil : Framed [] []
  | chunk {before payload : Bytes} (h : Framed before payload) (l : SizeLine)
      (hnarrow : ¬Wide l.digits) (data skip : Bytes) (hne : data ≠ [])
        (hlength : data.length = hexValue l.digits % 2 ^ 32) (hskip : 10 ∉ skip) :
      Framed (before ++ (l.line ++ data ++ (skip ++ [10]))) (payload ++ data)

/-! ## The scan of a line -/

namespace ChunkScan

/-- A digit. -/
theorem step_digit {s : ChunkScan} {value : ℕ}
    (hsize : s.state = .size value ∨ s.state = .start ∧ value = 0)
    {ch : Byte} (hhex : (hexDigit ch).isSome) :
    s.step ch = s.setState (.digit (hexStep value ch)) := by
  obtain ⟨d, hdigit⟩ := Option.isSome_iff_exists.mp hhex
  have hvalue : hexStep value ch = value * 16 + d := by
    rw [hexStep, hdigit, Option.getD_some]
  rw [hvalue]
  rcases hsize with hsize | ⟨hsize, hzero⟩
  · rw [step_size (by rw [hsize]; trivial), hsize, ScanState.next, hdigit]
  · rw [step_size (by rw [hsize]; trivial), hsize, ScanState.next, hdigit, hzero]

/-- The digits of a size line: either no number on the way is too long, or the scan fails. -/
theorem run_digits {s : ChunkScan} {value : ℕ}
    (hsize : s.state = .size value ∨ s.state = .start ∧ value = 0) {digits : Bytes}
    (hne : digits ≠ []) (hhex : ∀ ch ∈ digits, (hexDigit ch).isSome) :
    (∀ pre, pre ≠ [] → pre <+: digits → ¬Overlong (pre.foldl hexStep value)) ∧
        s.run digits = s.setState (.size (digits.foldl hexStep value)) ∨
    (∃ pre, pre ≠ [] ∧ pre <+: digits ∧ Overlong (pre.foldl hexStep value)) ∧
        s.run digits = s.setState .failed := by
  induction digits generalizing s value with
  | nil => exact absurd rfl hne
  | cons ch digits ih =>
    have hstep := step_digit hsize (hhex ch List.mem_cons_self)
    rw [run_cons, hstep]
    by_cases hover : Overlong (hexStep value ch)
    · right
      have hstate : ScanState.digit (hexStep value ch) = .failed := if_pos hover
      refine ⟨⟨[ch], List.cons_ne_nil _ _, ⟨digits, rfl⟩, hover⟩, ?_⟩
      rw [hstate, run_failed rfl]
    · have hstate : ScanState.digit (hexStep value ch) = .size (hexStep value ch) := if_neg hover
      rw [hstate]
      have hfirst : ∀ {pre : Bytes}, pre ≠ [] → pre <+: ch :: digits →
          pre = [ch] ∨ ∃ pre', pre = ch :: pre' ∧ pre' ≠ [] ∧ pre' <+: digits := by
        intro pre hsome hpre
        cases pre with
        | nil => exact absurd rfl hsome
        | cons ch' pre =>
          obtain ⟨rfl, hrest⟩ := List.cons_prefix_cons.mp hpre
          by_cases hnil : pre = []
          · left
            rw [hnil]
          · exact Or.inr ⟨pre, rfl, hnil, hrest⟩
      by_cases hdigits : digits = []
      · left
        subst hdigits
        refine ⟨fun pre hsome hpre => ?_, rfl⟩
        rcases hfirst hsome hpre with rfl | ⟨pre', -, hne', hpre'⟩
        · exact hover
        · exact absurd (List.prefix_nil.mp hpre') hne'
      · have hrest := ih (s := s.setState (.size (hexStep value ch))) (Or.inl rfl) hdigits
          fun ch' hch' => hhex ch' (List.mem_cons_of_mem _ hch')
        rcases hrest with ⟨hfit, hrun⟩ | ⟨⟨pre, -, hpre, hlong⟩, hrun⟩
        · left
          refine ⟨fun pre hsome hpre => ?_, hrun⟩
          rcases hfirst hsome hpre with rfl | ⟨pre', rfl, hne', hpre'⟩
          · exact hover
          · exact hfit pre' hne' hpre'
        · exact Or.inr ⟨⟨ch :: pre, List.cons_ne_nil _ _,
            List.cons_prefix_cons.mpr ⟨rfl, hpre⟩, hlong⟩, hrun⟩

/-- The rest of a line, behind its digits. -/
theorem run_lineEnd {s : ChunkScan} {value : Option ℕ}
    (hfirst : ∀ {ch : Byte}, hexDigit ch = none →
      s.step ch = s.setState (if ch = 10 then .sizeEnd value else .ext value)) {ext : Bytes}
    (hext : NoDigits ext) : s.run (ext ++ [10]) = s.setState (.sizeEnd value) := by
  have hline := hext.newline
  have hhead := hext.head
  cases ext with
  | nil =>
    rw [List.nil_append, run_cons, run_nil, hfirst (by decide), if_pos rfl]
  | cons ch ext =>
    have hne : ch ≠ 10 := fun hch => hline (hch ▸ List.mem_cons_self)
    rw [List.cons_append, run_cons, hfirst (hhead ch rfl), if_neg hne, run_append,
      run_ext rfl fun hmem => hline (List.mem_cons_of_mem _ hmem), run_cons, run_nil,
      step_size (s := s.setState (.ext value)) trivial]
    rfl

/-- A size line. -/
theorem run_line {s : ChunkScan} (h : s.state = .start) (l : SizeLine) :
    ¬Wide l.digits ∧ s.run l.line = s.setState (.sizeEnd (some (hexValue l.digits))) ∨
      Wide l.digits ∧ s.run l.line = s.setState .failed := by
  have hext : NoDigits l.ext := ⟨l.ext_line, l.ext_head⟩
  have hwide := exists_overlong_iff l.digits
  rw [SizeLine.line, List.append_assoc, run_append]
  rcases run_digits (Or.inr ⟨h, rfl⟩) l.digits_ne l.digits_hex with ⟨hfit, hrun⟩ | ⟨hlong, hrun⟩
  · left
    refine ⟨fun hw => ?_, ?_⟩
    · obtain ⟨pre, hne, hpre, hover⟩ := hwide.mpr hw
      exact hfit pre hne hpre hover
    · rw [hrun]
      refine run_lineEnd (s := s.setState (.size _)) (fun {ch} hch => ?_) hext
      rw [step_size (s := s.setState (.size _)) trivial, setState_setState]
      show s.setState (ScanState.next (.size _) ch) = _
      rw [ScanState.next, hch]
      rfl
  · right
    refine ⟨hwide.mp hlong, ?_⟩
    rw [hrun, run_failed rfl]

/-- A line that is read as a size line. -/
theorem run_head {s : ChunkScan} (h : s.state = .start) {value : Option ℕ} {head : Bytes}
    (hhead : HeadLine value head) : s.run head = s.setState (.sizeEnd value) := by
  cases hhead with
  | digits l hnarrow => exact ((run_line h l).resolve_right fun hwide => hnarrow hwide.1).2
  | bare hext =>
    refine run_lineEnd (fun {ch} hch => ?_) hext
    rw [step_size (by rw [h]; trivial), h, ScanState.next, hch]

/-- Trailer lines. -/
theorem run_trailers {s : ChunkScan} {value : Option ℕ} (h : s.state = .last value [])
    {lines : List Bytes} (hlines : ∀ line ∈ lines, LongLine line) :
    s.run (joinLines lines) = { s with trailers := s.trailers ++ lines.map visible } := by
  induction lines generalizing s with
  | nil =>
    rw [List.map_nil, List.append_nil]
    rfl
  | cons line lines ih =>
    obtain ⟨hline, hlong⟩ := hlines line List.mem_cons_self
    have hjoin : joinLines (line :: lines) = (line ++ [10]) ++ joinLines lines := List.flatMap_cons
    rw [hjoin, run_append, run_trailer h hline hlong,
      ih (s := { s with trailers := s.trailers ++ [visible line] }) h
        fun line' hline' => hlines line' (List.mem_cons_of_mem _ hline'), List.append_assoc]
    rfl

/-- Whole chunks. -/
theorem run_framed {before payload : Bytes} (h : Framed before payload) :
    init.run before = ⟨.start, payload, []⟩ := by
  induction h with
  | nil => rfl
  | @chunk before payload _ l hnarrow data skip hne hlength hskip ih =>
    have hpos := List.length_pos_iff.mpr hne
    have hlow : lowValue (some (hexValue l.digits)) = data.length := hlength.symm
    have hstate : ScanState.sizeEnd (some (hexValue l.digits)) = .data data.length := by
      rw [ScanState.sizeEnd, hlow, if_neg (Nat.ne_of_gt hpos)]
    have hafter : afterData data.length data.length = .dataEnd := if_pos rfl
    rw [run_append, ih, run_append, run_append _ l.line data, run_head rfl (.digits l hnarrow),
      hstate, run_data rfl hne (Nat.le_refl _), hafter, run_dataEnd_line rfl hskip]
    rfl

end ChunkScan

/-! ## The bytes behind a state -/

/-- What the bytes before a state of the scan are. -/
inductive ReadAs : Bytes → ChunkScan → Prop
  | start {before payload : Bytes} (h : Framed before payload) :
      ReadAs before ⟨.start, payload, []⟩
  | size {before payload digits : Bytes} (h : Framed before payload) (hne : digits ≠ [])
      (hhex : ∀ ch ∈ digits, (hexDigit ch).isSome) (hnarrow : ¬Wide digits) :
      ReadAs (before ++ digits) ⟨.size (hexValue digits), payload, []⟩
  | ext {before payload digits ext : Bytes} (h : Framed before payload) (hne : digits ≠ [])
      (hhex : ∀ ch ∈ digits, (hexDigit ch).isSome) (hnarrow : ¬Wide digits) (hext : NoDigits ext)
      (hmore : ext ≠ []) :
      ReadAs (before ++ (digits ++ ext)) ⟨.ext (some (hexValue digits)), payload, []⟩
  | bare {before payload ext : Bytes} (h : Framed before payload) (hext : NoDigits ext)
      (hmore : ext ≠ []) : ReadAs (before ++ ext) ⟨.ext none, payload, []⟩
  | data {before payload : Bytes} (h : Framed before payload) (l : SizeLine)
      (hnarrow : ¬Wide l.digits) (data : Bytes) {left : ℕ} (hpos : 0 < left)
        (hlength : data.length + left = hexValue l.digits % 2 ^ 32) :
      ReadAs (before ++ (l.line ++ data)) ⟨.data left, payload ++ data, []⟩
  | dataEnd {before payload : Bytes} (h : Framed before payload) (l : SizeLine)
      (hnarrow : ¬Wide l.digits) (data skip : Bytes) (hne : data ≠ [])
        (hlength : data.length = hexValue l.digits % 2 ^ 32)
      (hskip : 10 ∉ skip) :
      ReadAs (before ++ (l.line ++ data ++ skip)) ⟨.dataEnd, payload ++ data, []⟩
  | last {before payload head : Bytes} {value : Option ℕ} (h : Framed before payload)
      (hhead : HeadLine value head) (hzero : lowValue value = 0) {lines : List Bytes}
      (hlines : ∀ line ∈ lines, LongLine line) {line : Bytes} (hline : 10 ∉ line) :
      ReadAs (before ++ (head ++ (joinLines lines ++ line)))
        ⟨.last value line, payload, lines.map visible⟩
  | ended {before payload head : Bytes} {value : Option ℕ} (h : Framed before payload)
      (hhead : HeadLine value head) (hzero : lowValue value = 0) {lines : List Bytes}
      (hlines : ∀ line ∈ lines, LongLine line) {line : Bytes} (hline : 10 ∉ line)
      (hshort : (visible line).length ≤ 1) (rest : Bytes) :
      ReadAs (before ++ (head ++ (joinLines lines ++ (line ++ [10]))) ++ rest)
        ⟨.ended value line, payload, lines.map visible⟩

/-- The end of a size line. -/
theorem ReadAs.sizeEnd {before payload head : Bytes} {value : Option ℕ} (h : Framed before payload)
    (hhead : HeadLine value head) :
    ReadAs (before ++ head) ⟨.sizeEnd value, payload, []⟩ := by
  unfold ScanState.sizeEnd
  by_cases hzero : lowValue value = 0
  · rw [if_pos hzero]
    have hnone : ∀ line ∈ ([] : List Bytes), LongLine line := nofun
    have hnl : (10 : Byte) ∉ ([] : Bytes) := List.not_mem_nil
    have hlast := ReadAs.last h hhead hzero hnone hnl
    have hnil : head ++ (joinLines [] ++ []) = head := List.append_nil head
    rw [hnil] at hlast
    exact hlast
  · rw [if_neg hzero]
    cases hhead with
    | digits l hnarrow =>
      have hdata := ReadAs.data h l hnarrow [] (Nat.pos_of_ne_zero hzero) (Nat.zero_add _)
      rw [List.append_nil, List.append_nil] at hdata
      exact hdata
    | bare hext => exact absurd rfl hzero

/-- One more byte without a digit, behind the start of a line. -/
theorem NoDigits.concat {ext : Bytes} (h : NoDigits ext) {ch : Byte} (hch : ch ≠ 10)
    (hdigit : ext = [] → hexDigit ch = none) : NoDigits (ext ++ [ch]) := by
  refine ⟨fun hmem => ?_, fun ch' hch' => ?_⟩
  · rcases List.mem_append.mp hmem with hmem | hmem
    · exact h.newline hmem
    · exact hch (List.mem_singleton.mp hmem).symm
  · cases ext with
    | nil =>
      cases hch'
      exact hdigit rfl
    | cons first ext => exact h.head ch' hch'

/-- Nothing has no newline. -/
theorem newline_nil : 10 ∉ ([] : Bytes) := List.not_mem_nil

/-- Nothing starts with no digit. -/
theorem head_nil : ∀ ch ∈ ([] : Bytes).head?, hexDigit ch = none := by
  intro ch hch
  cases hch

/-- No digit yet. -/
theorem noDigits_nil : NoDigits [] := ⟨newline_nil, head_nil⟩

/-- A line without one more newline. -/
theorem not_mem_concat {line : Bytes} (h : 10 ∉ line) {ch : Byte} (hch : ch ≠ 10) :
    10 ∉ line ++ [ch] := by
  intro hmem
  rcases List.mem_append.mp hmem with hmem | hmem
  · exact h hmem
  · exact hch (List.mem_singleton.mp hmem).symm

/-- A byte behind the digits of a size line. -/
theorem ReadAs.digits {before payload digits : Bytes} (h : Framed before payload)
    (hhex : ∀ ch ∈ digits, (hexDigit ch).isSome) (hnarrow : ¬Wide digits) {ch : Byte}
      {s : ChunkScan}
    (hsize : s.state = .size (hexValue digits) ∧ digits ≠ [] ∨ s.state = .start ∧ digits = [])
    (hpayload : s.payload = payload) (htrailers : s.trailers = [])
    (hgood : (s.step ch).state ≠ .failed) : ReadAs (before ++ digits ++ [ch]) (s.step ch) := by
  obtain ⟨st, payload', trailers⟩ := s
  dsimp only at hsize hpayload htrailers
  subst hpayload htrailers
  rw [List.append_assoc]
  cases hdigit : hexDigit ch with
  | some d =>
    have hhex' : (hexDigit ch).isSome := by
      rw [hdigit]
      rfl
    have hstep : ChunkScan.step ⟨st, payload', []⟩ ch =
        ⟨.digit (hexStep (hexValue digits) ch), payload', []⟩ := by
      refine ChunkScan.step_digit ?_ hhex'
      rcases hsize with ⟨hst, -⟩ | ⟨hst, hnil⟩
      · exact Or.inl hst
      · rw [hnil]
        exact Or.inr ⟨hst, rfl⟩
    rw [hstep] at hgood ⊢
    have hfit : ¬Overlong (hexValue (digits ++ [ch])) := by
      rw [hexValue_concat]
      exact fun hover => hgood (if_pos hover)
    have hsize : ScanState.digit (hexStep (hexValue digits) ch) =
        .size (hexValue (digits ++ [ch])) := by
      rw [← hexValue_concat]
      exact if_neg hfit
    rw [hsize]
    refine .size h (List.append_ne_nil_of_right_ne_nil _ (List.cons_ne_nil _ _))
      (fun ch' hch' => ?_) (not_wide_concat hnarrow hfit)
    rcases List.mem_append.mp hch' with hch' | hch'
    · exact hhex ch' hch'
    · rw [List.mem_singleton.mp hch']
      exact hhex'
  | none =>
    rcases hsize with ⟨rfl, hne⟩ | ⟨rfl, hnil⟩
    · have hstep : ChunkScan.step ⟨.size (hexValue digits), payload', []⟩ ch =
          ⟨if ch = 10 then .sizeEnd (some (hexValue digits)) else .ext (some (hexValue digits)),
            payload', []⟩ := by
        rw [ChunkScan.step_size (s := ⟨.size _, payload', []⟩) trivial]
        show ChunkScan.setState _ (ScanState.next (.size _) ch) = _
        rw [ScanState.next, hdigit]
        rfl
      rw [hstep]
      by_cases hch : ch = 10
      · rw [if_pos hch, hch]
        have hread := ReadAs.sizeEnd h
          (.digits ⟨digits, [], hne, hhex, newline_nil, head_nil⟩ hnarrow)
        rw [SizeLine.line, List.append_nil] at hread
        exact hread
      · rw [if_neg hch]
        exact .ext h hne hhex hnarrow (noDigits_nil.concat hch fun _ => hdigit)
          (List.cons_ne_nil _ _)
    · have hstep : ChunkScan.step ⟨.start, payload', []⟩ ch =
          ⟨if ch = 10 then .sizeEnd none else .ext none, payload', []⟩ := by
        rw [ChunkScan.step_size (s := ⟨.start, payload', []⟩) trivial]
        show ChunkScan.setState _ (ScanState.next .start ch) = _
        rw [ScanState.next, hdigit]
        rfl
      rw [hstep, hnil]
      by_cases hch : ch = 10
      · rw [if_pos hch, hch]
        exact .sizeEnd h (.bare noDigits_nil)
      · rw [if_neg hch]
        exact .bare h (noDigits_nil.concat hch fun _ => hdigit) (List.cons_ne_nil _ _)

/-- A byte behind the first byte of an extension. -/
theorem ReadAs.extension {before payload text ext : Bytes} {value : Option ℕ} {ch : Byte}
    (hline : ch = 10 → ReadAs (before ++ (text ++ (ext ++ [10]))) ⟨.sizeEnd value, payload, []⟩)
    (hext : ch ≠ 10 → ReadAs (before ++ (text ++ (ext ++ [ch]))) ⟨.ext value, payload, []⟩) :
    ReadAs (before ++ (text ++ ext) ++ [ch]) (ChunkScan.step ⟨.ext value, payload, []⟩ ch) := by
  have hstep : ChunkScan.step ⟨.ext value, payload, []⟩ ch =
      ⟨if ch = 10 then .sizeEnd value else .ext value, payload, []⟩ :=
    ChunkScan.step_size (s := ⟨.ext value, payload, []⟩) trivial ch
  rw [hstep, List.append_assoc, List.append_assoc]
  by_cases hch : ch = 10
  · rw [if_pos hch]
    have hread := hline hch
    rw [← hch] at hread
    exact hread
  · rw [if_neg hch]
    exact hext hch

/-- A byte of a chunk. -/
theorem ReadAs.byte {before payload : Bytes} (h : Framed before payload) (l : SizeLine)
    (hnarrow : ¬Wide l.digits) (data : Bytes) {left : ℕ} (hpos : 0 < left)
    (hlength : data.length + left = hexValue l.digits % 2 ^ 32) (ch : Byte) :
    ReadAs (before ++ (l.line ++ data) ++ [ch])
      (ChunkScan.step ⟨.data left, payload ++ data, []⟩ ch) := by
  have hstep : ChunkScan.step ⟨.data left, payload ++ data, []⟩ ch =
      ⟨if left = 1 then .dataEnd else .data (left - 1), payload ++ (data ++ [ch]), []⟩ := by
    rw [← List.append_assoc]
    rfl
  have hbytes : before ++ (l.line ++ data) ++ [ch] = before ++ (l.line ++ (data ++ [ch])) := by
    rw [List.append_assoc, List.append_assoc]
  have hmore : (data ++ [ch]).length = data.length + 1 := List.length_append
  rw [hstep, hbytes]
  by_cases hlast : left = 1
  · rw [if_pos hlast]
    have hread := ReadAs.dataEnd h l hnarrow (data ++ [ch]) []
      (List.append_ne_nil_of_right_ne_nil _ (List.cons_ne_nil _ _)) (by omega) List.not_mem_nil
    rw [List.append_nil] at hread
    exact hread
  · rw [if_neg hlast]
    exact .data h l hnarrow (data ++ [ch]) (by omega) (by omega)

/-- A byte behind the size line of the last chunk. -/
theorem ReadAs.trailer {before payload head : Bytes} {value : Option ℕ} (h : Framed before payload)
    (hhead : HeadLine value head) (hzero : lowValue value = 0) {lines : List Bytes}
    (hlines : ∀ line ∈ lines, LongLine line) {line : Bytes} (hline : 10 ∉ line) (ch : Byte) :
    ReadAs (before ++ (head ++ (joinLines lines ++ line)) ++ [ch])
      (ChunkScan.step ⟨.last value line, payload, lines.map visible⟩ ch) := by
  have hbytes : before ++ (head ++ (joinLines lines ++ line)) ++ [ch] =
      before ++ (head ++ (joinLines lines ++ (line ++ [ch]))) := by
    rw [List.append_assoc, List.append_assoc, List.append_assoc]
  have hrun : ChunkScan.step ⟨.last value line, payload, lines.map visible⟩ ch =
      ChunkScan.run ⟨.last value [], payload, lines.map visible⟩ (line ++ [ch]) := by
    rw [ChunkScan.run_append, ChunkScan.run_last rfl hline]
    rfl
  rw [hbytes, hrun]
  by_cases hch : ch = 10
  · rw [hch]
    by_cases hshort : (visible line).length ≤ 1
    · rw [ChunkScan.run_lastLine rfl hline hshort]
      have hread := ReadAs.ended h hhead hzero hlines hline hshort []
      rw [List.append_nil] at hread
      exact hread
    · have hlong := Nat.not_le.mp hshort
      rw [ChunkScan.run_trailer rfl hline hlong]
      have hall : ∀ line' ∈ lines ++ [line], LongLine line' := fun line' hline' =>
        (List.mem_append.mp hline').elim (hlines line')
          fun heq => List.mem_singleton.mp heq ▸ ⟨hline, hlong⟩
      have hnl : (10 : Byte) ∉ ([] : Bytes) := List.not_mem_nil
      have hread := ReadAs.last h hhead hzero hall hnl
      have hjoin : joinLines (lines ++ [line]) = joinLines lines ++ (line ++ [10]) := by
        rw [joinLines, List.flatMap_append, List.flatMap_singleton]
        rfl
      rw [List.append_nil, List.map_append, List.map_singleton, hjoin] at hread
      exact hread
  · have hmore := not_mem_concat hline hch
    rw [ChunkScan.run_last rfl hmore]
    exact .last h hhead hzero hlines hmore

/-- One more byte. -/
theorem ReadAs.step {bytes : Bytes} {s : ChunkScan} (h : ReadAs bytes s) {ch : Byte}
    (hgood : (s.step ch).state ≠ .failed) : ReadAs (bytes ++ [ch]) (s.step ch) := by
  cases h with
  | start h =>
    have hnone : ∀ ch ∈ ([] : Bytes), (hexDigit ch).isSome := nofun
    have hread := ReadAs.digits h hnone (by decide) (Or.inr ⟨rfl, rfl⟩) rfl rfl hgood
    rw [List.append_nil] at hread
    exact hread
  | size h hne hhex hnarrow => exact .digits h hhex hnarrow (Or.inl ⟨rfl, hne⟩) rfl rfl hgood
  | @ext before payload digits ext h hne hhex hnarrow hext hmore =>
    refine .extension (fun _ => ?_) fun hch => ?_
    · have hread := ReadAs.sizeEnd h
        (.digits ⟨digits, ext, hne, hhex, hext.newline, hext.head⟩ hnarrow)
      rw [SizeLine.line, List.append_assoc] at hread
      exact hread
    · exact .ext h hne hhex hnarrow (hext.concat hch fun hnil => absurd hnil hmore)
        (List.append_ne_nil_of_right_ne_nil _ (List.cons_ne_nil _ _))
  | @bare before payload ext h hext hmore =>
    refine @ReadAs.extension before _ [] ext none ch
      (fun _ => .sizeEnd h (.bare hext)) fun hch => ?_
    exact .bare h (hext.concat hch fun hnil => absurd hnil hmore)
      (List.append_ne_nil_of_right_ne_nil ext (List.cons_ne_nil ch []))
  | data h l hnarrow data hpos hlength => exact .byte h l hnarrow data hpos hlength ch
  | @dataEnd before payload h l hnarrow data skip hne hlength hskip =>
    have hstep : ChunkScan.step ⟨.dataEnd, payload ++ data, []⟩ ch =
        ⟨if ch = 10 then .start else .dataEnd, payload ++ data, []⟩ := by
      rw [ChunkScan.step_setState rfl rfl]
      rfl
    have hbytes : before ++ (l.line ++ data ++ skip) ++ [ch] =
        before ++ (l.line ++ data ++ (skip ++ [ch])) := by
      rw [List.append_assoc, List.append_assoc]
    rw [hstep, hbytes]
    by_cases hch : ch = 10
    · rw [if_pos hch, hch]
      exact .start (.chunk h l hnarrow data skip hne hlength hskip)
    · rw [if_neg hch]
      exact .dataEnd h l hnarrow data (skip ++ [ch]) hne hlength (not_mem_concat hskip hch)
  | last h hhead hzero hlines hline => exact .trailer h hhead hzero hlines hline ch
  | @ended before payload head value h hhead hzero lines hlines line hline hshort rest =>
    have hstep : ChunkScan.step ⟨.ended value line, payload, lines.map visible⟩ ch =
        ⟨.ended value line, payload, lines.map visible⟩ := by
      rw [ChunkScan.step_setState rfl rfl]
      rfl
    rw [hstep, List.append_assoc _ rest]
    exact .ended h hhead hzero hlines hline hshort (rest ++ [ch])

/-- Every scan that did not fail has read what its state says. -/
theorem ChunkScan.readAs {bytes : Bytes} (hgood : (init.run bytes).state ≠ .failed) :
    ReadAs bytes (init.run bytes) := by
  induction bytes using List.reverseRecOn with
  | nil => exact .start .nil
  | append_singleton bytes ch ih =>
    have hbefore : (init.run bytes).state ≠ .failed := by
      intro hfailed
      apply hgood
      rw [run_append, run_failed hfailed]
      exact hfailed
    have hrun : init.run (bytes ++ [ch]) = (init.run bytes).step ch := run_append _ _ _
    rw [hrun] at hgood ⊢
    exact (ih hbefore).step hgood

namespace DechunkFeed

/-- The scan of what calls took did not fail. -/
theorem Scanned.ne_failed {f : DechunkFeed} (hf : f.Scanned) : f.scan.state ≠ .failed := by
  intro hfailed
  rcases hf.state with ⟨-, hfits, -⟩ | ⟨-, -, hsize, -⟩
  · rw [hfailed] at hfits
    exact hfits
  · rw [hfailed] at hsize
    exact hsize

/-- The scan of what calls took behind whole chunks. -/
theorem scan_behind {f : DechunkFeed} {before payload bytes : Bytes}
    (hframed : Framed before payload) (htaken : f.taken = before ++ bytes) :
    f.scan = ChunkScan.run ⟨.start, payload, []⟩ bytes := by
  unfold scan
  rw [htaken, ChunkScan.run_append, ChunkScan.run_framed hframed]

end DechunkFeed

end Khttpd
