import Khttpd.Analysis.AtHand

/-!
# The parser stays within its buffer

A handler gets the bytes from `pos` to `end`. `moved` says how far it moves `pos`, and `lengthUsed`
how much it takes off `state.length`, both as the arithmetic of the source has them. No handler
moves `pos` behind `end` or takes more off the length than is left, `state_save` always finds room,
and none of the closes of the parser is one for an internal error.
-/

set_option autoImplicit false

namespace Khttpd

/-- The octets that `parse_int` takes. -/
def IntResult.octets : IntResult → ℕ
  | .value _ used => used
  | _ => 0

namespace KHttp2

/-! ## The arithmetic of the handlers -/

/-- The padding that `handle_continuation` drops, with `n` bytes from `pos` to `end`. -/
def paddingSkip (s : KHttp2) (n : ℕ) : ℕ :=
  if s.state.padding ≠ 0 ∧ n > s.state.length then min s.state.padding (n - s.state.length) else 0

/-- How far `handle_continuation` moves `pos`: over padding and the header of the next frame. -/
def continuationMoved (s : KHttp2) (n : ℕ) : ℕ := s.paddingSkip n + frameHeaderSize

/-- The bytes of a HEADERS frame before its header block. -/
def headersSize (s : KHttp2) : ℕ :=
  (if hasFlag s.state.flags paddedFlag then 1 else 0) +
    (if hasFlag s.state.flags priorityFlag then 5 else 0)

/-- The header block goes on in a CONTINUATION frame before its next integer is complete. -/
def intContinues (s : KHttp2) : Bool :=
  !hasFlag s.state.flags endHeadersFlag && s.state.length < intOctets

/-- How far a `state_field_*` handler moves `pos`. -/
def fieldMoved (s : KHttp2) (p : Bytes) : ℕ :=
  let size := s.fieldSize p
  if s.state.fieldRest = size then size
  else size + (s.fieldTake size).continuationMoved (p.length - size)

/-- How far a handler that goes on moves `pos`. -/
def moved (h : Handler) (s : KHttp2) (p : Bytes) : ℕ :=
  match h with
  | .statePreface => prefaceStart.length
  | .statePrefaceEnd => prefaceEnd.length
  | .stateHead => frameHeaderSize
  | .stateData => if hasFlag s.state.flags paddedFlag then 1 else 0
  | .stateReadData => if s.state.stream.isNone then 0 else min p.length s.state.length
  | .stateHeaders => s.headersSize
  | .stateHeaderBlock =>
    if s.intContinues then s.continuationMoved p.length
    else (parseInt s.state.length p (fieldPrefix (p.getD 0 0))).octets
  | .stateHeaderComplete =>
    if s.state.length = 0 ∧ !hasFlag s.state.flags endHeadersFlag then s.continuationMoved p.length
    else 0
  | .stateFieldLen =>
    if s.intContinues then s.continuationMoved p.length
    else (parseInt s.state.length p 127).octets
  | .stateFieldHuff | .stateFieldRaw | .stateFieldSkip => s.fieldMoved p
  | .statePriority => 5
  | .stateRstStream | .stateWindowUpdate => 4
  | .stateSettingsParams => if s.state.length = 0 then 0 else 6
  | .statePing => if hasFlag s.state.flags ackFlag then 0 else 8
  | .stateSkip => s.state.length
  | .stateProcessHeader | .stateSettings | .statePushPromise | .stateGoaway | .stateContinuation
  | .stateAltsvc | .stateComplete => 0

/-- What a handler takes off `state.length`, one amount for each subtraction that it makes. -/
def lengthUsed (h : Handler) (s : KHttp2) (p : Bytes) : List ℕ :=
  let padding := (p.getD 0 0).toNat
  match h with
  | .stateData =>
    if hasFlag s.state.flags paddedFlag && s.state.length ≠ 0 && p ≠ [] then
      if padding > s.state.length - 1 then [1] else [1, padding]
    else []
  | .stateReadData => if s.state.stream.isNone then [] else [min p.length s.state.length]
  | .stateHeaders =>
    if s.headersSize < s.state.length && s.headersSize ≤ p.length then
      if hasFlag s.state.flags paddedFlag && padding ≤ s.state.length - s.headersSize then
        [s.headersSize, padding]
      else [s.headersSize]
    else []
  | .stateHeaderBlock =>
    if s.intContinues then [] else [(parseInt s.state.length p (fieldPrefix (p.getD 0 0))).octets]
  | .stateFieldLen =>
    if s.intContinues then [] else [(parseInt s.state.length p 127).octets]
  | .stateFieldHuff | .stateFieldRaw | .stateFieldSkip => [s.fieldSize p]
  | .stateSettingsParams => if s.state.length ≠ 0 && 6 ≤ p.length then [6] else []
  | .stateSkip => if p.length < s.state.length then [p.length] else []
  | _ => []

end KHttp2

/-! ## What a call keeps to -/

/-- A call of a handler moves `pos` by `moved`, not behind `end`; what it saves fits the buffer; and
it closes the connection for other errors than internal ones. -/
structure InBounds (moved : ℕ) (p : Bytes) (r : KHttp2 × Ret) : Prop where
  moves : ∀ h rest, r.2.GoesOn h rest → moved + rest.length = p.length
  saves : ∀ h kept, r.2 = .save h kept → kept.length ≤ stateBufferSize
  closes : r.2 = .null → ∃ t status, status ≠ internalError ∧ r = KHttp2.fail t status

namespace InBounds

variable {s : KHttp2} {moved : ℕ} {p q : Bytes} {h : Handler}

theorem pos (hq : moved + q.length = p.length) : InBounds moved p (s, .pos h q) where
  moves _ _ hout := by
    rcases hout with hout | hout
    · cases hout
      exact hq
    · cases hout
  saves _ _ hout := by cases hout
  closes hout := by cases hout

theorem jump (hq : moved + q.length = p.length) : InBounds moved p (s, .jump h q) where
  moves _ _ hout := by
    rcases hout with hout | hout
    · cases hout
    · cases hout
      exact hq
  saves _ _ hout := by cases hout
  closes hout := by cases hout

theorem fail {status : ℕ} (hstatus : status ≠ internalError) :
    InBounds moved p (s.fail status) where
  moves _ _ hout := by rcases hout with hout | hout <;> cases hout
  saves _ _ hout := by cases hout
  closes _ := ⟨s, status, hstatus, rfl⟩

/-- `state_save` with few bytes. -/
theorem save (hq : q.length ≤ stateBufferSize) : InBounds moved p (s.stateSave q h) := by
  unfold KHttp2.stateSave
  rw [if_neg (not_lt.mpr hq)]
  refine ⟨fun _ _ hout => ?_, fun _ _ hout => ?_, fun hout => ?_⟩
  · rcases hout with hout | hout <;> cases hout
  · cases hout
    exact hq
  · cases hout

end InBounds

/-! ## Integers -/

theorem parseIntLoop_used {p : Bytes} {shift value used n k : ℕ}
    (h : parseIntLoop p shift value used = some (n, k)) : used < k ∧ k ≤ used + p.length := by
  induction p generalizing shift value used with
  | nil => cases h
  | cons octet p ih =>
    unfold parseIntLoop at h
    dsimp only at h
    split at h
    · cases h
      simp
    · obtain ⟨hlt, hle⟩ := ih h
      rw [List.length_cons]
      omega

/-- An integer is taken from bytes that are there and from the length that is left. -/
theorem parseInt_octets {length : ℕ} {p : Bytes} {pfx n used : ℕ}
    (h : parseInt length p pfx = .value n used) : used ≤ length ∧ used ≤ p.length ∧ 0 < used := by
  unfold parseInt at h
  split at h
  · cases h
  · rename_i first rest
    dsimp only at h
    split at h
    · split at h
      · cases h
      · cases h
        rw [List.length_cons]
        omega
    · split at h
      · rename_i value' used' hloop
        obtain ⟨hlt, hle⟩ := parseIntLoop_used hloop
        rw [List.length_take] at hle
        split at h
        · cases h
        · cases h
          rw [List.length_cons]
          omega
      · split at h
        · cases h
        · split at h <;> cases h

/-- More bytes are awaited only while an integer could still be complete with four octets, and
while the block has more of them. -/
theorem parseInt_again {length : ℕ} {p : Bytes} {pfx : ℕ} (h : parseInt length p pfx = .again) :
    p.length < intOctets ∧ (p ≠ [] → p.length < length) := by
  unfold parseInt at h
  split at h
  · exact ⟨by decide, fun hne => absurd rfl hne⟩
  · dsimp only at h
    split at h
    · split at h <;> cases h
    · split at h
      · split at h <;> cases h
      · split at h
        · cases h
        · split at h
          · cases h
          · omega

theorem octets_le (length : ℕ) (p : Bytes) (pfx : ℕ) :
    (parseInt length p pfx).octets ≤ length := by
  cases h : parseInt length p pfx with
  | value n used => exact (parseInt_octets h).1
  | again => exact Nat.zero_le _
  | declined => exact Nat.zero_le _
  | error => exact Nat.zero_le _

namespace KHttp2

/-! ## The handlers -/

theorem inBounds_endFrame {s : KHttp2} {moved : ℕ} {p q : Bytes} (hq : moved + q.length = p.length) :
    InBounds moved p (s.endFrame q) := by
  unfold endFrame
  split
  · exact .jump hq
  · exact .jump hq

/-- `handle_continuation` when few bytes of the block are left. -/
theorem inBounds_handleContinuation {s : KHttp2} {k : ℕ} {p q : Bytes} {h : Handler}
    (hq : k + q.length = p.length) (hlength : s.state.length < intOctets) :
    InBounds (k + s.continuationMoved q.length) p (s.handleContinuation q h) := by
  unfold handleContinuation
  extract_lets len skip s1 p1 head s2
  have hmoved : s.continuationMoved q.length = skip + frameHeaderSize := rfl
  have hp1 : p1.length = min len q.length + (q.length - (len + skip)) := by
    simp only [p1, List.length_append, List.length_take, List.length_drop]
  have hlen : len < intOctets := hlength
  rw [hmoved]
  simp only [intOctets] at hlen
  split
  · rename_i hshort
    refine .save ?_
    simp only [stateBufferSize, frameHeaderSize] at *
    omega
  · rename_i hfull
    split
    · exact .fail (by decide)
    · split
      · exact .fail (by decide)
      · refine .pos ?_
        simp only [List.length_append, List.length_take, List.length_drop, hp1]
        simp only [frameHeaderSize] at *
        omega

theorem inBounds_fieldNext {s : KHttp2} {p : Bytes} (h : Handler) {t : KHttp2}
    (hlength : t.state.length = (s.fieldTake (s.fieldSize p)).state.length)
    (hrest : t.state.fieldRest = (s.fieldTake (s.fieldSize p)).state.fieldRest)
    (hpadding : t.state.padding = s.state.padding) :
    InBounds (s.fieldMoved p) p (t.fieldNext (p.drop (s.fieldSize p)) h) := by
  have hsize : s.fieldSize p = min (min p.length s.state.fieldRest) s.state.length := rfl
  have hdrop : s.fieldSize p + (p.drop (s.fieldSize p)).length = p.length := by
    rw [List.length_drop]
    omega
  have hmoved : (s.fieldTake (s.fieldSize p)).continuationMoved (p.length - s.fieldSize p) =
      t.continuationMoved (p.drop (s.fieldSize p)).length := by
    unfold continuationMoved paddingSkip
    rw [List.length_drop, hlength, hpadding]
    rfl
  have hleft : t.state.length = s.state.length - s.fieldSize p := hlength
  have hrestLeft : t.state.fieldRest = s.state.fieldRest - s.fieldSize p := hrest
  unfold fieldNext fieldMoved
  dsimp only
  by_cases hdone : t.state.fieldRest = 0
  · rw [if_pos hdone, if_pos (by omega)]
    exact .jump hdrop
  · rw [if_neg hdone, if_neg (by omega)]
    split
    · -- the input is used up
      refine .save ?_
      have hnil : (p.drop (s.fieldSize p)).length = 0 := by
        rw [List.length_drop]
        omega
      rw [hnil]
      exact Nat.zero_le _
    · rename_i hempty
      split
      · exact .fail (by decide)
      · rw [hmoved]
        refine inBounds_handleContinuation hdrop ?_
        have hzero : t.state.length = 0 := not_not.mp hempty
        rw [hzero]
        decide

theorem inBounds_headersStream {s : KHttp2} (depend : ℕ) {moved : ℕ} {p q : Bytes}
    (hq : moved + q.length = p.length) : InBounds moved p (s.headersStream depend q) := by
  have hstream : ∀ (t : KHttp2) (c : CtxId), InBounds moved p (t.headersForStream c q) := by
    intro t c
    unfold headersForStream
    extract_lets s1 s2 fin
    split
    · exact .jump hq
    · exact .jump hq
  unfold headersStream
  extract_lets sid s1
  split
  · split
    · exact .jump hq
    · exact hstream _ _
  · split
    · exact .fail (by decide)
    · split
      · exact .jump hq
      · split
        · exact .jump hq
        · split
          · exact hstream _ _
          · exact .jump hq

theorem length_drop_add {n : ℕ} {p : Bytes} (h : ¬p.length < n) :
    n + (p.drop n).length = p.length := by
  rw [List.length_drop]
  omega

theorem inBounds_stateHeaders (s : KHttp2) (p : Bytes) :
    InBounds (moved .stateHeaders s p) p (s.stateHeaders p) := by
  unfold stateHeaders
  extract_lets s1 padded priority size s2 s3 s4 depend
  have hsize : moved .stateHeaders s p = size := rfl
  have hsmall : size ≤ 6 := by
    dsimp only [size]
    split <;> split <;> omega
  rw [hsize]
  split
  · exact .fail (by decide)
  · split
    · exact .fail (by decide)
    · split
      · refine .save ?_
        simp only [stateBufferSize]
        omega
      · split
        · exact .fail (by decide)
        · exact inBounds_headersStream _ (length_drop_add ‹_›)

theorem inBounds_stateHeaderBlock (s : KHttp2) (p : Bytes) :
    InBounds (moved .stateHeaderBlock s p) p (s.stateHeaderBlock p) := by
  unfold stateHeaderBlock
  split
  · exact .save (Nat.zero_le _)
  · rename_i ch rest
    extract_lets s1
    have hlength : s1.state.length = s.state.length := by
      dsimp only [s1]
      split <;> rfl
    by_cases hcont : (!hasFlag s.state.flags endHeadersFlag && s.state.length < intOctets) = true
    · have hshort := of_decide_eq_true (Bool.and_eq_true_iff.mp hcont).2
      have hmoved : moved .stateHeaderBlock s (ch :: rest) =
          0 + s.continuationMoved (ch :: rest).length := (if_pos hcont).trans (Nat.zero_add _).symm
      rw [if_pos hcont, hmoved]
      exact inBounds_handleContinuation (Nat.zero_add _) hshort
    · have hmoved : moved .stateHeaderBlock s (ch :: rest) =
          (parseInt s.state.length (ch :: rest) (fieldPrefix ch)).octets := if_neg hcont
      rw [if_neg hcont, hmoved, hlength]
      split
      · rename_i hint
        refine .save ?_
        have hshort := (parseInt_again hint).1
        simp only [stateBufferSize, intOctets] at *
        omega
      · exact .fail (by decide)
      · exact .fail (by decide)
      · rename_i n used hint
        have hused := length_drop_add (not_lt.mpr (parseInt_octets hint).2.1)
        extract_lets s2 p1 named
        rw [hint]
        split
        · split
          · exact .fail (by decide)
          · exact .jump hused
        · split
          · split
            · exact .fail (by decide)
            · exact .jump hused
          · cases named with
            | none => exact .fail (by decide)
            | some s3 => exact .jump hused

theorem inBounds_stateFieldLen (s : KHttp2) (p : Bytes) :
    InBounds (moved .stateFieldLen s p) p (s.stateFieldLen p) := by
  unfold stateFieldLen
  by_cases hcont : (!hasFlag s.state.flags endHeadersFlag && s.state.length < intOctets) = true
  · have hshort := of_decide_eq_true (Bool.and_eq_true_iff.mp hcont).2
    have hmoved : moved .stateFieldLen s p = 0 + s.continuationMoved p.length :=
      (if_pos hcont).trans (Nat.zero_add _).symm
    rw [if_pos hcont, hmoved]
    exact inBounds_handleContinuation (Nat.zero_add _) hshort
  · have hmoved : moved .stateFieldLen s p = (parseInt s.state.length p 127).octets :=
      if_neg hcont
    rw [if_neg hcont, hmoved]
    split
    · exact .fail (by decide)
    · split
      · exact .save (Nat.zero_le _)
      · rename_i ch rest
        split
        · rename_i hint
          refine .save ?_
          have hshort := (parseInt_again hint).1
          simp only [stateBufferSize, intOctets] at *
          omega
        · exact .fail (by decide)
        · exact .fail (by decide)
        · rename_i n used hint
          have hused := length_drop_add (not_lt.mpr (parseInt_octets hint).2.1)
          extract_lets s2 p1
          rw [hint]
          split
          · exact .jump hused
          · split
            · exact .jump hused
            · exact .jump hused

theorem inBounds_stateData (s : KHttp2) (p : Bytes) :
    InBounds (moved .stateData s p) p (s.stateData p) := by
  have hflow : ∀ (t : KHttp2) (n : ℕ) (q : Bytes), n + q.length = p.length →
      InBounds n p (t.dataFlow q) := by
    intro t n q hq
    unfold dataFlow
    split
    · exact .fail (by decide)
    · extract_lets r
      unfold dataStream
      split
      · exact .jump hq
      · split
        · exact .jump hq
        · split
          · exact .jump hq
          · extract_lets s1 r' s2
            split
            · exact .jump hq
            · exact .jump hq
  unfold stateData
  by_cases hpadded : hasFlag s.state.flags paddedFlag = true
  · have hmoved : moved .stateData s p = 1 := if_pos hpadded
    rw [if_pos hpadded, hmoved]
    split
    · exact .fail (by decide)
    · split
      · exact .save (Nat.zero_le _)
      · rename_i padding q
        extract_lets s1
        split
        · exact .fail (by decide)
        · exact hflow _ 1 q (Nat.add_comm _ _)
  · have hmoved : moved .stateData s p = 0 := if_neg hpadded
    rw [if_neg hpadded, hmoved]
    exact hflow s 0 p (Nat.zero_add _)

theorem inBounds_stateReadData (s : KHttp2) (p : Bytes) :
    InBounds (moved .stateReadData s p) p (s.stateReadData p) := by
  unfold stateReadData
  split
  · rename_i hstream
    have hmoved : moved .stateReadData s p = 0 := if_pos (by rw [hstream]; rfl)
    rw [hmoved]
    exact .jump (Nat.zero_add _)
  · rename_i c hstream
    have hmoved : moved .stateReadData s p = min p.length s.state.length :=
      if_neg (by rw [hstream]; exact Bool.false_ne_true)
    rw [hmoved]
    extract_lets size bytes s3 s1 p1 s2
    have hp1 : size + p1.length = p.length := by
      dsimp only [p1, size]
      rw [List.length_drop]
      omega
    have hlength : s1.state.length = s.state.length - size := by
      have hcalm : ∀ t : KHttp2, (t.wakeReader c false).state = t.state := fun t =>
        (t.calm_wakeReader c false).state
      dsimp only [s1]
      split
      · omega
      · have hlog : ∀ t : KHttp2, (t.logData c (p.take size)).state = t.state := by
          intro t
          unfold logData
          split
          · split <;> rfl
          · rfl
        show ((logData s3 c (p.take size)).wakeReader c false).state.length - size = _
        rw [hcalm, hlog]
        rfl
    split
    · rename_i hleft
      refine .save ?_
      have hnil : p1.length = 0 := by
        dsimp only [size] at hlength hp1
        omega
      rw [hnil]
      exact Nat.zero_le _
    · exact inBounds_endFrame hp1

/-- The arithmetic of every handler. -/
theorem inBounds_exec (codes : HuffDecodeCodes) (h : Handler) (s : KHttp2) (p : Bytes) :
    InBounds (moved h s p) p (exec codes h s p) := by
  have hnone : 0 + p.length = p.length := Nat.zero_add _
  cases h with
  | statePreface =>
    simp only [exec, statePreface, moved]
    split
    · rename_i hshort
      exact .save (Nat.lt_succ_iff.mp hshort)
    · split
      · exact .fail (by decide)
      · exact .jump (length_drop_add (by omega))
  | statePrefaceEnd =>
    simp only [exec, statePrefaceEnd, moved]
    split
    · rename_i hshort
      exact .save ((Nat.lt_succ_iff.mp hshort).trans (by decide))
    · split
      · exact .fail (by decide)
      · exact .jump (length_drop_add (by omega))
  | stateHead =>
    simp only [exec, stateHead, moved]
    split
    · rename_i hshort
      exact .save (hshort.le.trans (by decide))
    · exact .jump (length_drop_add ‹_›)
  | stateData => exact s.inBounds_stateData p
  | stateReadData => exact s.inBounds_stateReadData p
  | stateHeaders => exact s.inBounds_stateHeaders p
  | stateHeaderBlock => exact s.inBounds_stateHeaderBlock p
  | stateProcessHeader =>
    show InBounds 0 p (s.stateProcessHeader p)
    unfold stateProcessHeader
    extract_lets s1 s2 len s3
    split
    · split
      · exact .fail (by decide)
      · exact .jump hnone
    · split
      · exact .fail (by decide)
      · exact .jump hnone
  | stateHeaderComplete =>
    show InBounds (if s.state.length = 0 ∧ !hasFlag s.state.flags endHeadersFlag then
      s.continuationMoved p.length else 0) p (s.stateHeaderComplete p)
    unfold stateHeaderComplete
    by_cases hlength : s.state.length = 0
    · rw [if_neg (not_not.mpr hlength)]
      by_cases hend : (!hasFlag s.state.flags endHeadersFlag) = true
      · rw [if_pos hend, if_pos ⟨hlength, hend⟩, ← Nat.zero_add (s.continuationMoved _)]
        exact inBounds_handleContinuation hnone (by rw [hlength]; decide)
      · rw [if_neg hend, if_neg fun h => hend h.2]
        exact inBounds_endFrame hnone
    · rw [if_pos hlength, if_neg fun h => hlength h.1]
      exact .pos hnone
  | stateFieldLen => exact s.inBounds_stateFieldLen p
  | stateFieldHuff =>
    simp only [exec, stateFieldHuff]
    split
    · exact .fail (by decide)
    · exact inBounds_fieldNext _ rfl rfl rfl
  | stateFieldRaw => exact inBounds_fieldNext _ rfl rfl rfl
  | stateFieldSkip => exact inBounds_fieldNext _ rfl rfl rfl
  | statePriority =>
    simp only [exec, statePriority, moved]
    split
    · exact .fail (by decide)
    · split
      · rename_i hshort
        exact .save (hshort.le.trans (by decide))
      · split
        · exact .fail (by decide)
        · exact .jump (length_drop_add ‹_›)
  | stateRstStream =>
    simp only [exec, stateRstStream, moved]
    split
    · exact .fail (by decide)
    · split
      · rename_i hshort
        exact .save (hshort.le.trans (by decide))
      · split
        · exact .fail (by decide)
        · split <;> exact .jump (length_drop_add ‹_›)
  | stateSettings =>
    simp only [exec, stateSettings, moved]
    split
    · split
      · exact .fail (by decide)
      · exact .jump hnone
    · split
      · exact .fail (by decide)
      · exact .jump hnone
  | stateSettingsParams =>
    simp only [exec, stateSettingsParams, moved]
    split
    · exact .jump hnone
    · split
      · rename_i hshort
        exact .save (hshort.le.trans (by decide))
      · have hdrop := length_drop_add ‹¬p.length < 6›
        generalize parseUint16 p = id
        split
        · split
          · exact .fail (by decide)
          · exact .jump hdrop
        · split
          · exact .fail (by decide)
          · exact .jump hdrop
        · exact .jump hdrop
        · exact .jump hdrop
  | statePushPromise => exact .jump hnone
  | statePing =>
    show InBounds (if hasFlag s.state.flags ackFlag then 0 else 8) p (s.statePing p)
    unfold statePing
    by_cases hlength : s.state.length ≠ 8
    · rw [if_pos hlength]
      exact .fail (by decide)
    · by_cases hshort : p.length < 8
      · rw [if_neg hlength, if_pos hshort]
        exact .save (hshort.le.trans (by decide))
      · rw [if_neg hlength, if_neg hshort]
        split
        · exact .jump hnone
        · exact .jump (length_drop_add hshort)
  | stateGoaway =>
    simp only [exec, stateGoaway, moved]
    split
    · exact .fail (by decide)
    · split
      · rename_i hshort
        exact .save (hshort.le.trans (by decide))
      · exact .jump hnone
  | stateWindowUpdate =>
    simp only [exec, stateWindowUpdate, moved]
    split
    · exact .fail (by decide)
    · split
      · rename_i hshort
        exact .save (hshort.le.trans (by decide))
      · have hdrop := length_drop_add ‹¬p.length < 4›
        split
        · exact .jump hdrop
        · split
          · exact .fail (by decide)
          · exact .jump hdrop
  | stateContinuation => exact .fail (by decide)
  | stateAltsvc =>
    simp only [exec, stateAltsvc, moved]
    split
    · exact .fail (by decide)
    · split
      · rename_i hshort
        exact .save (hshort.le.trans (by decide))
      · exact .jump hnone
  | stateSkip =>
    simp only [exec, stateSkip, moved]
    split
    · exact .save (Nat.zero_le _)
    · exact .jump (length_drop_add ‹_›)
  | stateComplete => exact .pos hnone

/-! ## The loop ends -/

/-- Every handler that may follow has a lower rank. -/
def descends (h : Handler) : Bool := h.follows.all fun h' => h'.rank < h.rank

theorem rank_lt {h h' : Handler} (hlower : descends h = true) (hmem : h' ∈ h.follows) :
    h'.rank < h.rank := of_decide_eq_true (List.all_eq_true.mp hlower h' hmem)

theorem not_onward_stateSave {s : KHttp2} {p : Bytes} {h h' : Handler} {rest : Bytes}
    (hout : (s.stateSave p h).2.GoesOn h' rest) : False := by
  unfold stateSave at hout
  split at hout <;> rcases hout with hout | hout <;> cases hout

theorem moved_stateHeaderBlock {s : KHttp2} {p rest : Bytes} {h : Handler}
    (hout : (s.stateHeaderBlock p).2.GoesOn h rest) :
    0 < moved .stateHeaderBlock s p := by
  unfold stateHeaderBlock at hout
  split at hout
  · exact (not_onward_stateSave hout).elim
  · rename_i ch tail
    extract_lets s1 at hout
    have hlength : s1.state.length = s.state.length := by
      dsimp only [s1]
      split <;> rfl
    by_cases hcont : (!hasFlag s.state.flags endHeadersFlag && s.state.length < intOctets) = true
    · have hmoved : moved .stateHeaderBlock s (ch :: tail) =
          s.continuationMoved (ch :: tail).length := if_pos hcont
      rw [hmoved]
      exact Nat.succ_pos _
    · have hmoved : moved .stateHeaderBlock s (ch :: tail) =
          (parseInt s.state.length (ch :: tail) (fieldPrefix ch)).octets := if_neg hcont
      rw [if_neg hcont, hlength] at hout
      rw [hmoved]
      split at hout
      · exact (not_onward_stateSave hout).elim
      · rcases hout with hout | hout <;> cases hout
      · rcases hout with hout | hout <;> cases hout
      · rename_i n used hint
        rw [hint]
        exact (parseInt_octets hint).2.2

theorem moved_stateFieldLen {s : KHttp2} {p rest : Bytes} {h : Handler}
    (hout : (s.stateFieldLen p).2.GoesOn h rest) :
    0 < moved .stateFieldLen s p := by
  unfold stateFieldLen at hout
  by_cases hcont : (!hasFlag s.state.flags endHeadersFlag && s.state.length < intOctets) = true
  · have hmoved : moved .stateFieldLen s p = s.continuationMoved p.length := if_pos hcont
    rw [hmoved]
    exact Nat.succ_pos _
  · have hmoved : moved .stateFieldLen s p = (parseInt s.state.length p 127).octets := if_neg hcont
    rw [if_neg hcont] at hout
    rw [hmoved]
    split at hout
    · rcases hout with hout | hout <;> cases hout
    · split at hout
      · exact (not_onward_stateSave hout).elim
      · split at hout
        · exact (not_onward_stateSave hout).elim
        · rcases hout with hout | hout <;> cases hout
        · rcases hout with hout | hout <;> cases hout
        · rename_i n used hint
          rw [hint]
          exact (parseInt_octets hint).2.2

/-- A `state_field_*` handler goes on with itself only in a CONTINUATION frame. -/
theorem moved_fieldNext {s t : KHttp2} {p rest : Bytes} {h : Handler}
    (hout : (t.fieldNext (p.drop (s.fieldSize p)) h).2.GoesOn h rest) (hne : h ≠ .stateProcessHeader)
    (hrest : t.state.fieldRest = (s.fieldTake (s.fieldSize p)).state.fieldRest) :
    0 < s.fieldMoved p := by
  have hleft : t.state.fieldRest = s.state.fieldRest - s.fieldSize p := hrest
  have hsize : s.fieldSize p ≤ s.state.fieldRest :=
    (Nat.min_le_left _ _).trans (Nat.min_le_right _ _)
  unfold fieldNext at hout
  split at hout
  · rcases hout with hout | hout
    · cases hout
    · cases hout
      exact absurd rfl hne
  · unfold fieldMoved
    dsimp only
    rw [if_neg (by omega)]
    exact Nat.lt_of_lt_of_le (Nat.succ_pos _) (Nat.le_add_left _ _)

theorem onward_endFrame {s : KHttp2} {p rest : Bytes} {h : Handler}
    (hout : (s.endFrame p).2.GoesOn h rest) :
    h = .stateSkip ∨ h = .stateComplete := by
  unfold endFrame at hout
  split at hout
  · rcases hout with hout | hout <;> cases hout
    exact .inl rfl
  · rcases hout with hout | hout <;> cases hout
    exact .inr rfl

theorem progress_stateHeaderComplete (s : KHttp2) {p rest : Bytes} {h : Handler}
    (hout : (s.stateHeaderComplete p).2.GoesOn h rest) :
    0 < moved .stateHeaderComplete s p ∨ h.rank < Handler.rank .stateHeaderComplete := by
  unfold stateHeaderComplete at hout
  by_cases hlength : s.state.length = 0
  · rw [if_neg (not_not.mpr hlength)] at hout
    by_cases hend : (!hasFlag s.state.flags endHeadersFlag) = true
    · have hmoved : moved .stateHeaderComplete s p = s.continuationMoved p.length :=
        if_pos ⟨hlength, hend⟩
      rw [hmoved]
      exact .inl (Nat.succ_pos _)
    · rw [if_neg hend] at hout
      rcases onward_endFrame hout with rfl | rfl
      · exact .inr (by decide)
      · exact .inr (by decide)
  · rw [if_pos hlength] at hout
    rcases hout with hout | hout <;> cases hout
    exact .inr (by decide)

/-- A call that goes on takes input, or goes on with a handler of a lower rank. -/
theorem measure_exec (codes : HuffDecodeCodes) {h h' : Handler} {s : KHttp2} {p rest : Bytes}
    (hout : (exec codes h s p).2.GoesOn h' rest) :
    measure h' rest < measure h p := by
  have hmoves := (inBounds_exec codes h s p).moves h' rest hout
  have hmem := (forward_follows codes h s p).onward h' rest hout
  have hrank : h'.rank ≤ 5 := by cases h' <;> decide
  have hprogress : 0 < moved h s p ∨ h'.rank < h.rank := by
    cases h with
    | statePreface | statePrefaceEnd | stateHead => exact .inl (Nat.succ_pos _)
    | stateHeaderBlock => exact .inl (moved_stateHeaderBlock hout)
    | stateFieldLen => exact .inl (moved_stateFieldLen hout)
    | stateFieldHuff =>
      rcases List.mem_pair.mp hmem with rfl | rfl
      · simp only [exec, stateFieldHuff] at hout
        split at hout
        · rcases hout with hout | hout <;> cases hout
        · exact .inl (moved_fieldNext hout (by decide) rfl)
      · exact .inr (by decide)
    | stateFieldRaw =>
      rcases List.mem_pair.mp hmem with rfl | rfl
      · simp only [exec, stateFieldRaw] at hout
        exact .inl (moved_fieldNext hout (by decide) rfl)
      · exact .inr (by decide)
    | stateFieldSkip =>
      rcases List.mem_pair.mp hmem with rfl | rfl
      · simp only [exec, stateFieldSkip] at hout
        exact .inl (moved_fieldNext hout (by decide) rfl)
      · exact .inr (by decide)
    | stateHeaderComplete => exact s.progress_stateHeaderComplete hout
    | stateSettingsParams =>
      by_cases hlength : s.state.length = 0
      · simp only [exec, stateSettingsParams, if_pos hlength] at hout
        rcases hout with hout | hout
        · cases hout
        · cases hout
          exact .inr (by decide)
      · have hmoved : moved .stateSettingsParams s p = 6 := if_neg hlength
        rw [hmoved]
        exact .inl (by decide)
    | stateData | stateReadData | stateHeaders | stateProcessHeader | statePriority | stateRstStream
    | stateSettings | statePushPromise | statePing | stateGoaway | stateWindowUpdate
    | stateContinuation | stateAltsvc | stateSkip | stateComplete =>
      exact .inr (rank_lt rfl hmem)
  unfold measure
  rcases hprogress with hpos | hlower
  · omega
  · omega

/-! ## The length that is left -/

/-- The parameters of a SETTINGS frame fill what is left of it. -/
def WholeParams (h : Option Handler) (s : KHttp2) : Prop :=
  h = some .stateSettingsParams → s.state.length % 6 = 0

theorem lengthUsed_le {h : Handler} {s : KHttp2} (p : Bytes) (hparams : WholeParams (some h) s) :
    (lengthUsed h s p).sum ≤ s.state.length := by
  have hempty : (([] : List ℕ).sum) ≤ s.state.length := Nat.zero_le _
  cases h with
  | stateData =>
    simp only [lengthUsed]
    split
    · rename_i hpad
      simp only [Bool.and_eq_true, decide_eq_true_eq] at hpad
      have hpos := hpad.1.2
      split
      · simp only [List.sum_cons, List.sum_nil]
        omega
      · simp only [List.sum_cons, List.sum_nil]
        omega
    · exact hempty
  | stateReadData =>
    simp only [lengthUsed]
    split
    · exact hempty
    · rw [List.sum_singleton]
      exact Nat.min_le_right _ _
  | stateHeaders =>
    simp only [lengthUsed]
    split
    · rename_i hroom
      simp only [Bool.and_eq_true, decide_eq_true_eq] at hroom
      split
      · rename_i hpad
        simp only [Bool.and_eq_true, decide_eq_true_eq] at hpad
        simp only [List.sum_cons, List.sum_nil]
        omega
      · rw [List.sum_singleton]
        exact hroom.1.le
    · exact hempty
  | stateHeaderBlock =>
    simp only [lengthUsed]
    split
    · exact hempty
    · rw [List.sum_singleton]
      exact octets_le _ _ _
  | stateFieldLen =>
    simp only [lengthUsed]
    split
    · exact hempty
    · rw [List.sum_singleton]
      exact octets_le _ _ _
  | stateFieldHuff | stateFieldRaw | stateFieldSkip =>
    simp only [lengthUsed, List.sum_singleton]
    exact Nat.min_le_right _ _
  | stateSettingsParams =>
    simp only [lengthUsed]
    split
    · rename_i hroom
      simp only [Bool.and_eq_true, decide_eq_true_eq] at hroom
      have hwhole := hparams rfl
      rw [List.sum_singleton]
      omega
    · exact hempty
  | stateSkip =>
    simp only [lengthUsed]
    split
    · rename_i hshort
      rw [List.sum_singleton]
      exact hshort.le
    · exact hempty
  | statePreface | statePrefaceEnd | stateHead | stateProcessHeader | stateHeaderComplete
  | statePriority | stateRstStream | stateSettings | statePushPromise | statePing | stateGoaway
  | stateWindowUpdate | stateContinuation | stateAltsvc | stateComplete => exact hempty

theorem wholeParams_exec (codes : HuffDecodeCodes) {h : Handler} {s : KHttp2} (p : Bytes)
    (hs : WholeParams (some h) s) :
    WholeParams (exec codes h s p).2.next (exec codes h s p).1 := by
  intro hnext
  have hfrom : h = .stateSettings ∨ h = .stateSettingsParams := by
    rcases (forward_follows codes h s p).next _ hnext with hmem | hself
    · cases h <;> first | exact .inl rfl | exact .inr rfl | exact absurd hmem (by decide)
    · exact .inr hself.symm
  rcases hfrom with rfl | rfl
  · revert hnext
    simp only [exec, stateSettings]
    split
    · split <;> exact fun hnext => by cases hnext
    · split
      · exact fun hnext => by cases hnext
      · rename_i hwhole
        intro hnext
        rw [s.calm_sendSettingsAck.state]
        exact not_not.mp hwhole
  · have hwhole := hs rfl
    revert hnext
    simp only [exec, stateSettingsParams]
    split
    · exact fun hnext => by cases hnext
    · rename_i hleft
      have hsix : (s.state.length - 6) % 6 = 0 := by omega
      split
      · unfold stateSave
        split
        · exact fun hnext => by cases hnext
        · exact fun _ => hwhole
      · generalize parseUint16 p = id
        split
        · split
          · exact fun hnext => by cases hnext
          · intro hnext
            have hhand := atHand_adjustWindows ((s.setState fun st =>
              { st with length := st.length - 6 }).log (.setting 4 (parseUint32 (p.drop 2))))
                (parseUint32 (p.drop 2))
            exact (congrArg (fun hand => hand.length % 6) hhand).trans hsix
        · split
          · exact fun hnext => by cases hnext
          · exact fun _ => hsix
        · exact fun _ => hsix
        · exact fun _ => hsix

/-- No read, and nothing between two reads, leaves part of a parameter. -/
theorem wholeParams_indexed (codes : HuffDecodeCodes) :
    Indexed codes (fun _ _ _ => True) WholeParams where
  pinged _ h := h
  store _ _ h := h
  between _ _ _ hstate h hnext := by
    rw [hstate]
    exact h hnext
  exec _ _ _ h _ := wholeParams_exec codes _ h

theorem Starts.wholeParams {s : KHttp2} (h : Starts s) : Rest WholeParams s := by
  obtain ⟨handler, hmem, hstate⟩ := h.state
  refine Or.inr (Or.inl fun hnext => ?_)
  rw [hstate] at hnext
  cases hnext
  exact absurd hmem (by decide)

/-! ## Runs -/

/-- In every call of a handler that the bytes of a read lead to, the parser stays within its buffer,
and takes no more off the length of a frame than is left of it. -/
theorem parserBounds_run (codes : HuffDecodeCodes) {s : KHttp2} (hs : Starts s) (es : List Event)
    (e : Event) : ∀ call ∈ stepCalls codes (run codes s es) e,
      InBounds (moved call.1 call.2.1 call.2.2) call.2.2 (exec codes call.1 call.2.1 call.2.2) ∧
        (lengthUsed call.1 call.2.1 call.2.2).sum ≤ call.2.1.state.length := by
  intro call hcall
  refine ⟨inBounds_exec codes _ _ _, lengthUsed_le _ ?_⟩
  obtain ⟨hsound, hhalted⟩ := sound_of_starts hs
  have hrest : Rest WholeParams (run codes s es) :=
    rest_run (wholeParams_indexed codes) es hsound hhalted hs.wholeParams
      (.of_forall (fun _ _ _ _ => trivial) s es)
  cases e with
  | read chunk =>
    simp only [stepCalls] at hcall
    split at hcall
    · rename_i henabled
      simp only [enabled, Bool.and_eq_true, Bool.not_eq_true'] at henabled
      rcases hrest with hdel | hrun | ⟨-, hstop⟩
      · exact absurd (henabled.1.symm.trans hdel) Bool.false_ne_true
      · refine @Resumable.calls_indexed _ _ _ (exec codes) (fun o _ t => WholeParams o t)
          (fun _ _ p ht => wholeParams_exec codes p ht) _ _ _ _ ?_ call hcall
        exact hrun
      · exact absurd (hstop.symm.trans henabled.2.1.1) Bool.false_ne_true
    · cases hcall
  | readTimeOut | readError | nextWrite | written _ | writeError | tick _ | call _ _ | connect
  | getAdminStream | destroyPooled _ => cases hcall

/-- The first call on a new server connection. -/
theorem parserBounds_run_preface :
    InBounds (moved .statePreface (({ server 0 0 fun _ => .zero with pinged := false } :
        KHttp2).setState fun st => { st with buffer := [] }) clientPreface) clientPreface
        (exec (fun _ _ => ⟨0, 0, 0, 0⟩) .statePreface (({ server 0 0 fun _ => .zero with
          pinged := false } : KHttp2).setState fun st => { st with buffer := [] }) clientPreface) ∧
      (lengthUsed .statePreface (({ server 0 0 fun _ => .zero with pinged := false } :
        KHttp2).setState fun st => { st with buffer := [] }) clientPreface).sum ≤
        (({ server 0 0 fun _ => .zero with pinged := false } :
          KHttp2).setState fun st => { st with buffer := [] }).state.length := by
  refine parserBounds_run (fun _ _ => ⟨0, 0, 0, 0⟩) (.server 0 0 fun _ => .zero) []
    (.read clientPreface) (.statePreface, _, clientPreface) ?_
  have henabled : enabled (run (fun _ _ => ⟨0, 0, 0, 0⟩) (server 0 0 fun _ => .zero) [])
      (.read clientPreface) = true := by rfl
  unfold stepCalls
  dsimp only
  rw [if_pos henabled]
  exact List.mem_cons_self

end KHttp2

end Khttpd
