import Khttpd.Analysis.Effects

/-!
# The order of the handlers

Which handler follows which, and that no handler makes its input longer. The handlers of DATA are
entered from the head of a frame only.
-/

set_option autoImplicit false

namespace Khttpd

/-- The handlers that a call of a handler may go on with. -/
def Handler.follows : Handler → List Handler
  | .statePreface => [.statePrefaceEnd]
  | .statePrefaceEnd => [.stateHead]
  | .stateHead => [.stateData, .stateHeaders, .statePriority, .stateRstStream, .stateSettings,
      .statePushPromise, .statePing, .stateGoaway, .stateWindowUpdate, .stateContinuation,
      .stateAltsvc, .stateSkip]
  | .stateData => [.stateReadData, .stateSkip]
  | .stateReadData => [.stateSkip, .stateComplete]
  | .stateHeaders => [.stateHeaderBlock, .stateSkip]
  | .stateHeaderBlock =>
    [.stateHeaderBlock, .stateProcessHeader, .stateHeaderComplete, .stateFieldLen]
  | .stateProcessHeader => [.stateFieldLen, .stateHeaderComplete]
  | .stateHeaderComplete => [.stateHeaderBlock, .stateHeaderComplete, .stateSkip, .stateComplete]
  | .stateFieldLen => [.stateFieldLen, .stateFieldSkip, .stateFieldHuff, .stateFieldRaw]
  | .stateFieldHuff => [.stateFieldHuff, .stateProcessHeader]
  | .stateFieldRaw => [.stateFieldRaw, .stateProcessHeader]
  | .stateFieldSkip => [.stateFieldSkip, .stateProcessHeader]
  | .statePriority | .stateRstStream | .stateWindowUpdate | .stateSkip => [.stateComplete]
  | .stateSettings | .stateSettingsParams => [.stateSettingsParams, .stateComplete]
  | .statePushPromise | .stateGoaway | .stateAltsvc => [.stateSkip]
  | .statePing => [.stateSkip, .stateComplete]
  | .stateContinuation => []
  | .stateComplete => [.stateHead]

/-- A handler of other frames than DATA. -/
def Handler.otherThanData (h : Handler) : Prop := h ≠ .stateData ∧ h ≠ .stateReadData

/-- A call of `h` goes on with a handler in `P`, or waits for more input for `h`, and has no more
input left than there was; or the connection is not read any more. -/
structure Forward (P : Handler → Prop) (h : Handler) (p : Bytes) (r : KHttp2 × Ret) : Prop where
  onward : ∀ h' rest, r.2.GoesOn h' rest → P h'
  waits : ∀ h' kept, r.2 = .save h' kept → h' = h
  rest : r.2.rest.length ≤ p.length
  stop : r.2.next = none → r.1.readProcessing = false

namespace Forward

variable {P : Handler → Prop} {s : KHttp2} {p q : Bytes} {h h' : Handler}

theorem pos (hP : P h') (hq : q.length ≤ p.length) : Forward P h p (s, .pos h' q) where
  onward _ _ hout := by
    rcases hout with hout | hout
    · cases hout
      exact hP
    · cases hout
  waits _ _ hout := by cases hout
  rest := hq
  stop hout := by cases hout

theorem jump (hP : P h') (hq : q.length ≤ p.length) : Forward P h p (s, .jump h' q) where
  onward _ _ hout := by
    rcases hout with hout | hout
    · cases hout
    · cases hout
      exact hP
  waits _ _ hout := by cases hout
  rest := hq
  stop hout := by cases hout

theorem save (hq : q.length ≤ p.length) : Forward P h p (s, .save h q) where
  onward _ _ hout := by rcases hout with hout | hout <;> cases hout
  waits _ _ hout := by
    cases hout
    rfl
  rest := hq
  stop hout := by cases hout

theorem next {r : KHttp2 × Ret} (hf : Forward P h p r) : ∀ h' ∈ r.2.next, P h' ∨ h' = h := by
  obtain ⟨t, out⟩ := r
  intro h' hh'
  cases out with
  | pos h'' rest =>
    cases hh'
    exact .inl (hf.onward _ rest (.inl rfl))
  | jump h'' rest =>
    cases hh'
    exact .inl (hf.onward _ rest (.inr rfl))
  | save h'' kept =>
    cases hh'
    exact .inr (hf.waits _ kept rfl)
  | null => cases hh'

/-- Nothing is read after `close(true)`. -/
theorem fail (s : KHttp2) (status : ℕ) : Forward P h p (s.fail status) where
  onward _ _ hout := by rcases hout with hout | hout <;> cases hout
  waits _ _ hout := by cases hout
  rest := Nat.zero_le _
  stop _ := by
    have hclose : (s.closeStreams true status).readProcessing = false := rfl
    exact Bool.eq_false_iff.mpr fun h => by
      have hread := KHttp2.reading_tryDelete _ h
      rw [hclose] at hread
      cases hread

end Forward

theorem length_drop_le (n : ℕ) (p : Bytes) : (p.drop n).length ≤ p.length := by
  rw [List.length_drop]
  exact Nat.sub_le _ _

namespace KHttp2

variable {P : Handler → Prop} {h : Handler}

theorem forward_stateSave {s : KHttp2} {p q : Bytes} (hq : q.length ≤ p.length) :
    Forward P h p (s.stateSave q h) := by
  unfold stateSave
  split
  · exact .fail _ _
  · exact .save hq

theorem forward_endFrame {s : KHttp2} {p q : Bytes} (hskip : P .stateSkip)
    (hcomplete : P .stateComplete)
    (hq : q.length ≤ p.length) : Forward P h p (s.endFrame q) := by
  unfold endFrame
  split
  · exact .jump hskip hq
  · exact .jump hcomplete hq

theorem forward_handleContinuation {s : KHttp2} {p q : Bytes} (hP : P h)
    (hq : q.length ≤ p.length) : Forward P h p (s.handleContinuation q h) := by
  unfold handleContinuation
  extract_lets len skip s1 p1 head s2
  have hp1 : p1.length ≤ q.length := by
    simp only [p1, List.length_append, List.length_take, List.length_drop]
    omega
  split
  · exact forward_stateSave (hp1.trans hq)
  · split
    · exact .fail _ _
    · split
      · exact .fail _ _
      · refine .pos hP (Nat.le_trans ?_ (hp1.trans hq))
        simp only [List.length_append, List.length_take, List.length_drop]
        omega

theorem forward_fieldNext {s : KHttp2} {p q : Bytes} (hP : P h)
    (hheader : P .stateProcessHeader) (hq : q.length ≤ p.length) :
    Forward P h p (s.fieldNext q h) := by
  unfold fieldNext
  split
  · exact .jump hheader hq
  · split
    · exact forward_stateSave hq
    · split
      · exact .fail _ _
      · exact forward_handleContinuation hP hq

theorem forward_headersForStream {s : KHttp2} {c : CtxId} {p q : Bytes} (hskip : P .stateSkip)
    (hblock : P .stateHeaderBlock) (hq : q.length ≤ p.length) :
    Forward P h p (s.headersForStream c q) := by
  unfold headersForStream
  extract_lets s1 s2 fin
  split
  · exact .jump hskip hq
  · exact .jump hblock hq

theorem forward_headersStream {s : KHttp2} {depend : ℕ} {p q : Bytes} (hskip : P .stateSkip)
    (hblock : P .stateHeaderBlock) (hq : q.length ≤ p.length) :
    Forward P h p (s.headersStream depend q) := by
  unfold headersStream
  extract_lets sid s1
  split
  · split
    · exact .jump hskip hq
    · exact forward_headersForStream hskip hblock hq
  · split
    · exact .fail _ _
    · split
      · exact .jump hblock hq
      · split
        · exact .jump hblock hq
        · split
          · exact forward_headersForStream hskip hblock hq
          · exact .jump hblock hq

theorem forward_stateHeaders (s : KHttp2) (p : Bytes) :
    Forward (· ∈ Handler.follows .stateHeaders) .stateHeaders p (s.stateHeaders p) := by
  unfold stateHeaders
  extract_lets s1 padded priority size s2 s3 s4 depend
  split
  · exact .fail _ _
  · split
    · exact .fail _ _
    · split
      · exact forward_stateSave (Nat.le_refl _)
      · split
        · exact .fail _ _
        · exact forward_headersStream (by decide) (by decide) (length_drop_le _ _)

theorem forward_stateHeaderBlock (s : KHttp2) (p : Bytes) :
    Forward (· ∈ Handler.follows .stateHeaderBlock) .stateHeaderBlock p (s.stateHeaderBlock p) := by
  unfold stateHeaderBlock
  split
  · exact forward_stateSave (Nat.le_refl _)
  · rename_i ch rest
    extract_lets s1
    split
    · exact forward_handleContinuation (by decide) (Nat.le_refl _)
    · split
      · exact forward_stateSave (Nat.le_refl _)
      · exact .fail _ _
      · exact .fail _ _
      · rename_i value used hint
        extract_lets s2 p1 named
        have hp1 : p1.length ≤ (ch :: rest).length := length_drop_le _ _
        split
        · split
          · exact .fail _ _
          · exact .jump (by decide) hp1
        · split
          · split
            · exact .fail _ _
            · exact .jump (by decide) hp1
          · cases named with
            | none => exact .fail _ _
            | some s3 => exact .jump (by decide) hp1

theorem forward_stateFieldLen (s : KHttp2) (p : Bytes) :
    Forward (· ∈ Handler.follows .stateFieldLen) .stateFieldLen p (s.stateFieldLen p) := by
  unfold stateFieldLen
  split
  · exact forward_handleContinuation (by decide) (Nat.le_refl _)
  · split
    · exact .fail _ _
    · split
      · exact forward_stateSave (Nat.le_refl _)
      · split
        · exact forward_stateSave (Nat.le_refl _)
        · exact .fail _ _
        · exact .fail _ _
        · extract_lets s1 p1
          have hp1 := length_drop_le
          split
          · exact .jump (by decide) (hp1 _ _)
          · split
            · exact .jump (by decide) (hp1 _ _)
            · refine .jump ?_ (hp1 _ _)
              split <;> decide

theorem forward_stateProcessHeader (s : KHttp2) (p : Bytes) :
    Forward (· ∈ Handler.follows .stateProcessHeader) .stateProcessHeader p (s.stateProcessHeader p) := by
  have hle := Nat.le_refl p.length
  unfold stateProcessHeader
  extract_lets s1 s2 len s3
  split
  · split
    · exact .fail _ _
    · exact .jump (by decide) hle
  · split
    · exact .fail _ _
    · exact .jump (by decide) hle

theorem frameState_mem (type : ℕ) : frameState type ∈ Handler.follows .stateHead := by
  unfold frameState
  split <;> decide

/-- A frame of any type may follow. -/
theorem forward_stateHead (s : KHttp2) (p : Bytes) :
    Forward (· ∈ Handler.follows .stateHead) .stateHead p (s.stateHead p) := by
  unfold stateHead
  split
  · exact forward_stateSave (Nat.le_refl _)
  · extract_lets length type flags sid s1 s2 s3
    exact .jump (frameState_mem type) (length_drop_le _ _)

theorem forward_dataStream (s : KHttp2) (flag : Bool) {p q : Bytes} (hq : q.length ≤ p.length) :
    Forward (· ∈ Handler.follows .stateData) .stateData p (s.dataStream flag q) := by
  unfold dataStream
  split
  · exact .jump (by decide) hq
  · split
    · exact .jump (by decide) hq
    · split
      · exact .jump (by decide) hq
      · extract_lets s1 r s2
        split
        · exact .jump (by decide) hq
        · exact .jump (by decide) hq

theorem forward_stateData (s : KHttp2) (p : Bytes) :
    Forward (· ∈ Handler.follows .stateData) .stateData p (s.stateData p) := by
  have hflow : ∀ (t : KHttp2) (q : Bytes), q.length ≤ p.length →
      Forward (· ∈ Handler.follows .stateData) .stateData p (t.dataFlow q) := by
    intro t q hq
    unfold dataFlow
    split
    · exact .fail _ _
    · exact forward_dataStream _ _ hq
  unfold stateData
  split
  · split
    · exact .fail _ _
    · split
      · exact forward_stateSave (Nat.zero_le _)
      · rename_i padding q
        extract_lets s1
        split
        · exact .fail _ _
        · exact hflow _ q (Nat.le_succ _)
  · exact hflow s p (Nat.le_refl _)

theorem forward_stateReadData (s : KHttp2) (p : Bytes) :
    Forward (· ∈ Handler.follows .stateReadData) .stateReadData p (s.stateReadData p) := by
  unfold stateReadData
  split
  · exact .jump (by decide) (Nat.le_refl _)
  · extract_lets size bytes s3 s1 p1 s2
    split
    · exact forward_stateSave (length_drop_le _ _)
    · exact forward_endFrame (by decide) (by decide) (length_drop_le _ _)

/-- A call goes on with a handler that may follow. -/
theorem forward_follows (codes : HuffDecodeCodes) (h : Handler) (s : KHttp2) (p : Bytes) :
    Forward (· ∈ h.follows) h p (exec codes h s p) := by
  have hle := Nat.le_refl p.length
  have hdrop := fun n => length_drop_le n p
  cases h with
  | stateHead => exact s.forward_stateHead p
  | stateData => exact s.forward_stateData p
  | stateReadData => exact s.forward_stateReadData p
  | statePreface =>
    simp only [exec, statePreface]
    split
    · exact forward_stateSave hle
    · split
      · exact .fail _ _
      · exact .jump (by decide) (hdrop _)
  | statePrefaceEnd =>
    simp only [exec, statePrefaceEnd]
    split
    · exact forward_stateSave hle
    · split
      · exact .fail _ _
      · exact .jump (by decide) (hdrop _)
  | stateHeaders => exact s.forward_stateHeaders p
  | stateHeaderBlock => exact s.forward_stateHeaderBlock p
  | stateProcessHeader => exact s.forward_stateProcessHeader p
  | stateHeaderComplete =>
    simp only [exec, stateHeaderComplete]
    split
    · exact .pos (by decide) hle
    · split
      · exact forward_handleContinuation (by decide) hle
      · exact forward_endFrame (by decide) (by decide) hle
  | stateFieldLen => exact s.forward_stateFieldLen p
  | stateFieldHuff =>
    simp only [exec, stateFieldHuff]
    split
    · exact .fail _ _
    · exact forward_fieldNext (by decide) (by decide) (hdrop _)
  | stateFieldRaw => exact forward_fieldNext (by decide) (by decide) (hdrop _)
  | stateFieldSkip => exact forward_fieldNext (by decide) (by decide) (hdrop _)
  | statePriority =>
    simp only [exec, statePriority]
    split
    · exact .fail _ _
    · split
      · exact forward_stateSave hle
      · split
        · exact .fail _ _
        · exact .jump (by decide) (hdrop _)
  | stateRstStream =>
    simp only [exec, stateRstStream]
    split
    · exact .fail _ _
    · split
      · exact forward_stateSave hle
      · split
        · exact .fail _ _
        · split <;> exact .jump (by decide) (hdrop _)
  | stateSettings =>
    simp only [exec, stateSettings]
    split
    · split
      · exact .fail _ _
      · exact .jump (by decide) hle
    · split
      · exact .fail _ _
      · exact .jump (by decide) hle
  | stateSettingsParams =>
    simp only [exec, stateSettingsParams]
    split
    · exact .jump (by decide) hle
    · split
      · exact forward_stateSave hle
      · generalize parseUint16 p = id
        split
        · split
          · exact .fail _ _
          · exact .jump (by decide) (hdrop _)
        · split
          · exact .fail _ _
          · exact .jump (by decide) (hdrop _)
        · exact .jump (by decide) (hdrop _)
        · exact .jump (by decide) (hdrop _)
  | statePushPromise => exact .jump (by decide) hle
  | statePing =>
    simp only [exec, statePing]
    split
    · exact .fail _ _
    · split
      · exact forward_stateSave hle
      · split
        · exact .jump (by decide) hle
        · exact .jump (by decide) (hdrop _)
  | stateGoaway =>
    simp only [exec, stateGoaway]
    split
    · exact .fail _ _
    · split
      · exact forward_stateSave hle
      · exact .jump (by decide) hle
  | stateWindowUpdate =>
    simp only [exec, stateWindowUpdate]
    split
    · exact .fail _ _
    · split
      · exact forward_stateSave hle
      · split
        · exact .jump (by decide) (hdrop _)
        · split
          · exact .fail _ _
          · exact .jump (by decide) (hdrop _)
  | stateContinuation => exact .fail _ _
  | stateAltsvc =>
    simp only [exec, stateAltsvc]
    split
    · exact .fail _ _
    · split
      · exact forward_stateSave hle
      · exact .jump (by decide) hle
  | stateSkip =>
    simp only [exec, stateSkip]
    split
    · exact forward_stateSave (Nat.zero_le _)
    · exact .jump (by decide) (hdrop _)
  | stateComplete => exact .pos (by decide) hle

/-- The handlers of other frames go on with handlers of other frames. -/
theorem otherThanData_exec (codes : HuffDecodeCodes) {h : Handler} (s : KHttp2) (p : Bytes)
    (hdata : h.otherThanData) (hhead : h ≠ .stateHead) :
    ∀ h' ∈ (exec codes h s p).2.next, h'.otherThanData := by
  intro h' hh'
  rcases (forward_follows codes h s p).next h' hh' with hmem | rfl
  · constructor
    · rintro rfl
      cases h <;> first | exact hhead rfl | exact hdata.1 rfl | exact absurd hmem (by decide)
    · rintro rfl
      cases h <;> first | exact hdata.1 rfl | exact hdata.2 rfl | exact absurd hmem (by decide)
  · exact hdata

end KHttp2

end Khttpd
