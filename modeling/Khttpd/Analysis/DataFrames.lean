import Khttpd.Analysis.Resting

/-!
# The handlers of a DATA frame

What `state_data` and `state_read_data` do, one case for each way they go.
-/

set_option autoImplicit false

namespace Khttpd

namespace KHttp2

variable {kinds : Kind → Prop}

/-- A DATA frame uses the window of a stream. -/
def useStreamWindow (s : KHttp2) (c : CtxId) (length : ℕ) : KHttp2 :=
  s.modify c fun ctx => { ctx with recvWindow := ctx.recvWindow - length }

theorem part_useStreamWindow (s : KHttp2) (c c' : CtxId) (length : ℕ) :
    ((s.useStreamWindow c length).ctx c').part = if c = c' then
      { (s.ctx c').part with recvWindow := (s.ctx c').recvWindow - length }
    else (s.ctx c').part := by
  by_cases hc : c = c'
  · subst hc
    rw [if_pos rfl]
    simp only [useStreamWindow, modify, Function.update_self]
    rfl
  · rw [if_neg hc]
    simp only [useStreamWindow, modify, Function.update_of_ne (Ne.symm hc)]

/-- `state_data` from the lookup of the stream on. -/
inductive DataOut (kinds : Kind → Prop) (s : KHttp2) (p : Bytes) : KHttp2 × Ret → Prop
  /-- There is no such stream, or it is reset before its window is used. -/
  | refused (t : KHttp2) (heffects : Effects kinds s t) (hstate : t.state = s.state)
      (hclosed : ∀ n, s.getNode s.state.sid = some n → (t.ctx n.stream).inClosed = true) :
      DataOut kinds s p (t.stateSkipPadded p)
  /-- The stream is closed for reading. -/
  | closed (n : KHttp2Node) (t : KHttp2) (hnode : s.getNode s.state.sid = some n)
      (hwindow : s.state.length ≤ (s.ctx n.stream).recvWindow)
      (hclosed : (s.ctx n.stream).inClosed = true)
      (heffects : Effects kinds (s.useStreamWindow n.stream s.state.length) t)
      (hstate : t.state = s.state) (hstill : (t.ctx n.stream).inClosed = true) :
      DataOut kinds s p (t.stateSkipPadded p)
  /-- The stream takes the frame. -/
  | taken (n : KHttp2Node) (t : KHttp2) (hnode : s.getNode s.state.sid = some n)
      (hwindow : s.state.length ≤ (s.ctx n.stream).recvWindow)
      (hopen : (s.ctx n.stream).inClosed = false)
      (heffects : Effects kinds (s.useStreamWindow n.stream s.state.length) t)
      (hseen : ∀ c, t.seen c = (s.useStreamWindow n.stream s.state.length).seen c)
      (hstate : t.state = { s.state with stream := some n.stream }) :
      DataOut kinds s p (t, .jump .stateReadData p)

theorem inClosed_terminateStream (s : KHttp2) (c : CtxId) (status : ℕ) :
    ((s.terminateStream c status).1.ctx c).inClosed = true := by
  obtain ⟨rst, heq⟩ := s.terminateStream_eq c status
  rw [heq, ctx_resetWith, Function.update_self]

theorem startWrite_keeps (s : KHttp2) :
    s.startWrite.state = s.state ∧ s.startWrite.ctx = s.ctx := by
  unfold startWrite
  split <;> exact ⟨rfl, rfl⟩

theorem dataStream_cases (s : KHttp2) (flag : Bool) (p : Bytes) (hparse : kinds .parse) :
    DataOut kinds s p (s.dataStream flag p) := by
  unfold dataStream
  split
  · rename_i hnone
    refine .refused _ (s.effects_ite_startWrite flag) ?_ fun n hn => ?_
    · split
      · exact s.startWrite_keeps.1
      · rfl
    · rw [hnone] at hn
      cases hn
  · rename_i id c hnode
    have hrefuse : ∀ status,
      DataOut kinds s p ((s.terminateStream c status).1.stateSkipPadded p) := by
      intro status
      refine .refused _ (s.effects_terminateStream c status) (s.calm_terminateStream c status).state
        fun n hn => ?_
      rw [hnode] at hn
      cases hn
      exact s.inClosed_terminateStream c status
    split
    · exact hrefuse protocolError
    · split
      · exact hrefuse flowCtrlError
      · rename_i hwindow
        extract_lets s1 r s2
        have hself : (s1.ctx c).inClosed = (s.ctx c).inClosed := by
          simp only [s1, modify, Function.update_self]
        split
        · rename_i hclosed
          have hr := @effects_terminateStream kinds s1 c streamClosed
          have hstill := s1.inClosed_terminateStream c streamClosed
          have hstate : r.1.state = s.state := (s1.calm_terminateStream c streamClosed).state
          refine .closed _ _ hnode (Nat.le_of_not_lt hwindow) (hself.symm.trans hclosed)
            (hr.trans (effects_ite_startWrite _ _)) ?_ ?_
          · split
            · exact r.1.startWrite_keeps.1.trans hstate
            · exact hstate
          · split
            · rw [r.1.startWrite_keeps.2]
              exact hstill
            · exact hstill
        · rename_i hopen
          have h2 : Effects kinds s1 s2 := effects_parse rfl hparse
          refine .taken _ _ hnode (Nat.le_of_not_lt hwindow)
            (hself.symm.trans (Bool.eq_false_iff.mpr hopen))
            (h2.trans (s2.effects_ite_startWrite flag)) (fun c' => ?_) ?_
          · split
            · exact s2.seen_startWrite c'
            · rfl
          · split
            · exact s2.startWrite_keeps.1
            · rfl

/-- The steps of `state_data` before the windows are used. -/
inductive DataStart (s : KHttp2) (p : Bytes) : KHttp2 × Ret → Prop
  | failed (t : KHttp2) (status : ℕ) (hstill : Still s t) : DataStart s p (t.fail status)
  | waits (hpadded : hasFlag s.state.flags paddedFlag = true) :
      DataStart s p (s, .save .stateData [])
  | flows (t : KHttp2) (q : Bytes) (hstill : Still s t) (hsid : t.state.sid = s.state.sid)
      (hstream : t.state.stream = s.state.stream) (hflags : t.state.flags = s.state.flags)
      (hlength : hasFlag s.state.flags paddedFlag = false → t.state.length = s.state.length)
      (hwindow : t.state.length ≤ t.recvWindow) :
      DataStart s p (t.useRecvWindow.1.dataStream t.useRecvWindow.2 q)

theorem stateData_cases (s : KHttp2) (p : Bytes) : DataStart s p (s.stateData p) := by
  unfold stateData
  split
  · rename_i hpadded
    split
    · exact .failed s _ (.refl s)
    · split
      · exact .waits hpadded
      · rename_i padding q
        extract_lets s1
        have h1 : Still s s1 := s.still_setState rfl
        split
        · exact .failed s1 _ h1
        · let s2 := s1.setState fun st => { st with length := st.length - st.padding }
          have h2 : Still s s2 := h1.trans (s1.still_setState rfl)
          show DataStart s (padding :: q) (s2.dataFlow q)
          unfold dataFlow
          split
          · exact .failed s2 _ h2
          · rename_i hwindow
            exact .flows s2 q h2 rfl rfl rfl
              (fun h => absurd (hpadded.symm.trans h) Bool.noConfusion)
              (Nat.le_of_not_lt hwindow)
  · unfold dataFlow
    split
    · exact .failed s _ (.refl s)
    · rename_i hwindow
      exact .flows s p (.refl s) rfl rfl rfl (fun _ => rfl) (Nat.le_of_not_lt hwindow)

theorem useRecvWindow_keeps (s : KHttp2) :
    s.useRecvWindow.1.state = s.state ∧ s.useRecvWindow.1.ctx = s.ctx ∧
      s.useRecvWindow.1.getNode = s.getNode ∧ ∀ c, s.useRecvWindow.1.seen c = s.seen c := by
  have hsend : ∀ (t : KHttp2) (window : ℕ), (t.sendWindowUpdate none 0 window).1.state = t.state ∧
      (t.sendWindowUpdate none 0 window).1.ctx = t.ctx ∧
      (t.sendWindowUpdate none 0 window).1.streamsIndex = t.streamsIndex := by
    intro t window
    unfold sendWindowUpdate
    split <;> exact ⟨rfl, rfl, rfl⟩
  unfold useRecvWindow
  extract_lets s1 r
  split
  · obtain ⟨hstate, hctx, hindex⟩ := hsend s1 (connectionRecvWindow - s1.recvWindow)
    refine ⟨hstate, hctx, ?_, fun c => s1.seen_chargeRefill c⟩
    funext sid
    show (r.1.streamsIndex (streamIndex sid)).find? _ = _
    rw [hindex]
    rfl
  · exact ⟨rfl, rfl, rfl, fun c => rfl⟩

/-- `state_read_data` with a stream: it takes what is there, and waits for more or ends the
frame. -/
inductive ReadOut (s : KHttp2) (c : CtxId) (p : Bytes) : KHttp2 × Ret → Prop
  | waits (t : KHttp2) (taken : Bytes) (htaken : taken.length < s.state.length)
      (hshort : taken.length ≤ p.length)
      (hbody : t.body = if taken = [] then s.body else (s.takeData c taken).body)
      (hlength : t.state.length = s.state.length - taken.length)
      (hstream : t.state.stream = some c) :
      ReadOut s c p (t, .save .stateReadData [])
  | done (t u : KHttp2) (taken : Bytes) (ret : Ret) (htaken : taken.length = s.state.length)
      (hshort : taken.length ≤ p.length)
      (ht : t.body = if taken = [] then s.body else (s.takeData c taken).body)
      (hu : u.body = if hasFlag s.state.flags endStreamFlag then (t.takeEnd c).body else t.body)
      (hret : ∀ h ∈ ret.next, h.otherThanData) (hnext : ret.next ≠ none) :
      ReadOut s c p (u, ret)

theorem stateReadData_cases {s : KHttp2} {c : CtxId} (p : Bytes)
    (hstream : s.state.stream = some c) :
    ReadOut s c p (s.stateReadData p) := by
  unfold stateReadData
  split
  · rename_i hnone
    rw [hnone] at hstream
    cases hstream
  rename_i c' hheld
  cases hheld.symm.trans hstream
  extract_lets size bytes s3 s1 p1 s2
  have hsize : (p.take size).length = size := by
    rw [List.length_take]
    exact Nat.min_eq_left (Nat.min_le_left _ _)
  have hle : (p.take size).length ≤ p.length := by
    rw [hsize]
    exact Nat.min_le_left _ _
  have hcalm : ∀ t : KHttp2, (t.wakeReader c false).state = t.state := fun t =>
    (t.calm_wakeReader c false).state
  have hlog : ∀ (t : KHttp2) (bytes : Bytes), (t.logData c bytes).state = t.state := by
    intro t bytes
    unfold logData
    split
    · split <;> rfl
    · rfl
  have h1 : s1.body = (if p.take size = [] then s.body else (s.takeData c (p.take size)).body) ∧
      s1.state.length = s.state.length - size ∧ s1.state.stream = some c ∧
      s1.state.flags = s.state.flags := by
    dsimp only [s1]
    by_cases hzero : size = 0
    · have hempty : p.take size = [] := by rw [hzero, List.take_zero]
      rw [if_pos hzero, if_pos hempty]
      exact ⟨rfl, by omega, hstream, rfl⟩
    · have hne : p.take size ≠ [] := fun h => hzero (by rw [← hsize, h]; rfl)
      have hbytes : (p.take size).take ((p.take size).length % 2 ^ 16) = bytes := by
        simp only [bytes, hsize, List.take_take]
        congr 1
        exact Nat.min_eq_left (Nat.mod_le _ _)
      rw [if_neg hzero, if_neg hne]
      refine ⟨?_, ?_, ?_, ?_⟩
      · unfold takeData
        rw [hbytes]
        rfl
      · simp only [setState, hcalm, hlog]
        rfl
      · simp only [setState, hcalm, hlog]
        exact hstream
      · simp only [setState, hcalm, hlog]
        rfl
  obtain ⟨hbody, hlength, hkept, hflags⟩ := h1
  split
  · rename_i hmore
    have hp1 : p1 = [] := by
      refine List.drop_eq_nil_of_le ?_
      have hmin : size = min p.length s.state.length := rfl
      omega
    rw [hp1]
    refine .waits s1 (p.take size) ?_ hle hbody (hsize.symm ▸ hlength) hkept
    rw [hsize]
    omega
  · rename_i hlast
    have hfull : (p.take size).length = s.state.length := by
      have hmin : size = min p.length s.state.length := rfl
      rw [hsize]
      omega
    have hend := s2.stillOut_endFrame p1
    have hother : ∀ h ∈ (s2.endFrame p1).2.next, h.otherThanData := by
      unfold endFrame
      split
      · rintro h ⟨⟩
        exact ⟨Handler.noConfusion, Handler.noConfusion⟩
      · rintro h ⟨⟩
        exact ⟨Handler.noConfusion, Handler.noConfusion⟩
    have hs2 : (s2.endFrame p1).1.body = s2.body ∧ (s2.endFrame p1).2.next ≠ none := by
      unfold endFrame
      split
      · exact ⟨rfl, Option.some_ne_none _⟩
      · exact ⟨rfl, Option.some_ne_none _⟩
    have hdone := ReadOut.done (s := s) (c := c) (p := p) s1 (s2.endFrame p1).1 (p.take size)
      (s2.endFrame p1).2 hfull hle hbody
    refine hdone ?_ hother hs2.2
    rw [hs2.1]
    dsimp only [s2]
    rw [hflags]
    split
    · rfl
    · rfl

end KHttp2

end Khttpd
