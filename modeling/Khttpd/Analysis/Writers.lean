import Khttpd.Analysis.Sound

/-!
# Writers

`on_write_window_ready` sends what the windows allow or waits, and `check_write_wait` leaves no
writer behind that could go on.
-/

set_option autoImplicit false

namespace Khttpd

namespace KHttp2

/-- A sequence of steps of writers. -/
abbrev Sends : KHttp2 → KHttp2 → Prop := Relation.ReflTransGen Sending

/-- Steps of writers keep a connection sound. -/
theorem Sound.sends {s t : KHttp2} (hs : Sound s) (h : Sends s t) : Sound t := by
  induction h with
  | refl => exact hs
  | tail _ h ih => exact ih.sending h

/-- `on_write_window_ready` waits exactly when a window is used up, and sends otherwise. -/
theorem onWriteWindowReady_spec {s : KHttp2} (hs : Sound s) {c : CtxId} {e : WriteEvent}
    (he : (s.ctx c).writeWait = some e) :
    (((s.ctx c).sendWindow ≤ 0 ∨ s.sendWindow = 0) ∧ s.onWriteWindowReady c = s.addQueue c) ∨
      ∃ len : ℕ, 0 < len ∧ len ≤ s.frameSize ∧ (len : ℤ) ≤ (s.ctx c).sendWindow ∧
        len ≤ s.sendWindow ∧ s.onWriteWindowReady c =
          { (s.sendData c e len).flushQueue c with writeProcessing := true } := by
  obtain ⟨hframeMin, hframeMax, hconn, -, -, hmax, -, -⟩ := hs.bounded
  have hframe : toInt32 (s.frameSize : ℤ) = s.frameSize := by
    simp only [maxFrameSize] at hframeMax
    exact toInt32_of_range (by omega) (by omega)
  have hwindow : toInt32 (s.sendWindow : ℤ) = s.sendWindow := by
    simp only [maxWindow] at hconn
    exact toInt32_of_range (by omega) (by omega)
  simp only [defaultFrameSize] at hframeMin
  simp only [onWriteWindowReady, he, hframe, hwindow]
  by_cases hlen : min (min (s.frameSize : ℤ) (s.ctx c).sendWindow) s.sendWindow ≤ 0
  · rw [if_pos hlen]
    refine Or.inl ⟨?_, rfl⟩
    omega
  · rw [if_neg hlen]
    refine Or.inr ⟨(min (min (s.frameSize : ℤ) (s.ctx c).sendWindow) s.sendWindow).toNat,
      ?_, ?_, ?_, ?_, rfl⟩
    all_goals omega

/-- What follows a DATA frame in `on_write_window_ready` is quiet. -/
theorem quiet_flushQueue_processing (s : KHttp2) (c : CtxId) :
    Quiet s { s.flushQueue c with writeProcessing := true } :=
  (s.calm_flushQueue c).quiet.trans (.of_view rfl rfl rfl id)

/-- A waiting writer that is looked at sends or goes on waiting. -/
theorem sends_onWriteWindowReady {s : KHttp2} (hs : Sound s) {c : CtxId}
    (hwaits : (s.ctx c).waitsForWindow = true) : Sends s (s.onWriteWindowReady c) := by
  obtain ⟨e, he, -⟩ := Option.any_eq_true .. |>.mp hwaits
  rcases onWriteWindowReady_spec hs he with ⟨-, heq⟩ | ⟨len, hpos, hframe, hstream, hconn, heq⟩
  · rw [heq]
    exact .single (.quiet (s.calm_addQueue c).quiet)
  · rw [heq]
    refine .tail (.single (.send c e len (hs.waiting c hwaits) (Or.inl hwaits) hpos hframe hstream
      hconn)) ?_
    exact .quiet (quiet_flushQueue_processing _ c)

/-- A writer that goes on waiting waits for a window that is used up. -/
theorem parked_onWriteWindowReady {s : KHttp2} (hs : Sound s) {c : CtxId}
    (hwaits : (s.ctx c).waitsForWindow = true)
    (hstill : ((s.onWriteWindowReady c).ctx c).waitsForWindow = true) :
    ((s.onWriteWindowReady c).ctx c).sendWindow ≤ 0 ∨ (s.onWriteWindowReady c).sendWindow = 0 := by
  obtain ⟨e, he, -⟩ := Option.any_eq_true .. |>.mp hwaits
  rcases onWriteWindowReady_spec hs he with ⟨hused, heq⟩ | ⟨len, -, -, -, -, heq⟩
  · have hadd := s.calm_addQueue c
    rw [heq, (hadd.ctx c).sendWindow, hadd.sendWindow]
    exact hused
  · have hquiet := quiet_flushQueue_processing (s.sendData c e len) c
    rw [heq] at hstill
    have hsent := (hquiet.ctx c).waits hstill
    rw [waits_sendData (hs.waiting c hwaits)] at hsent
    cases hsent

/-- Steps of writers lower windows and end waits. -/
structure Lower (s t : KHttp2) : Prop where
  conn : t.sendWindow ≤ s.sendWindow
  stream : ∀ c, (t.ctx c).sendWindow ≤ (s.ctx c).sendWindow
  waits : ∀ c, (t.ctx c).waitsForWindow = true → (s.ctx c).waitsForWindow = true

/-- One step of a writer lowers windows. -/
theorem lower_sending {s t : KHttp2} (hs : Sound s) (h : Sending s t) : Lower s t := by
  cases h with
  | quiet h =>
    exact ⟨Nat.le_of_eq h.sendWindow, fun c => Int.le_of_eq (h.ctx c).sendWindow,
      fun c => (h.ctx c).waits⟩
  | send c e len hnode hopen hpos hframe hstream hconn =>
    obtain ⟨hctx, -⟩ := s.sendData_spec c e len hnode
    obtain ⟨hnew, hnewConn⟩ := sendData_windows hs.bounded (e := e) hnode hstream hconn
    refine ⟨by omega, fun c' => ?_, fun c' => ?_⟩
    · by_cases hc : c' = c
      · subst hc
        rw [hnew]
        omega
      · rw [hctx, Function.update_of_ne hc]
    · by_cases hc : c' = c
      · subst hc
        rw [waits_sendData hnode]
        exact Bool.noConfusion
      · rw [hctx, Function.update_of_ne hc]
        exact id

/-- Steps of writers lower windows. -/
theorem lower_sends {s t : KHttp2} (hs : Sound s) (h : Sends s t) : Lower s t := by
  induction h with
  | refl => exact ⟨Nat.le_refl _, fun _ => Int.le_refl _, fun _ => id⟩
  | tail hpath h ih =>
    have hlast := lower_sending (hs.sends hpath) h
    exact ⟨hlast.conn.trans ih.conn, fun c => (hlast.stream c).trans (ih.stream c),
      fun c hc => ih.waits c (hlast.waits c hc)⟩

/-- The loop of `check_write_wait` is made of steps of writers. -/
theorem sends_checkWriteWaitLoop (nodes : List KHttp2Node) {s : KHttp2} (hs : Sound s) :
    Sends s (checkWriteWaitLoop nodes s) := by
  induction nodes generalizing s with
  | nil => exact .refl
  | cons n nodes ih =>
    unfold checkWriteWaitLoop
    split
    · exact .refl
    · split
      · exact ih hs
      · rename_i hready
        simp only [Bool.or_eq_true, Bool.not_eq_true', decide_eq_true_eq, not_or,
          Bool.not_eq_false] at hready
        have hone := sends_onWriteWindowReady hs hready.2
        exact hone.trans (ih (hs.sends hone))

/-- After the loop of `check_write_wait` a writer that it came by waits only for a window that is
used up. -/
theorem parked_checkWriteWaitLoop (nodes : List KHttp2Node) {s : KHttp2} (hs : Sound s)
    {c : CtxId} (hc : ∃ n ∈ nodes, n.stream = c)
    (hwaits : ((checkWriteWaitLoop nodes s).ctx c).waitsForWindow = true) :
    ((checkWriteWaitLoop nodes s).ctx c).sendWindow ≤ 0 ∨
      (checkWriteWaitLoop nodes s).sendWindow = 0 := by
  induction nodes generalizing s with
  | nil =>
    obtain ⟨n, hn, -⟩ := hc
    cases hn
  | cons n nodes ih =>
    unfold checkWriteWaitLoop at hwaits ⊢
    split at hwaits
    · rename_i hzero
      rw [if_pos hzero]
      exact Or.inr hzero
    · rename_i hzero
      rw [if_neg hzero]
      split at hwaits
      · rename_i hskip
        rw [if_pos hskip]
        obtain ⟨n', hn', rfl⟩ := hc
        rcases List.mem_cons.mp hn' with rfl | hn'
        · have hlow := lower_sends hs (sends_checkWriteWaitLoop nodes hs)
          have hbefore := hlow.waits _ hwaits
          simp only [Bool.or_eq_true, Bool.not_eq_true', decide_eq_true_eq, hbefore,
            Bool.true_eq_false, or_false] at hskip
          exact Or.inl ((hlow.stream _).trans hskip)
        · exact ih hs ⟨n', hn', rfl⟩ hwaits
      · rename_i hready
        rw [if_neg hready]
        simp only [Bool.or_eq_true, Bool.not_eq_true', decide_eq_true_eq, not_or,
          Bool.not_eq_false] at hready
        have hone := sends_onWriteWindowReady hs hready.2
        have hnext := hs.sends hone
        obtain ⟨n', hn', rfl⟩ := hc
        rcases List.mem_cons.mp hn' with rfl | hn'
        · have hlow := lower_sends hnext (sends_checkWriteWaitLoop nodes hnext)
          rcases parked_onWriteWindowReady hs hready.2 (hlow.waits _ hwaits) with h | h
          · exact Or.inl ((hlow.stream _).trans h)
          · exact Or.inr (Nat.le_zero.mp (h ▸ hlow.conn))
        · exact ih hnext ⟨n', hn', rfl⟩ hwaits

end KHttp2

end Khttpd
