import Khttpd.Analysis.Wakeup

/-!
# The windows that the peer keeps

A peer keeps its own account of what may be sent to it: the initial window and the frame size that
it set last, its WINDOW_UPDATEs, and the DATA frames that came. `Allowance` is that account, made
from the events of a connection alone. The connection agrees with it: its window and its limits
are those of the account, the window of a stream is never more than the account has for it, and
every DATA frame is within the account at the moment it is queued.
-/

set_option autoImplicit false

namespace Khttpd

/-! ## The account of the peer -/

/-- What the peer allows: its limits, the window of the connection, and for each stream how far
its window is from the initial one. -/
structure Allowance where
  initWindow : ℤ
  frameSize : ℕ
  conn : ℤ
  stream : CtxId → ℤ

namespace Allowance

/-- What is allowed before anything is said. -/
def start : Allowance := ⟨defaultWindow, defaultFrameSize, defaultWindow, fun _ => 0⟩

/-- A payload of DATA is paid for by the connection and by its stream. -/
def spend (a : Allowance) (frame : QueuedFrame) : Allowance :=
  { a with
    conn := a.conn - frame.length
    stream := fun c => if frame.stream = some c then a.stream c - frame.length else a.stream c }

/-- What an event changes. -/
def after (a : Allowance) : Ev → Allowance
  | .setting 4 value => { a with initWindow := value }
  | .setting 5 value => { a with frameSize := value }
  | .windowUpdate none increment => { a with conn := a.conn + increment }
  | .windowUpdate (some c) increment =>
    { a with stream := Function.update a.stream c (a.stream c + increment) }
  | .queued frame => if frame.type = dataFrame then a.spend frame else a
  | _ => a

/-- What is allowed after the events of a trace. -/
def of : List Ev → Allowance
  | [] => start
  | e :: trace => (of trace).after e

/-- The window of a stream. -/
def window (a : Allowance) (c : CtxId) : ℤ := a.initWindow + a.stream c

/-- A DATA frame is within the frame size and both windows. -/
def Permits (a : Allowance) (frame : QueuedFrame) : Prop :=
  frame.length ≤ a.frameSize ∧ (frame.length : ℤ) ≤ a.conn ∧
    ∀ c ∈ frame.stream, (frame.length : ℤ) ≤ a.window c

/-- A DATA frame with a payload. A frame without one may be sent whatever the windows are. -/
def Pays (frame : QueuedFrame) : Prop := frame.type = dataFrame ∧ 0 < frame.length

/-- Every DATA frame of a trace is permitted at the moment it is queued. -/
def Kept : List Ev → Prop
  | [] => True
  | e :: trace => Kept trace ∧ ∀ frame, e = .queued frame → Pays frame → (of trace).Permits frame

/-- An event that queues nothing. -/
theorem Kept.other {trace : List Ev} (h : Kept trace) {e : Ev}
    (he : ∀ frame, e ≠ .queued frame) : Kept (e :: trace) :=
  ⟨h, fun frame heq => absurd heq (he frame)⟩

end Allowance

/-- The events that the account is made of. -/
def Ev.isWindow : Ev → Bool
  | .windowUpdate .. | .setting .. => true
  | .queued frame => frame.type = dataFrame && 0 < frame.length
  | _ => false

/-- The events of a trace that the account is made of. -/
def windowTrace (trace : List Ev) : List Ev := trace.filter Ev.isWindow

theorem windowTrace_cons {e : Ev} (he : e.isWindow = false) (trace : List Ev) :
    windowTrace (e :: trace) = windowTrace trace := by
  simp [windowTrace, he]

/-- They are events of streams and windows. -/
theorem isConn_of_isWindow {e : Ev} (he : e.isWindow = true) : e.isConn = true := by
  unfold Ev.isWindow at he
  split at he
  · rfl
  · rfl
  · exact he
  · cases he

theorem windowTrace_connTrace (trace : List Ev) :
    windowTrace (connTrace trace) = windowTrace trace := by
  simp only [windowTrace, connTrace, List.filter_filter]
  congr 1
  funext e
  cases he : e.isWindow with
  | false => rfl
  | true => simp [isConn_of_isWindow he]

namespace Allowance

/-- A DATA frame without payload costs nothing. -/
theorem spend_empty (a : Allowance) {frame : QueuedFrame} (h : frame.length = 0) :
    a.spend frame = a := by
  simp [spend, h]

/-- Other events change nothing. -/
theorem after_of_not_isWindow (a : Allowance) {e : Ev} (he : e.isWindow = false) :
    a.after e = a := by
  unfold after
  split
  · cases he
  · cases he
  · cases he
  · cases he
  · rename_i frame
    split
    · rename_i htype
      refine a.spend_empty ?_
      simpa [Ev.isWindow, htype] using he
    · rfl
  · rfl

theorem of_windowTrace (trace : List Ev) : of (windowTrace trace) = of trace := by
  induction trace with
  | nil => rfl
  | cons e trace ih =>
    cases he : e.isWindow with
    | false =>
      rw [windowTrace_cons he, ih]
      exact ((of trace).after_of_not_isWindow he).symm
    | true =>
      have hcons : windowTrace (e :: trace) = e :: windowTrace trace := by
        simp [windowTrace, he]
      rw [hcons]
      change (of (windowTrace trace)).after e = (of trace).after e
      rw [ih]

/-- A frame that pays is an event of the account. -/
theorem Pays.isWindow {frame : QueuedFrame} (h : Pays frame) :
    (Ev.queued frame).isWindow = true := by
  obtain ⟨htype, hpos⟩ := h
  simp [Ev.isWindow, htype, hpos]

theorem kept_windowTrace (trace : List Ev) : Kept (windowTrace trace) ↔ Kept trace := by
  induction trace with
  | nil => rfl
  | cons e trace ih =>
    cases he : e.isWindow with
    | false =>
      rw [windowTrace_cons he, ih]
      refine ⟨fun h => ⟨h, fun frame hframe hpays => ?_⟩, fun h => h.1⟩
      rw [hframe, hpays.isWindow] at he
      cases he
    | true =>
      have hcons : windowTrace (e :: trace) = e :: windowTrace trace := by
        simp [windowTrace, he]
      rw [hcons]
      change Kept (windowTrace trace) ∧ _ ↔ Kept trace ∧ _
      rw [ih, of_windowTrace]

end Allowance

namespace KHttp2

open Allowance

/-! ## Agreement with the account -/

/-- What the peer allows a connection. -/
def granted (s : KHttp2) : Allowance := .of s.trace

/-- A writer of the stream can still queue a DATA frame. -/
def CanSend (ctx : KHttp2Context) : Prop := ctx.waitsForWindow = true ∨ ctx.rst = false

/-- A connection agrees with the account of its peer. -/
structure Agrees (s : KHttp2) : Prop where
  init : s.granted.initWindow = s.initWindow
  frame : s.granted.frameSize = s.frameSize
  conn : s.granted.conn = s.sendWindow
  stream : ∀ c, (s.ctx c).node.isSome → CanSend (s.ctx c) →
    (s.ctx c).sendWindow ≤ s.granted.window c
  unlinked : ∀ c ∈ s.owners, (s.ctx c).node = none → s.granted.stream c = 0
  fresh : ∀ c, s.nextCtx ≤ c → s.granted.stream c = 0
  kept : Kept s.trace

/-- Two traces with the same events of the account. -/
theorem granted_of_windowTrace {s t : KHttp2}
    (h : windowTrace t.trace = windowTrace s.trace) : t.granted = s.granted := by
  rw [granted, ← of_windowTrace, h, of_windowTrace, granted]

/-- A stream on which a quiet step leaves a writer had one. -/
theorem canSend_of_calm {old new : KHttp2Context} (h : CtxCalm old new) (hnew : CanSend new) :
    CanSend old := by
  rcases hnew with hwaits | hrst
  · exact Or.inl (h.waits hwaits)
  · refine Or.inr (Bool.eq_false_iff.mpr fun hold => ?_)
    exact Bool.false_ne_true (hrst.symm.trans (h.rst hold))

/-- A step that touches no window and links no stream. -/
theorem Agrees.of_same {s t : KHttp2} (hs : Agrees s) (h : SameWindows s t)
    (htrace : windowTrace t.trace = windowTrace s.trace) (hnext : s.nextCtx ≤ t.nextCtx)
    (hstream : ∀ c, (t.ctx c).node.isSome → CanSend (t.ctx c) →
      (s.ctx c).node.isSome ∧ CanSend (s.ctx c))
    (howners : ∀ c ∈ t.owners, (t.ctx c).node = none → c ∈ s.owners ∧ (s.ctx c).node = none) :
    Agrees t := by
  have hallow := granted_of_windowTrace htrace
  refine ⟨?_, ?_, ?_, fun c hnode hcan => ?_, fun c hc hnone => ?_, fun c hc => ?_, ?_⟩
  · rw [hallow, h.init]
    exact hs.init
  · rw [hallow, h.frame]
    exact hs.frame
  · rw [hallow, h.conn]
    exact hs.conn
  · obtain ⟨hnode, hcan⟩ := hstream c hnode hcan
    rw [hallow, h.stream c]
    exact hs.stream c hnode hcan
  · obtain ⟨hc, hnone⟩ := howners c hc hnone
    rw [hallow]
    exact hs.unlinked c hc hnone
  · rw [hallow]
    exact hs.fresh c (hnext.trans hc)
  · rw [← kept_windowTrace, htrace, kept_windowTrace]
    exact hs.kept

/-- A step that touches neither streams nor windows, and owns no stream without a node anew. -/
theorem Agrees.of_fields {s t : KHttp2} (hs : Agrees s) (hctx : t.ctx = s.ctx)
    (hframe : t.frameSize = s.frameSize) (hconn : t.sendWindow = s.sendWindow)
    (hinit : t.initWindow = s.initWindow) (hnext : t.nextCtx = s.nextCtx)
    (htrace : windowTrace t.trace = windowTrace s.trace)
    (howners : ∀ c ∈ t.owners, (s.ctx c).node = none → c ∈ s.owners) : Agrees t := by
  refine hs.of_same (.of_fields hctx hframe hconn hinit) htrace hnext.ge ?_ ?_
  · rw [hctx]
    exact fun c hnode hcan => ⟨hnode, hcan⟩
  · rw [hctx]
    exact fun c hc hnone => ⟨howners c hc hnone, hnone⟩

/-- A quiet step. -/
theorem Agrees.quiet {s t : KHttp2} (hs : Agrees s) (h : Quiet s t) : Agrees t := by
  have htrace : windowTrace t.trace = windowTrace s.trace := by
    rw [← windowTrace_connTrace, h.conn, windowTrace_connTrace]
  refine hs.of_same (sameWindows_of_quiet h) htrace h.nextCtx.ge (fun c hnode hcan => ?_)
    fun c hc hnone => ?_
  · rw [(h.ctx c).node] at hnode
    exact ⟨hnode, canSend_of_calm (h.ctx c) hcan⟩
  · rw [h.owners] at hc
    rw [(h.ctx c).node] at hnone
    exact ⟨hc, hnone⟩

/-- A DATA frame that both windows and the frame size allow. -/
theorem Agrees.sendData {s : KHttp2} (hsound : Sound s) (hs : Agrees s) {c : CtxId} {e : WriteEvent}
    {len : ℕ} (hnode : (s.ctx c).node.isSome) (hcan : CanSend (s.ctx c))
    (hframe : len ≤ s.frameSize) (hstream : (len : ℤ) ≤ (s.ctx c).sendWindow)
    (hconn : len ≤ s.sendWindow) : Agrees (s.sendData c e len) := by
  obtain ⟨hctx, -, htrace⟩ := s.sendData_spec c e len hnode
  obtain ⟨hlinks, -, hinit, hsize, -⟩ := s.sendData_keeps c e len hnode
  obtain ⟨hwindow, hleft⟩ := sendData_windows hsound.bounded (e := e) hnode hstream hconn
  have hnodes : ∀ c', ((s.sendData c e len).ctx c').node = (s.ctx c').node :=
    fun c' => congrFun (congrArg Links.node hlinks) c'
  have howners : (s.sendData c e len).owners = s.owners := congrArg Links.owners hlinks
  have hnext : (s.sendData c e len).nextCtx = s.nextCtx := congrArg Links.nextCtx hlinks
  have hlength := s.dataLength_le c e len
  have hallow : (s.sendData c e len).granted = { s.granted with
      conn := s.granted.conn - s.dataLength c e len
      stream := fun c' => if c = c' then s.granted.stream c' - s.dataLength c e len
        else s.granted.stream c' } := by
    rw [granted, htrace]
    simp only [Allowance.of, Allowance.after, if_true, Allowance.spend, Option.some.injEq]
    rfl
  have hlinked : ∀ c', (s.ctx c').node = none → c ≠ c' := by
    rintro c' hnone rfl
    exact Option.isSome_iff_ne_none.mp hnode hnone
  refine ⟨?_, ?_, ?_, fun c' hnode' hcan' => ?_, fun c' hc' hnone => ?_, fun c' hc' => ?_, ?_⟩
  · rw [hallow, hinit]
    exact hs.init
  · rw [hallow, hsize]
    exact hs.frame
  · rw [hallow, hleft]
    dsimp only
    rw [hs.conn]
  · simp only [hallow, Allowance.window]
    by_cases hc : c = c'
    · subst hc
      have hold := hs.stream c hnode hcan
      rw [Allowance.window] at hold
      rw [if_pos rfl, hwindow]
      omega
    · rw [if_neg hc]
      rw [hctx, Function.update_of_ne (Ne.symm hc)] at hnode' hcan' ⊢
      exact hs.stream c' hnode' hcan'
  · rw [howners] at hc'
    rw [hnodes] at hnone
    rw [hallow]
    dsimp only
    rw [if_neg (hlinked c' hnone)]
    exact hs.unlinked c' hc' hnone
  · rw [hnext] at hc'
    rw [hallow]
    dsimp only
    rw [if_neg (hlinked c' (hsound.good.fresh c' hc'))]
    exact hs.fresh c' hc'
  · rw [htrace]
    refine ⟨hs.kept, fun frame heq hpays => ?_⟩
    obtain rfl : _ = frame := Ev.queued.inj heq
    have hold := hs.stream c hnode hcan
    have hconnEq := hs.conn
    refine ⟨?_, ?_, fun c' hc' => ?_⟩
    · change s.dataLength c e len ≤ s.granted.frameSize
      rw [hs.frame]
      omega
    · change (s.dataLength c e len : ℤ) ≤ s.granted.conn
      omega
    · obtain rfl : c = c' := Option.some.inj hc'
      change (s.dataLength c e len : ℤ) ≤ s.granted.window c
      omega

/-- A step of a writer. -/
theorem Agrees.sending {s t : KHttp2} (hsound : Sound s) (hs : Agrees s) (h : Sending s t) :
    Agrees t := by
  cases h with
  | quiet h => exact hs.quiet h
  | send c e len hnode hopen hpos hframe hstream hconn =>
    exact hs.sendData hsound hnode hopen hframe hstream hconn

/-- A change of windows resets no stream. -/
theorem rst_windowChange {s t : KHttp2} (hgood : s.links.Good) (h : WindowChange s t) (c : CtxId) :
    (t.ctx c).rst = (s.ctx c).rst := by
  cases h with
  | stream c' window hnode h =>
    by_cases hc : c = c'
    · subst hc
      simp only [modify, Function.update_self]
      rfl
    · simp only [modify, Function.update_of_ne hc]
      rfl
  | initial value h =>
    rw [adjustAll_eq hgood]
    dsimp only
    split
    · rw [adjustCtx_keeps]
    · rfl
  | _ => rfl

/-- A change of windows that the peer asks for. -/
theorem Agrees.windowChange {s t : KHttp2} (hsound : Sound s) (hs : Agrees s)
    (h : WindowChange s t) : Agrees t := by
  have hbounded := hsound.bounded
  have hlinks := links_windowChange hsound.good h
  have hnodes : ∀ c, (t.ctx c).node = (s.ctx c).node :=
    fun c => congrFun (congrArg Links.node hlinks) c
  have howners : t.owners = s.owners := congrArg Links.owners hlinks
  have hnext : t.nextCtx = s.nextCtx := congrArg Links.nextCtx hlinks
  have hcan : ∀ c, CanSend (t.ctx c) → CanSend (s.ctx c) := fun c hc => by
    rw [CanSend, waits_windowChange hsound.good h, rst_windowChange hsound.good h] at hc
    exact hc
  have hold : ∀ c, (t.ctx c).node.isSome → CanSend (t.ctx c) →
      (s.ctx c).node.isSome ∧ (s.ctx c).sendWindow ≤ s.granted.window c := fun c hnode hc => by
    rw [hnodes] at hnode
    exact ⟨hnode, hs.stream c hnode (hcan c hc)⟩
  cases h with
  | stream c window hnode h =>
    have hmin := hbounded.linked c hnode
    have hmax := hbounded.streamMax c
    have hinit := hbounded.init
    have hroom := toUint32_of_range (n := maxWindow - (s.ctx c).sendWindow)
      (by simp only [maxWindow] at *; omega) (by simp only [maxWindow] at *; omega)
    have hsum : toInt32 ((s.ctx c).sendWindow + window) = (s.ctx c).sendWindow + window := by
      simp only [maxWindow] at *
      exact toInt32_of_range (by omega) (by omega)
    have hlinked : ∀ c', (s.ctx c').node = none → c' ≠ c := by
      rintro c' hnone rfl
      exact Option.isSome_iff_ne_none.mp hnode hnone
    refine ⟨hs.init, hs.frame, hs.conn, fun c' hnode' hcan' => ?_, fun c' hc' hnone => ?_,
      fun c' hc' => ?_, hs.kept.other (by rintro _ ⟨⟩)⟩
    · have hle := (hold c' hnode' hcan').2
      change _ ≤ s.granted.initWindow + Function.update s.granted.stream c
        (s.granted.stream c + window) c'
      rw [Allowance.window] at hle
      by_cases hc : c' = c
      · subst hc
        simp only [modify, log, Function.update_self, hsum]
        omega
      · simp only [modify, log, Function.update_of_ne hc]
        exact hle
    · have hnone' := (hnodes c').symm.trans hnone
      change Function.update s.granted.stream c (s.granted.stream c + window) c' = 0
      rw [Function.update_of_ne (hlinked c' hnone')]
      exact hs.unlinked c' hc' hnone'
    · change Function.update s.granted.stream c (s.granted.stream c + window) c' = 0
      rw [Function.update_of_ne (hlinked c' (hsound.good.fresh c' hc'))]
      exact hs.fresh c' hc'
  | conn window h =>
    have hconn := hbounded.conn
    have hroom := toUint32_of_range (n := (maxWindow : ℤ) - s.sendWindow)
      (by simp only [maxWindow] at *; omega) (by simp only [maxWindow] at *; omega)
    have hsum := toUint32_of_range (n := (s.sendWindow : ℤ) + window)
      (by omega) (by simp only [maxWindow] at *; omega)
    refine ⟨hs.init, hs.frame, ?_, hs.stream, hs.unlinked, hs.fresh,
      hs.kept.other (by rintro _ ⟨⟩)⟩
    have hold := hs.conn
    change s.granted.conn + window = (toUint32 (s.sendWindow + window) : ℤ)
    omega
  | initial value h =>
    rw [adjustAll_eq hsound.good] at hold howners hnext hnodes ⊢
    refine ⟨rfl, hs.frame, hs.conn, fun c hnode hcan => ?_, fun c hc hnone => ?_, hs.fresh,
      hs.kept.other (by rintro _ ⟨⟩)⟩
    · obtain ⟨hnode', hle⟩ := hold c hnode hcan
      have hadjust := (adjustCtx_sendWindow hbounded.init h (hbounded.linked c hnode')
        (hbounded.streamMax c)).2.2
      have hinit := hs.init
      change _ ≤ (value : ℤ) + s.granted.stream c
      rw [Allowance.window] at hle
      dsimp only at hadjust ⊢
      rw [if_pos hnode']
      omega
    · exact hs.unlinked c hc ((hnodes c).symm.trans hnone)
  | frame value hmin hmax =>
    exact ⟨hs.init, rfl, hs.conn, hs.stream, hs.unlinked, hs.fresh,
      hs.kept.other (by rintro _ ⟨⟩)⟩
  | other id value hinit hframe =>
    have hother : (s.log (.setting id value)).granted = s.granted := by
      change s.granted.after (.setting id value) = s.granted
      unfold Allowance.after
      split <;> simp_all
    refine ⟨?_, ?_, ?_, ?_, ?_, ?_, hs.kept.other (by rintro _ ⟨⟩)⟩
    all_goals rw [hother]
    · exact hs.init
    · exact hs.frame
    · exact hs.conn
    · exact hs.stream
    · exact hs.unlinked
    · exact hs.fresh

/-- A stream that is made has the initial window. -/
theorem Agrees.newStream {s t : KHttp2} (hsound : Sound s) (hs : Agrees s) {ctx : KHttp2Context}
    (hctx : t.ctx = Function.update s.ctx s.nextCtx ctx)
    (hwindow : ctx.sendWindow = toInt32 s.initWindow)
    (htrace : windowTrace t.trace = windowTrace s.trace) (hframe : t.frameSize = s.frameSize)
    (hconn : t.sendWindow = s.sendWindow) (hinit : t.initWindow = s.initWindow)
    (hnext : t.nextCtx = s.nextCtx + 1)
    (howners : ∀ c ∈ t.owners, c ∈ s.owners ∨ c = s.nextCtx) : Agrees t := by
  have hallow := granted_of_windowTrace htrace
  have hfresh := hs.fresh s.nextCtx (Nat.le_refl _)
  have hother : ∀ c, c ≠ s.nextCtx → t.ctx c = s.ctx c := fun c hc => by
    rw [hctx, Function.update_of_ne hc]
  refine ⟨?_, ?_, ?_, fun c hnode hcan => ?_, fun c hc hnone => ?_, fun c hc => ?_, ?_⟩
  · rw [hallow, hinit]
    exact hs.init
  · rw [hallow, hframe]
    exact hs.frame
  · rw [hallow, hconn]
    exact hs.conn
  · rw [hallow]
    by_cases hc : c = s.nextCtx
    · have hvalue : toInt32 (s.initWindow : ℤ) = s.initWindow := by
        have hmax := hsound.bounded.init
        simp only [maxWindow] at hmax
        exact toInt32_of_range (by omega) (by omega)
      have hold := hs.init
      rw [hc, hctx, Function.update_self, hwindow, hvalue, Allowance.window, hfresh]
      omega
    · rw [hother c hc] at hnode hcan ⊢
      exact hs.stream c hnode hcan
  · rw [hallow]
    rcases howners c hc with hold | rfl
    · have hne : c ≠ s.nextCtx := fun heq =>
        Nat.lt_irrefl _ (heq ▸ hsound.good.known c hold)
      rw [hother c hne] at hnone
      exact hs.unlinked c hold hnone
    · exact hfresh
  · rw [hallow]
    rw [hnext] at hc
    exact hs.fresh c (Nat.le_of_succ_le hc)
  · rw [← kept_windowTrace, htrace, kept_windowTrace]
    exact hs.kept

/-- A client stream that gets its node, unless it kept more than the initial window. -/
theorem Agrees.linkNode {s : KHttp2} (hsound : Sound s) (hs : Agrees s) {c : CtxId}
    (hnone : (s.ctx c).node = none) (howner : c ∈ s.owners)
    (hwindow : (s.ctx c).rst = true ∨ (s.ctx c).sendWindow ≤ s.initWindow) :
    Agrees (s.linkNode c) := by
  have hctx : ∀ c', c' ≠ c → (s.linkNode c).ctx c' = s.ctx c' := fun c' hc => by
    simp only [KHttp2.linkNode, modify, Function.update_of_ne hc]
    rfl
  have hself : (s.linkNode c).ctx c = { s.ctx c with node := some (s.lastSelfSid + 2) } := by
    simp only [KHttp2.linkNode, modify, Function.update_self]
    rfl
  have hallow : (s.linkNode c).granted = s.granted := rfl
  refine ⟨hs.init, hs.frame, hs.conn, fun c' hnode hcan => ?_, fun c' hc' hnot => ?_, hs.fresh,
    hs.kept.other (by rintro _ ⟨⟩)⟩
  · rw [hallow]
    by_cases hc : c' = c
    · subst hc
      rw [hself] at hcan ⊢
      have hold := hs.init
      have hzero := hs.unlinked c' howner hnone
      rcases hcan with hwaits | hrst
      · have hlinked := hsound.waiting c' hwaits
        rw [hnone] at hlinked
        cases hlinked
      · have hle := hwindow.resolve_left fun h => Bool.false_ne_true (hrst.symm.trans h)
        change (s.ctx c').sendWindow ≤ _
        rw [Allowance.window]
        omega
    · rw [hctx c' hc] at hnode hcan ⊢
      exact hs.stream c' hnode hcan
  · have hc : c' ≠ c := by
      rintro rfl
      rw [hself] at hnot
      cases hnot
    rw [hctx c' hc] at hnot
    exact hs.unlinked c' hc' hnot

/-- Nobody starts to wait on a stream that is released. -/
theorem canSend_releaseStream {s : KHttp2} {c c' : CtxId}
    (h : CanSend ((s.releaseStream c).ctx c')) : CanSend (s.ctx c') := by
  obtain ⟨u, hu, -, -, heq⟩ := s.releaseStream_spec c
  refine canSend_of_calm (hu.ctx c') ?_
  rw [heq] at h
  cases hnode : (s.ctx c).node with
  | none =>
    rw [hnode] at h
    exact h
  | some id =>
    rw [hnode] at h
    by_cases hc : c' = c
    · subst hc
      simp only [modify, Function.update_self] at h
      exact h
    · simpa only [modify, Function.update_of_ne hc, destroyNode, log] using h

theorem windowTrace_releaseStream (s : KHttp2) (c : CtxId) :
    windowTrace (s.releaseStream c).trace = windowTrace s.trace := by
  obtain ⟨u, hu, -, -, heq⟩ := s.releaseStream_spec c
  have htrace : windowTrace u.trace = windowTrace s.trace := by
    rw [← windowTrace_connTrace, hu.conn, windowTrace_connTrace]
  rw [heq, ← htrace]
  cases (s.ctx c).node with
  | none => rfl
  | some id => exact windowTrace_cons rfl _

/-- A stream that is released and is nobody's any more. -/
theorem Agrees.released {s t : KHttp2} (hsound : Sound s) (hs : Agrees s) {c : CtxId}
    (stream : Option CtxId)
    (hlinks : t.links = { s.links.free c with owners := s.owners.erase c, stream := stream })
    (hsame : SameWindows (s.releaseStream c) t)
    (htrace : windowTrace t.trace = windowTrace (s.releaseStream c).trace)
    (hcan : ∀ c', CanSend (t.ctx c') → CanSend ((s.releaseStream c).ctx c')) : Agrees t := by
  have hnode : ∀ c', (t.ctx c').node = if c' = c then none else (s.ctx c').node := fun c' => by
    have h := congrFun (congrArg Links.node hlinks) c'
    simp only [Links.node_free] at h
    exact h
  have howners : t.owners = s.owners.erase c := congrArg Links.owners hlinks
  have hnext : t.nextCtx = s.nextCtx :=
    (congrArg Links.nextCtx hlinks).trans (s.links.free_keeps c).2.2.2.1
  refine hs.of_same ((s.sameWindows_releaseStream c).trans hsame)
    (htrace.trans (s.windowTrace_releaseStream c)) hnext.ge (fun c' hc' hcan' => ?_)
    fun c' hc' hnone => ?_
  · rw [hnode] at hc'
    split at hc'
    · cases hc'
    · exact ⟨hc', canSend_releaseStream (hcan c' hcan')⟩
  · rw [howners] at hc'
    obtain ⟨hne, hmem⟩ := hsound.good.distinct.mem_erase_iff.mp hc'
    rw [hnode, if_neg hne] at hnone
    exact ⟨hmem, hnone⟩

/-- `release_admin` lets nobody start to wait. -/
theorem canSend_releaseAdminCount {s : KHttp2} {c c' : CtxId}
    (h : CanSend ((s.releaseAdminCount c).ctx c')) : CanSend (s.ctx c') := by
  obtain ⟨mark, hctx⟩ := s.releaseAdminCount_ctx c c'
  rw [hctx] at h
  exact h

theorem windowTrace_releaseAdminCount (s : KHttp2) (c : CtxId) :
    windowTrace (s.releaseAdminCount c).trace = windowTrace s.trace := by
  obtain ⟨-, -, -, -, -, -, -, htrace, -⟩ := s.releaseAdminCount_spec c
  rw [htrace]
  exact windowTrace_cons rfl _

/-- An assignment to other fields of a stream. -/
theorem Agrees.modify {s : KHttp2} (hs : Agrees s) {c : CtxId}
    {f : KHttp2Context → KHttp2Context} (hwindow : (f (s.ctx c)).sendWindow = (s.ctx c).sendWindow)
    (hwait : (f (s.ctx c)).writeWait = (s.ctx c).writeWait)
    (hrst : (f (s.ctx c)).rst = (s.ctx c).rst) (hnode : (f (s.ctx c)).node = (s.ctx c).node) :
    Agrees (s.modify c f) := by
  have hnodes : ∀ c', ((s.modify c f).ctx c').node = (s.ctx c').node := fun c' => by
    by_cases hc : c' = c
    · subst hc
      simpa only [KHttp2.modify, Function.update_self] using hnode
    · simp only [KHttp2.modify, Function.update_of_ne hc]
  refine hs.of_same (sameWindows_modify hwindow hwait) rfl (Nat.le_refl _)
    (fun c' hc' hcan => ⟨hnodes c' ▸ hc', ?_⟩) fun c' hc' hnone => ⟨hc', hnodes c' ▸ hnone⟩
  by_cases hc : c' = c
  · subst hc
    simp only [KHttp2.modify, Function.update_self, CanSend, KHttp2Context.waitsForWindow, hwait,
      hrst] at hcan
    exact hcan
  · simp only [KHttp2.modify, Function.update_of_ne hc] at hcan
    exact hcan

/-- A request that starts on a stream that has its node. -/
theorem Agrees.startRequest {s : KHttp2} (hs : Agrees s) {c : CtxId}
    (hnode : (s.ctx c).node.isSome) : Agrees (s.startRequest c) := by
  unfold KHttp2.startRequest
  extract_lets s1
  have hset : Agrees (s.setState fun st => { st with stream := none }) :=
    hs.of_fields rfl rfl rfl rfl rfl rfl fun _ hc _ => hc
  have hs1 : Agrees s1 := hset.modify rfl rfl rfl rfl
  have hnode1 : (s1.ctx c).node.isSome := by
    simp only [s1, KHttp2.modify, Function.update_self]
    exact hnode
  refine hs1.of_fields rfl rfl rfl rfl rfl (windowTrace_cons rfl _) fun c' hc' hnone => ?_
  rcases List.mem_cons.mp hc' with rfl | hc'
  · exact absurd hnone (Option.isSome_iff_ne_none.mp hnode1)
  · exact hc'

/-- A fiber that starts to wait on a stream that is not reset. -/
theorem Agrees.wait {s : KHttp2} (hs : Agrees s) {c : CtxId} (e : WriteEvent)
    (hopen : (s.ctx c).rst = false) :
    Agrees ((s.modify c fun ctx => { ctx with writeWait := some e }).addQueue c) := by
  refine Agrees.quiet ?_ (calm_addQueue _ c).quiet
  have hctx : ∀ c', c' ≠ c →
      (s.modify c fun ctx => { ctx with writeWait := some e }).ctx c' = s.ctx c' :=
    fun c' hc => by simp only [KHttp2.modify, Function.update_of_ne hc]
  have hself : (s.modify c fun ctx => { ctx with writeWait := some e }).ctx c =
      { s.ctx c with writeWait := some e } := by
    simp only [KHttp2.modify, Function.update_self]
  refine ⟨hs.init, hs.frame, hs.conn, fun c' hnode hcan => ?_, fun c' hc' hnone => ?_, hs.fresh,
    hs.kept⟩
  · by_cases hc : c' = c
    · subst hc
      rw [hself] at hnode ⊢
      exact hs.stream c' hnode (Or.inr hopen)
    · rw [hctx c' hc] at hnode hcan ⊢
      exact hs.stream c' hnode hcan
  · by_cases hc : c' = c
    · subst hc
      rw [hself] at hnone
      exact hs.unlinked c' hc' hnone
    · rw [hctx c' hc] at hnone
      exact hs.unlinked c' hc' hnone

/-- Every move but the slip keeps a connection in agreement with its peer. -/
theorem Agrees.move {slips : Slip → Prop} (hslips : ¬slips .staleWindow) {s t : KHttp2}
    (hsound : Sound s) (hs : Agrees s) (h : Move slips s t) : Agrees t := by
  cases h with
  | sending h => exact hs.sending hsound h
  | openStream p hserver hnew hlast =>
    obtain ⟨ctx, st, trace, hnode, -, -, -, hwindow, -, -, htrace, heq⟩ :=
      ({ s with lastPeerSid := s.state.sid } : KHttp2).headersNewStream_spec p
    have hpeer : Agrees { s with lastPeerSid := s.state.sid } :=
      hs.of_fields rfl rfl rfl rfl rfl rfl fun _ hc _ => hc
    rw [heq]
    refine hpeer.newStream (hsound.peerSid s.state.sid) rfl hwindow ?_ rfl rfl rfl rfl
      fun _ => Or.inl
    rw [← windowTrace_connTrace trace, htrace, windowTrace_cons rfl, windowTrace_connTrace]
  | newClientStream processing admin hclient =>
    rw [newClientStream_spec { s with processing := processing } admin hclient]
    exact hs.newStream hsound rfl (by simp only [KHttp2Context.init]) rfl rfl rfl rfl rfl
      fun _ hc => (List.mem_cons.mp hc).symm
  | linkNode c hclient hnone howner hslip =>
    exact hs.linkNode hsound hnone howner (hslip.resolve_left hslips)
  | peerSid sid hserver hlast => exact hs.of_fields rfl rfl rfl rfl rfl rfl fun _ hc _ => hc
  | hold c hnode hlast => exact hs.of_fields rfl rfl rfl rfl rfl rfl fun _ hc _ => hc
  | letGo => exact hs.of_fields rfl rfl rfl rfl rfl rfl fun _ hc _ => hc
  | start c hserver hstream hparsed =>
    exact hs.startRequest ((hsound.served hserver).parsing c hstream hparsed)
  | response c hclient => exact hs.modify rfl rfl rfl rfl
  | release c howner =>
    refine hs.released (c := c) hsound s.state.stream ((s.links_release c).trans ?_)
      (sameWindows_releaseAdminCount _ c) (windowTrace_releaseAdminCount _ c)
      fun c' => canSend_releaseAdminCount
    simp only [Links.mk.injEq, true_and, and_true]
    exact (s.links.free_keeps c).2.2.1
  | gc c hclient =>
    refine hs.released (c := c) hsound s.state.stream ?_ (.of_fields rfl rfl rfl rfl)
      rfl fun _ => id
    calc (s.gc c).links = { (s.releaseStream c).links with owners := s.owners.erase c } := rfl
      _ = _ := by
        rw [links_releaseStream]
        simp only [Links.mk.injEq, true_and, and_true]
        exact (s.links.free_keeps c).2.2.1
  | wait c e hnode hopen hused => exact hs.wait e hopen
  | windows hchange hsends hparked =>
    have hu := hs.windowChange hsound hchange
    have hsoundU := hsound.windowChange hchange
    clear hchange hparked
    induction hsends with
    | refl => exact hu
    | tail hsends h ih => exact ih.sending (hsoundU.sends hsends) h
  | delete => exact hs.of_fields rfl rfl rfl rfl rfl rfl fun _ hc _ => hc
  | drop c hslip hserver hstream hparsed ht =>
    rename_i t
    have hlinks : t.links = { s.links.free c with owners := s.owners.erase c } :=
      (links_of_quiet ht).trans (s.links_release c)
    have hnone : (t.ctx c).node = none := by
      have h := congrFun (congrArg Links.node hlinks) c
      simp only [Links.node_free, if_true] at h
      exact h
    have htrace : windowTrace t.trace = windowTrace (s.releaseStream c).trace := by
      rw [← windowTrace_connTrace, ht.conn, windowTrace_connTrace, windowTrace_releaseAdminCount]
    rw [hnone]
    refine hs.released (c := c) hsound none ?_ ?_ ?_ fun c' hc' =>
      canSend_releaseAdminCount (canSend_of_calm (ht.ctx c') hc')
    · calc ((t.destroyNode c none).setState fun st => { st with stream := none }).links
          = { t.links with stream := none } := rfl
        _ = _ := by rw [hlinks]
    · refine (sameWindows_releaseAdminCount _ c).trans ((sameWindows_of_quiet ht).trans ?_)
      exact .of_fields rfl rfl rfl rfl
    · exact (windowTrace_cons rfl _).trans htrace
  | unqueue c hslip => exact hs.of_fields rfl rfl rfl rfl rfl rfl fun _ hc _ => hc

/-- A path without the slip. -/
theorem Agrees.path {slips : Slip → Prop} (hslips : ¬slips .staleWindow) {s t : KHttp2}
    (hsound : Sound s) (hs : Agrees s) (h : Path slips s t) : Agrees t := by
  induction h with
  | refl => exact hs
  | tail hpath hmove ih => exact ih.move hslips (hsound.path hpath) hmove

/-! ## Runs -/

/-- A blank connection agrees with what is allowed before anything is said. -/
theorem Blank.agrees {s : KHttp2} (h : Blank s) : Agrees s := by
  have hallow : s.granted = .start := by
    rw [granted, h.trace]
    rfl
  refine ⟨?_, ?_, ?_, fun c hnode _ => ?_, fun c _ _ => ?_, fun c _ => ?_, ?_⟩
  · rw [hallow, h.initWindow]
    rfl
  · rw [hallow, h.frameSize]
    rfl
  · rw [hallow, h.sendWindow]
    rfl
  · rw [h.ctx c] at hnode
    cases hnode
  · rw [hallow]
    rfl
  · rw [hallow]
    rfl
  · rw [h.trace]
    trivial

/-- A run in which no client stream gets its node with more than the initial window. -/
def LinksFresh (codes : HuffDecodeCodes) (s : KHttp2) (es : List Event) : Prop :=
  Along codes (fun s e => ¬slipsIn codes s e .staleWindow) s es

/-- A connection obeys its peer: every DATA frame was permitted when it was queued, its windows
and limits are the ones the peer counts, and no window leaves its range. -/
structure Obeys (s : KHttp2) : Prop where
  kept : Kept s.trace
  frame : s.frameSize = s.granted.frameSize
  init : (s.initWindow : ℤ) = s.granted.initWindow
  conn : (s.sendWindow : ℤ) = s.granted.conn
  connMax : s.sendWindow ≤ maxWindow
  stream : ∀ c, (s.ctx c).node.isSome → (s.ctx c).rst = false →
    (s.ctx c).sendWindow ≤ s.granted.window c
  streamRange : ∀ c, -(maxWindow : ℤ) ≤ (s.ctx c).sendWindow ∧ (s.ctx c).sendWindow ≤ maxWindow

/-- Every state that such a run reaches obeys the peer. -/
theorem obeys_run (codes : HuffDecodeCodes) {s : KHttp2} (hs : Starts s) (es : List Event)
    (hfresh : LinksFresh codes s es) : Obeys (run codes s es) := by
  have hslips : Along codes (fun s e => ∀ slip, slipsIn codes s e slip → slip ≠ .staleWindow)
      s es := by
    refine Along.imp (fun t e hno slip hslip heq => ?_) es hfresh
    subst heq
    exact hno hslip
  obtain ⟨b, hb, hpath⟩ := path_of_starts codes hs es hslips
  have hagrees := hb.agrees.path (fun h => h rfl) hb.sound hpath
  have hbounded := (sound_run codes hs es).bounded
  exact ⟨hagrees.kept, hagrees.frame.symm, hagrees.init.symm, hagrees.conn.symm, hbounded.conn,
    fun c hnode hrst => hagrees.stream c hnode (Or.inr hrst),
    fun c => ⟨hbounded.streamMin c, hbounded.streamMax c⟩⟩

/-- On a server no stream waits for its node. -/
theorem linksFresh_of_server (codes : HuffDecodeCodes) (es : List Event) {s : KHttp2}
    (hsound : Sound s) (hhalted : Halted s) (hserver : s.clientModel = false) :
    LinksFresh codes s es := by
  induction es generalizing s with
  | nil => trivial
  | cons e es ih =>
    have hstep : Path (fun _ => True) s (step codes s e) :=
      path_step codes hsound hhalted e fun _ _ => trivial
    refine ⟨?_, ih (hsound.path hstep) (hhalted.path hsound hstep)
      ((hsound.clientModel_path hstep).trans hserver)⟩
    rintro ⟨c, op, -, hlinks, -⟩
    simp [linksNode, hserver] at hlinks

/-- A peer that allows three bytes on a stream, and later the rest of the answer. -/
def smallWindow : List Event :=
  [.read (clientPreface ++ [0, 0, 6, 4, 0, 0, 0, 0, 0, 0, 4, 0, 0, 0, 3] ++
      [0, 0, 1, 1, 5, 0, 0, 0, 1, 0x82]),
    .call 0 (.addStatus 200), .call 0 (.startResponseBody 5 false),
    .call 0 (.write [[1, 2, 3, 4, 5]] 5), .written 77,
    .call 0 (.write [[4, 5]] 2), .read [0, 0, 4, 8, 0, 0, 0, 0, 1, 0, 0, 0, 9]]

/-- The result at a server that answers in two DATA frames. -/
theorem obeys_run_smallWindow :
    Obeys (run (fun _ _ => ⟨0, 0, 0, 0⟩) (server 0 0 fun _ => .zero) smallWindow) ∧
      (run (fun _ _ => ⟨0, 0, 0, 0⟩) (server 0 0 fun _ => .zero) smallWindow).trace.countP
        Ev.isWindow = 4 :=
  ⟨obeys_run _ (.server 0 0 fun _ => .zero) _
    (linksFresh_of_server _ _ (sound_of_starts (.server 0 0 fun _ => .zero)).1
      (sound_of_starts (.server 0 0 fun _ => .zero)).2 rfl), by decide +kernel⟩

end KHttp2

end Khttpd
