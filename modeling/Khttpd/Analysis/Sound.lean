import Khttpd.Analysis.Specs

/-!
# What holds of every connection

Whatever slips it contains, a path keeps the table of streams in order and the windows within
their bounds, and a writer waits only on a stream that holds its node.
-/

set_option autoImplicit false

namespace Khttpd

namespace KHttp2

/-! ## Windows along a path -/

/-- The windows and the frame size are within their bounds. A stream without a node is not
adjusted to a new initial window; one that can still get its node has not used its window. -/
structure Bounded (s : KHttp2) : Prop where
  frameMin : defaultFrameSize ≤ s.frameSize
  frameMax : s.frameSize ≤ maxFrameSize
  conn : s.sendWindow ≤ maxWindow
  init : s.initWindow ≤ maxWindow
  streamMin : ∀ c, -(maxWindow : ℤ) ≤ (s.ctx c).sendWindow
  streamMax : ∀ c, (s.ctx c).sendWindow ≤ maxWindow
  linked : ∀ c, (s.ctx c).node.isSome → (s.initWindow : ℤ) - maxWindow ≤ (s.ctx c).sendWindow
  unused : ∀ c ∈ s.owners, (s.ctx c).node = none → 0 ≤ (s.ctx c).sendWindow

/-- A step that touches no window and makes no writer wait. -/
structure SameWindows (s t : KHttp2) : Prop where
  frame : t.frameSize = s.frameSize
  conn : t.sendWindow = s.sendWindow
  init : t.initWindow = s.initWindow
  stream : ∀ c, (t.ctx c).sendWindow = (s.ctx c).sendWindow
  waits : ∀ c, (t.ctx c).waitsForWindow = true → (s.ctx c).waitsForWindow = true

/-- Two such steps are one. -/
theorem SameWindows.trans {s t u : KHttp2} (hst : SameWindows s t) (htu : SameWindows t u) :
    SameWindows s u where
  frame := htu.frame.trans hst.frame
  conn := htu.conn.trans hst.conn
  init := htu.init.trans hst.init
  stream c := (htu.stream c).trans (hst.stream c)
  waits c h := hst.waits c (htu.waits c h)

/-- A quiet step touches no window. -/
theorem sameWindows_of_quiet {s t : KHttp2} (h : Quiet s t) : SameWindows s t where
  frame := h.frameSize
  conn := h.sendWindow
  init := h.initWindow
  stream c := (h.ctx c).sendWindow
  waits c := (h.ctx c).waits

/-- Neither does an assignment to other fields of a stream. -/
theorem sameWindows_modify {s : KHttp2} {c : CtxId} {f : KHttp2Context → KHttp2Context}
    (hwindow : (f (s.ctx c)).sendWindow = (s.ctx c).sendWindow)
    (hwait : (f (s.ctx c)).writeWait = (s.ctx c).writeWait) : SameWindows s (s.modify c f) := by
  refine ⟨rfl, rfl, rfl, fun c' => ?_, fun c' => ?_⟩
  · by_cases hc : c' = c
    · subst hc
      simpa only [modify, Function.update_self] using hwindow
    · simp only [modify, Function.update_of_ne hc]
  · by_cases hc : c' = c
    · subst hc
      simp only [modify, Function.update_self, KHttp2Context.waitsForWindow, hwait]
      exact id
    · simp only [modify, Function.update_of_ne hc]
      exact id

/-- A step that leaves the streams and the windows alone. -/
theorem SameWindows.of_fields {s t : KHttp2} (hctx : t.ctx = s.ctx)
    (hframe : t.frameSize = s.frameSize) (hconn : t.sendWindow = s.sendWindow)
    (hinit : t.initWindow = s.initWindow) : SameWindows s t :=
  ⟨hframe, hconn, hinit, fun c => by rw [hctx], fun c => by rw [hctx]; exact id⟩

/-- Unlinking a node touches no window. -/
theorem sameWindows_destroyNode (s : KHttp2) (c : CtxId) (node : Option ℕ) :
    SameWindows s (s.destroyNode c node) := by
  cases node with
  | none => exact .of_fields rfl rfl rfl rfl
  | some id => exact .of_fields rfl rfl rfl rfl

/-- Giving a client stream its node touches no window. -/
theorem sameWindows_linkNode (s : KHttp2) (c : CtxId) : SameWindows s (s.linkNode c) := by
  unfold linkNode
  extract_lets s1
  have h1 : SameWindows s (s1.newNode s1.lastSelfSid c) := .of_fields rfl rfl rfl rfl
  exact h1.trans (sameWindows_modify rfl rfl)

/-- Starting a request touches no window. -/
theorem sameWindows_startRequest (s : KHttp2) (c : CtxId) : SameWindows s (s.startRequest c) := by
  unfold startRequest
  extract_lets s1
  have h0 : SameWindows s (s.setState fun st => { st with stream := none }) :=
    .of_fields rfl rfl rfl rfl
  have h1 : SameWindows s s1 := h0.trans (sameWindows_modify rfl rfl)
  exact h1.trans (.of_fields rfl rfl rfl rfl)

/-- Releasing a stream touches no window. -/
theorem sameWindows_releaseStream (s : KHttp2) (c : CtxId) :
    SameWindows s (s.releaseStream c) := by
  obtain ⟨t, ht, -, -, heq⟩ := s.releaseStream_spec c
  rw [heq]
  refine (sameWindows_of_quiet ht).trans ?_
  cases (s.ctx c).node with
  | none => exact .of_fields rfl rfl rfl rfl
  | some id => exact (t.sameWindows_destroyNode c _).trans (sameWindows_modify rfl rfl)

/-- Neither does handing it to `release_admin`. -/
theorem sameWindows_releaseAdminCount (s : KHttp2) (c : CtxId) :
    SameWindows s (s.releaseAdminCount c) := by
  obtain ⟨-, -, -, -, -, -, -, -, hconn, hinit, hframe, -⟩ := s.releaseAdminCount_spec c
  refine ⟨hframe, hconn, hinit, fun c' => ?_, fun c' => ?_⟩
  · obtain ⟨mark, hctx⟩ := s.releaseAdminCount_ctx c c'
    rw [hctx]
  · obtain ⟨mark, hctx⟩ := s.releaseAdminCount_ctx c c'
    rw [hctx]
    exact id

/-- A step that touches no window and links no stream keeps the bounds. -/
theorem Bounded.of_same {s t : KHttp2} (hs : Bounded s) (h : SameWindows s t)
    (hnode : ∀ c, (t.ctx c).node.isSome → (s.ctx c).node.isSome)
    (howners : ∀ c ∈ t.owners, c ∈ s.owners ∧ (t.ctx c).node = (s.ctx c).node) : Bounded t where
  frameMin := h.frame ▸ hs.frameMin
  frameMax := h.frame ▸ hs.frameMax
  conn := h.conn ▸ hs.conn
  init := h.init ▸ hs.init
  streamMin c := h.stream c ▸ hs.streamMin c
  streamMax c := h.stream c ▸ hs.streamMax c
  linked c hc := by
    rw [h.init, h.stream c]
    exact hs.linked c (hnode c hc)
  unused c hc hnone := by
    obtain ⟨howner, hsame⟩ := howners c hc
    rw [h.stream c]
    exact hs.unused c howner (hsame.symm.trans hnone)

/-- The bounds of a step that keeps the table of streams. -/
theorem Bounded.of_links {s t : KHttp2} (hs : Bounded s) (h : SameWindows s t)
    (hlinks : t.links = s.links) : Bounded t := by
  have hnode : ∀ c, (t.ctx c).node = (s.ctx c).node :=
    fun c => congrFun (congrArg Links.node hlinks) c
  have howners : t.owners = s.owners := congrArg Links.owners hlinks
  refine hs.of_same h (fun c hc => hnode c ▸ hc) fun c hc => ⟨howners ▸ hc, hnode c⟩

/-- A step that sets the window of one linked stream keeps the bounds if the window is within
them. -/
theorem Bounded.of_update {s t : KHttp2} (hs : Bounded s) {c : CtxId} {ctx : KHttp2Context}
    (hframe : t.frameSize = s.frameSize) (hinit : t.initWindow = s.initWindow)
    (hconn : t.sendWindow ≤ maxWindow) (hctx : t.ctx = Function.update s.ctx c ctx)
    (hlinks : t.links = s.links) (hlinked : (s.ctx c).node.isSome)
    (hmin : (s.initWindow : ℤ) - maxWindow ≤ ctx.sendWindow) (hmax : ctx.sendWindow ≤ maxWindow) :
    Bounded t := by
  have hnode : ∀ c, (t.ctx c).node = (s.ctx c).node :=
    fun c => congrFun (congrArg Links.node hlinks) c
  have howners : t.owners = s.owners := congrArg Links.owners hlinks
  have hself : t.ctx c = ctx := by rw [hctx, Function.update_self]
  have hother : ∀ c', c' ≠ c → t.ctx c' = s.ctx c' := fun c' hc => by
    rw [hctx, Function.update_of_ne hc]
  refine ⟨hframe ▸ hs.frameMin, hframe ▸ hs.frameMax, hconn, hinit ▸ hs.init, ?_, ?_, ?_, ?_⟩
  · intro c'
    by_cases hc : c' = c
    · subst hc
      rw [hself]
      omega
    · exact hother c' hc ▸ hs.streamMin c'
  · intro c'
    by_cases hc : c' = c
    · subst hc
      rw [hself]
      exact hmax
    · exact hother c' hc ▸ hs.streamMax c'
  · intro c' hc'
    rw [hinit]
    by_cases hc : c' = c
    · subst hc
      rw [hself]
      exact hmin
    · rw [hother c' hc] at hc' ⊢
      exact hs.linked c' hc'
  · intro c' hc' hnone
    rw [howners] at hc'
    rw [hnode] at hnone
    have hc : c' ≠ c := by
      rintro rfl
      exact Option.isSome_iff_ne_none.mp hlinked hnone
    rw [hother c' hc]
    exact hs.unused c' hc' hnone

/-- The windows that a DATA frame leaves. -/
theorem sendData_windows {s : KHttp2} (hs : Bounded s) {c : CtxId} {e : WriteEvent} {len : ℕ}
    (hnode : (s.ctx c).node.isSome) (hstream : (len : ℤ) ≤ (s.ctx c).sendWindow)
    (hconn : len ≤ s.sendWindow) :
    ((s.sendData c e len).ctx c).sendWindow = (s.ctx c).sendWindow - s.dataLength c e len ∧
      ((s.sendData c e len).sendWindow : ℤ) = s.sendWindow - s.dataLength c e len := by
  obtain ⟨hctx, hwindow, -⟩ := s.sendData_spec c e len hnode
  have hle := s.dataLength_le c e len
  have hmax := hs.streamMax c
  have hconnMax := hs.conn
  simp only [maxWindow] at hmax hconnMax
  refine ⟨?_, ?_⟩
  · rw [hctx, Function.update_self]
    exact toInt32_of_range (by omega) (by omega)
  · rw [hwindow]
    exact toUint32_of_range (by omega) (by omega)

/-- A step of a writer keeps the bounds. -/
theorem Bounded.sending {s t : KHttp2} (hs : Bounded s) (h : Sending s t) : Bounded t := by
  cases h with
  | quiet h => exact hs.of_links (sameWindows_of_quiet h) (links_of_quiet h)
  | send c e len hnode hopen hpos hframe hstream hconn =>
    obtain ⟨hctx, -⟩ := s.sendData_spec c e len hnode
    obtain ⟨hlinks, -, hinit, hsize, -⟩ := s.sendData_keeps c e len hnode
    obtain ⟨hnew, hnewConn⟩ := sendData_windows hs (e := e) hnode hstream hconn
    rw [hctx, Function.update_self] at hnew
    have hle := s.dataLength_le c e len
    have hmax := hs.streamMax c
    have hmin := hs.init
    have hconnMax := hs.conn
    refine hs.of_update hsize hinit (by omega) hctx hlinks hnode ?_ ?_
    · rw [hnew]
      omega
    · rw [hnew]
      omega

/-- A change of windows keeps the bounds. -/
theorem Bounded.windowChange {s t : KHttp2} (hgood : s.links.Good) (hs : Bounded s)
    (h : WindowChange s t) : Bounded t := by
  have hlinks := links_windowChange hgood h
  cases h with
  | stream c window hnode h =>
    have hmin := hs.linked c hnode
    have hmax := hs.streamMax c
    have hinit := hs.init
    have hroom := toUint32_of_range (n := maxWindow - (s.ctx c).sendWindow)
      (by simp only [maxWindow] at *; omega) (by simp only [maxWindow] at *; omega)
    have hsum : toInt32 ((s.ctx c).sendWindow + window) = (s.ctx c).sendWindow + window := by
      simp only [maxWindow] at *
      exact toInt32_of_range (by omega) (by omega)
    refine hs.of_update (c := c) rfl rfl hs.conn rfl hlinks hnode ?_ ?_
    · simp only [log, hsum]
      omega
    · simp only [log, hsum]
      omega
  | conn window h =>
    have hconn := hs.conn
    have hroom := toUint32_of_range (n := (maxWindow : ℤ) - s.sendWindow)
      (by simp only [maxWindow] at *; omega) (by simp only [maxWindow] at *; omega)
    have hsum := toUint32_of_range (n := (s.sendWindow : ℤ) + window)
      (by omega) (by simp only [maxWindow] at *; omega)
    refine ⟨hs.frameMin, hs.frameMax, ?_, hs.init, hs.streamMin, hs.streamMax, hs.linked,
      hs.unused⟩
    dsimp only
    omega
  | initial value h =>
    rw [adjustAll_eq hgood] at hlinks ⊢
    refine ⟨hs.frameMin, hs.frameMax, hs.conn, h, fun c => ?_, fun c => ?_, fun c hc => ?_,
      fun c hc hnone => ?_⟩
    · dsimp only
      split
      · rename_i hnode
        have hwindow := adjustCtx_sendWindow hs.init h (hs.linked c hnode) (hs.streamMax c)
        dsimp only at hwindow
        omega
      · exact hs.streamMin c
    · dsimp only
      split
      · rename_i hnode
        exact (adjustCtx_sendWindow hs.init h (hs.linked c hnode) (hs.streamMax c)).2.1
      · exact hs.streamMax c
    · have hnode : (s.ctx c).node.isSome := by
        have heq := congrFun (congrArg Links.node hlinks) c
        simp only [links] at heq
        exact heq ▸ hc
      dsimp only
      rw [if_pos hnode]
      exact (adjustCtx_sendWindow hs.init h (hs.linked c hnode) (hs.streamMax c)).1
    · have hnode : (s.ctx c).node = none := by
        have heq := congrFun (congrArg Links.node hlinks) c
        simp only [links] at heq
        exact heq.symm.trans hnone
      dsimp only
      rw [if_neg (by simp [hnode])]
      exact hs.unused c hc hnode
  | frame value hmin hmax =>
    exact ⟨hmin, hmax, hs.conn, hs.init, hs.streamMin, hs.streamMax, hs.linked, hs.unused⟩
  | other id value hinit hframe =>
    exact hs.of_same (.of_fields rfl rfl rfl rfl) (fun c hc => hc) fun c hc => ⟨hc, rfl⟩

/-! ## Soundness -/

/-- What holds of every connection. -/
structure Sound (s : KHttp2) : Prop where
  good : s.links.Good
  served : s.clientModel = false → s.links.Served
  waiting : ∀ c, (s.ctx c).waitsForWindow = true → (s.ctx c).node.isSome
  bounded : Bounded s

/-- A step that keeps the table of streams and makes no writer wait. -/
theorem Sound.of_links {s t : KHttp2} (hs : Sound s) (hlinks : t.links = s.links)
    (hwaits : ∀ c, (t.ctx c).waitsForWindow = true → (s.ctx c).waitsForWindow = true)
    (hbounded : Bounded t) : Sound t where
  good := hlinks ▸ hs.good
  served h := hlinks ▸ hs.served ((congrArg Links.clientModel hlinks).symm.trans h)
  waiting c hc := by
    have hnode : (t.ctx c).node = (s.ctx c).node := congrFun (congrArg Links.node hlinks) c
    rw [hnode]
    exact hs.waiting c (hwaits c hc)
  bounded := hbounded

/-- A quiet step keeps a connection sound. -/
theorem Sound.quiet {s t : KHttp2} (hs : Sound s) (h : Quiet s t) : Sound t :=
  hs.of_links (links_of_quiet h) (fun c => (h.ctx c).waits)
    (hs.bounded.of_links (sameWindows_of_quiet h) (links_of_quiet h))

/-- A step of a writer keeps a connection sound. -/
theorem Sound.sending {s t : KHttp2} (hs : Sound s) (h : Sending s t) : Sound t := by
  have hbounded := hs.bounded.sending h
  cases h with
  | quiet h => exact hs.quiet h
  | send c e len hnode hopen hpos hframe hstream hconn =>
    obtain ⟨hctx, -⟩ := s.sendData_spec c e len hnode
    refine hs.of_links (s.sendData_keeps c e len hnode).1 (fun c' => ?_) hbounded
    by_cases hc : c' = c
    · subst hc
      rw [waits_sendData hnode]
      exact Bool.noConfusion
    · rw [hctx, Function.update_of_ne hc]
      exact id

/-- A stream that gets its node keeps a connection sound. -/
theorem Sound.linkNode {s : KHttp2} (hs : Sound s) {c : CtxId} (hclient : s.clientModel = true)
    (hnone : (s.ctx c).node = none) (howner : c ∈ s.owners) : Sound (s.linkNode c) := by
  have hctx : ∀ c', c' ≠ c → ((s.linkNode c).ctx c') = s.ctx c' := fun c' hc => by
    simp only [KHttp2.linkNode, modify, Function.update_of_ne hc]
    rfl
  have hself : ((s.linkNode c).ctx c) = { s.ctx c with node := some (s.lastSelfSid + 2) } := by
    simp only [KHttp2.linkNode, modify, Function.update_self]
    rfl
  have hsame := s.sameWindows_linkNode c
  refine ⟨?_, fun h => absurd (hclient.symm.trans h) Bool.noConfusion, fun c' hc' => ?_, ?_⟩
  · rw [links_linkNode]
    have hgood : ({ s.links with lastSelfSid := s.lastSelfSid + 2 } : Links).Good :=
      ⟨hs.good.bucket, hs.good.held, hs.good.nodup, hs.good.linked, hs.good.fresh, hs.good.known,
        hs.good.distinct, fun h i n hn => (hs.good.selfSid h i n hn).trans (Nat.le_add_right _ 2)⟩
    refine hgood.link hnone (hs.good.known c howner) (fun n hn hid => ?_) fun _ => Nat.le_refl _
    have hle := hs.good.selfSid hclient _ n hn
    simp only [links] at hle
    omega
  · by_cases hc : c' = c
    · subst hc
      rw [hself]
      rfl
    · have hwaits := hsame.waits c' hc'
      rw [hctx c' hc]
      exact hs.waiting c' hwaits
  · have hb := hs.bounded
    have hunused := hb.unused c howner hnone
    have hinit := hb.init
    refine ⟨hb.frameMin, hb.frameMax, hb.conn, hb.init, fun c' => ?_, fun c' => ?_,
      fun c' hc' => ?_, fun c' hc' hnot => ?_⟩
    · exact hsame.stream c' ▸ hb.streamMin c'
    · exact hsame.stream c' ▸ hb.streamMax c'
    · rw [hsame.stream c', hsame.init]
      by_cases hc : c' = c
      · subst hc
        omega
      · rw [hctx c' hc] at hc'
        exact hb.linked c' hc'
    · have hc : c' ≠ c := by
        rintro rfl
        rw [hself] at hnot
        cases hnot
      rw [hctx c' hc] at hnot ⊢
      exact hb.unused c' hc' hnot

/-- A new stream without a node keeps the bounds. -/
theorem Bounded.newStream {s t : KHttp2} (hs : Bounded s)
    {ctx : KHttp2Context} (hctx : t.ctx = Function.update s.ctx s.nextCtx ctx)
    (hwindow : ctx.sendWindow = toInt32 s.initWindow) (hframe : t.frameSize = s.frameSize)
    (hconn : t.sendWindow = s.sendWindow) (hinit : t.initWindow = s.initWindow)
    (howners : ∀ c ∈ t.owners, c ∈ s.owners ∨ c = s.nextCtx) : Bounded t := by
  have hmax := hs.init
  have hvalue : ctx.sendWindow = s.initWindow := by
    rw [hwindow]
    simp only [maxWindow] at hmax
    exact toInt32_of_range (by omega) (by omega)
  have hself : t.ctx s.nextCtx = ctx := by rw [hctx, Function.update_self]
  have hother : ∀ c, c ≠ s.nextCtx → t.ctx c = s.ctx c := fun c hc => by
    rw [hctx, Function.update_of_ne hc]
  refine ⟨hframe ▸ hs.frameMin, hframe ▸ hs.frameMax, hconn ▸ hs.conn, hinit ▸ hs.init,
    fun c => ?_, fun c => ?_, fun c hc => ?_, fun c hc hnone => ?_⟩
  · by_cases hc : c = s.nextCtx
    · rw [hc, hself, hvalue]
      omega
    · exact hother c hc ▸ hs.streamMin c
  · by_cases hc : c = s.nextCtx
    · rw [hc, hself, hvalue]
      omega
    · exact hother c hc ▸ hs.streamMax c
  · rw [hinit]
    by_cases hcc : c = s.nextCtx
    · rw [hcc, hself, hvalue]
      omega
    · rw [hother c hcc] at hc ⊢
      exact hs.linked c hc
  · by_cases hcc : c = s.nextCtx
    · rw [hcc, hself, hvalue]
      omega
    · rw [hother c hcc] at hnone ⊢
      exact hs.unused c ((howners c hc).resolve_right hcc) hnone

/-- An identifier that the peer uses keeps a connection sound. -/
theorem Sound.peerSid {s : KHttp2} (hs : Sound s) (sid : ℕ) : Sound { s with lastPeerSid := sid } :=
  hs.of_links rfl (fun _ => id)
    (hs.bounded.of_links (.of_fields rfl rfl rfl rfl) rfl)

/-- A stream that starts on a server keeps a connection sound. -/
theorem Sound.openStream {s : KHttp2} (hs : Sound s) (p : Bytes) (hserver : s.clientModel = false)
    (hnew : s.getNode s.state.sid = none) : Sound (s.headersNewStream p).1 := by
  obtain ⟨ctx, st, trace, hnode, hparsed, -, -, hwindow, hwait, hstream, -, heq⟩ :=
    s.headersNewStream_spec p
  have hfresh := hs.good.fresh s.nextCtx (Nat.le_refl _)
  have hlinks : (s.headersNewStream p).1.links =
      { s.links.create.link s.state.sid s.nextCtx with stream := some s.nextCtx } := by
    rw [heq]
    simp only [links, Links.create, Links.link, hstream, Links.mk.injEq, true_and, and_true]
    constructor
    · funext c
      by_cases hc : c = s.nextCtx
      · subst hc
        simp only [Function.update_self, hnode]
      · simp only [Function.update_of_ne hc]
    · funext c
      by_cases hc : c = s.nextCtx
      · subst hc
        simp only [Function.update_self, hparsed]
      · simp only [Function.update_of_ne hc]
  have hother : ∀ c, c ≠ s.nextCtx → (s.headersNewStream p).1.ctx c = s.ctx c := fun c hc => by
    rw [heq]
    simp only [Function.update_of_ne hc]
  refine ⟨?_, fun h => ?_, fun c hc => ?_, ?_⟩
  · rw [hlinks]
    have hgood : (s.links.create.link s.state.sid s.nextCtx).Good := by
      refine hs.good.create.link ?_ (Nat.lt_succ_self _) (ne_of_getNode hnew) fun h => ?_
      · simp only [Links.create, links, Function.update_self]
      · exact absurd (hserver.symm.trans h) Bool.noConfusion
    exact hgood.of_owners (List.Sublist.refl _) _
  · rw [hlinks]
    have hserved := hs.served hserver
    refine ⟨fun c hc => ?_, fun c hc _ => ?_⟩
    · obtain ⟨hsome, hdone⟩ := hserved.owned c hc
      have hne : c ≠ s.nextCtx := by
        rintro rfl
        exact Option.isSome_iff_ne_none.mp hsome hfresh
      simp only [Links.link, Links.create, links, Function.update_of_ne hne] at hsome hdone ⊢
      exact ⟨hsome, hdone⟩
    · cases hc
      simp only [Links.link, Function.update_self, Option.isSome_some]
  · by_cases hcc : c = s.nextCtx
    · subst hcc
      rw [heq] at hc
      simp only [Function.update_self, KHttp2Context.waitsForWindow, hwait, Option.any_none] at hc
      cases hc
    · rw [hother c hcc] at hc ⊢
      exact hs.waiting c hc
  · rw [heq]
    exact hs.bounded.newStream rfl hwindow rfl rfl rfl fun c hc => Or.inl hc

/-- A stream that a client makes keeps a connection sound. -/
theorem Sound.newClientStream {s : KHttp2} (hs : Sound s) (hclient : s.clientModel = true)
    (processing : ℤ) (admin : Bool) :
    Sound ({ s with processing := processing }.newClientStream admin) := by
  rw [newClientStream_spec { s with processing := processing } admin hclient]
  have hfresh := hs.good.fresh s.nextCtx (Nat.le_refl _)
  have hlinks : { s.links.create with owners := s.nextCtx :: s.owners } = links { s with
      processing := processing
      nextCtx := s.nextCtx + 1
      ctx := Function.update s.ctx s.nextCtx
        { KHttp2Context.init (toInt32 s.initWindow) with adminStream := admin }
      owners := s.nextCtx :: s.owners } := by
    simp only [links, Links.create, Links.mk.injEq, true_and, and_true]
    constructor
    · funext c
      by_cases hc : c = s.nextCtx
      · subst hc
        simp only [Function.update_self]
        rfl
      · simp only [Function.update_of_ne hc]
    · funext c
      by_cases hc : c = s.nextCtx
      · subst hc
        simp only [Function.update_self]
        rfl
      · simp only [Function.update_of_ne hc]
  refine ⟨?_, fun h => absurd (hclient.symm.trans h) Bool.noConfusion, fun c hc => ?_, ?_⟩
  · rw [← hlinks]
    have hgood := hs.good.create
    refine ⟨hgood.bucket, hgood.held, hgood.nodup, hgood.linked, hgood.fresh, fun c hc => ?_, ?_,
      hgood.selfSid⟩
    · rcases List.mem_cons.mp hc with rfl | hc
      · exact Nat.lt_succ_self s.nextCtx
      · exact hgood.known c hc
    · exact List.nodup_cons.mpr
        ⟨fun h => Nat.lt_irrefl _ (hs.good.known s.nextCtx h), hs.good.distinct⟩
  · by_cases hcc : c = s.nextCtx
    · subst hcc
      simp only [Function.update_self] at hc
      cases hc
    · simp only [Function.update_of_ne hcc] at hc ⊢
      exact hs.waiting c hc
  · refine hs.bounded.newStream rfl (by simp only [KHttp2Context.init]) rfl rfl rfl
      fun c hc => ?_
    exact (List.mem_cons.mp hc).symm.imp id id

/-- The stream after it was released. -/
theorem node_releaseStream (s : KHttp2) (c c' : CtxId) :
    ((s.releaseStream c).ctx c').node = if c' = c then none else (s.ctx c').node := by
  have h := congrFun (congrArg Links.node (s.links_releaseStream c)) c'
  rw [Links.node_free] at h
  exact h

/-- Nobody waits on a stream that was released. -/
theorem waits_releaseStream (s : KHttp2) (c : CtxId) :
    ((s.releaseStream c).ctx c).waitsForWindow = false := by
  obtain ⟨u, -, hwaits, -, heq⟩ := s.releaseStream_spec c
  rw [heq]
  cases (s.ctx c).node with
  | none => exact hwaits
  | some id =>
    simp only [modify, Function.update_self]
    exact hwaits

/-- A stream that is released, by a request that runs or by the parser, keeps a connection
sound. -/
theorem Sound.released {s t : KHttp2} (hs : Sound s) {c : CtxId} (stream : Option CtxId)
    (hlinks : t.links = { s.links.free c with owners := s.owners.erase c, stream := stream })
    (hsame : SameWindows (s.releaseStream c) t)
    (hserved : s.clientModel = false →
      ({ s.links.free c with owners := s.owners.erase c, stream := stream } : Links).Served) :
    Sound t := by
  have hnode : ∀ c', (t.ctx c').node = if c' = c then none else (s.ctx c').node := fun c' => by
    have h := congrFun (congrArg Links.node hlinks) c'
    simp only [Links.node_free] at h
    exact h
  have hclient : t.clientModel = s.clientModel :=
    (congrArg Links.clientModel hlinks).trans (s.links.free_keeps c).2.2.2.2
  have howners : t.owners = s.owners.erase c := congrArg Links.owners hlinks
  refine ⟨?_, fun h => ?_, fun c' hc' => ?_, ?_⟩
  · rw [hlinks]
    refine (hs.good.free c).of_owners ?_ stream
    rw [(s.links.free_keeps c).2.1]
    exact List.erase_sublist
  · rw [hlinks]
    exact hserved (hclient ▸ h)
  · have hwaits := hsame.waits c' hc'
    have hc : c' ≠ c := by
      rintro rfl
      exact Bool.false_ne_true ((s.waits_releaseStream c').symm.trans hwaits)
    rw [hnode, if_neg hc]
    exact hs.waiting c' ((s.sameWindows_releaseStream c).waits c' hwaits)
  · refine hs.bounded.of_same ((s.sameWindows_releaseStream c).trans hsame) (fun c' hc' => ?_)
      fun c' hc' => ?_
    · rw [hnode] at hc'
      split at hc'
      · cases hc'
      · exact hc'
    · rw [howners] at hc'
      obtain ⟨hne, hmem⟩ := hs.good.distinct.mem_erase_iff.mp hc'
      refine ⟨hmem, ?_⟩
      rw [hnode, if_neg hne]

/-- A request that hands its stream back keeps a connection sound. -/
theorem Sound.release {s : KHttp2} (hs : Sound s) {c : CtxId}
    (howner : s.clientModel = true ∨ c ∈ s.owners) :
    Sound ((s.releaseStream c).releaseAdminCount c) := by
  refine hs.released s.state.stream ?_ (sameWindows_releaseAdminCount _ c) fun h => ?_
  · rw [links_release]
    simp only [Links.mk.injEq, true_and, and_true]
    exact (s.links.free_keeps c).2.2.1
  · have hmem := howner.resolve_left fun h' => Bool.noConfusion (h'.symm.trans h)
    have hserved := (hs.served h).release hs.good ((hs.served h).owned c hmem).2
    have hstream : (s.links.free c).stream = s.state.stream := (s.links.free_keeps c).2.2.1
    rw [← hstream]
    exact hserved

/-- A stream that the parser drops keeps a connection sound. -/
theorem Sound.drop {s t : KHttp2} (hs : Sound s) {c : CtxId}
    (ht : Quiet ((s.releaseStream c).releaseAdminCount c) t) :
    Sound ((t.destroyNode c (t.ctx c).node).setState fun st => { st with stream := none }) := by
  have hlinks : t.links = { s.links.free c with owners := s.owners.erase c } :=
    (links_of_quiet ht).trans (s.links_release c)
  have hnone : (t.ctx c).node = none := by
    have h := congrFun (congrArg Links.node hlinks) c
    simp only [Links.node_free, if_true] at h
    exact h
  rw [hnone]
  refine hs.released (c := c) none ?_ ?_ fun h => (hs.served h).drop hs.good c
  · have hsame : (t.destroyNode c none).links = t.links := rfl
    calc ((t.destroyNode c none).setState fun st => { st with stream := none }).links
        = { t.links with stream := none } := rfl
      _ = _ := by rw [hlinks]
  · refine (sameWindows_releaseAdminCount _ c).trans ((sameWindows_of_quiet ht).trans ?_)
    exact .of_fields rfl rfl rfl rfl

/-- The admin stream that goes to the pool keeps a connection sound. -/
theorem Sound.gc {s : KHttp2} (hs : Sound s) {c : CtxId} (hclient : s.clientModel = true) :
    Sound (s.gc c) := by
  refine hs.released (c := c) s.state.stream ?_ (.of_fields rfl rfl rfl rfl)
    fun h => absurd (hclient.symm.trans h) Bool.noConfusion
  calc (s.gc c).links = { (s.releaseStream c).links with owners := s.owners.erase c } := rfl
    _ = _ := by
      rw [links_releaseStream]
      simp only [Links.mk.injEq, true_and, and_true]
      exact (s.links.free_keeps c).2.2.1

/-- The stream of the parser changes nothing but what it says itself. -/
theorem Sound.setStream {s : KHttp2} (hs : Sound s) {stream : Option CtxId}
    (h : ∀ c, stream = some c → (s.ctx c).node.isSome) :
    Sound (s.setState fun st => { st with stream := stream }) where
  good := hs.good.of_owners (List.Sublist.refl _) stream
  served hserver := ⟨(hs.served hserver).owned, fun c hc _ => h c hc⟩
  waiting := hs.waiting
  bounded := hs.bounded.of_same (.of_fields rfl rfl rfl rfl) (fun _ h => h) fun _ hc => ⟨hc, rfl⟩

/-- A request that starts keeps a connection sound. -/
theorem Sound.startRequest {s : KHttp2} (hs : Sound s) {c : CtxId} (hserver : s.clientModel = false)
    (hstream : s.state.stream = some c) (hparsed : (s.ctx c).parsedHeader = false) :
    Sound (s.startRequest c) := by
  have hserved := hs.served hserver
  have hnode : (s.ctx c).node.isSome := hserved.parsing c hstream hparsed
  have hnew : c ∉ s.owners := fun h =>
    Bool.false_ne_true (hparsed.symm.trans (hserved.owned c h).2)
  have hlinks : (s.startRequest c).links = { s.links with
      parsedHeader := Function.update s.links.parsedHeader c true
      stream := none
      owners := c :: s.owners } := by
    have h := links_modify (s.setState fun st => { st with stream := none }) c
      fun ctx => { ctx with parsedHeader := true }
    have hself : Function.update s.links.node c (s.ctx c).node = s.links.node :=
      Function.update_eq_self c s.links.node
    calc (s.startRequest c).links
        = { ((s.setState fun st => { st with stream := none }).modify c fun ctx =>
            { ctx with parsedHeader := true }).links with owners := c :: s.owners } := rfl
      _ = _ := by
        rw [h]
        simp only [Links.mk.injEq, and_true]
        exact ⟨rfl, hself, rfl, rfl, rfl, rfl, rfl⟩
  have hnodes : ∀ c', ((s.startRequest c).ctx c').node = (s.ctx c').node := fun c' =>
    congrFun (congrArg Links.node hlinks) c'
  have hsame := s.sameWindows_startRequest c
  refine ⟨?_, fun _ => ?_, fun c' hc' => ?_, ?_⟩
  · rw [hlinks]
    refine ⟨hs.good.bucket, hs.good.held, hs.good.nodup, hs.good.linked, hs.good.fresh,
      fun c' hc' => ?_, List.nodup_cons.mpr ⟨hnew, hs.good.distinct⟩, hs.good.selfSid⟩
    rcases List.mem_cons.mp hc' with rfl | hc'
    · refine Nat.lt_of_not_le fun hle => ?_
      exact Option.isSome_iff_ne_none.mp hnode (hs.good.fresh c' hle)
    · exact hs.good.known c' hc'
  · rw [hlinks]
    refine ⟨fun c' hc' => ?_, fun c' hc' => by cases hc'⟩
    rcases List.mem_cons.mp hc' with rfl | hc'
    · exact ⟨hnode, Function.update_self ..⟩
    · obtain ⟨hsome, hdone⟩ := hserved.owned c' hc'
      refine ⟨hsome, ?_⟩
      dsimp only
      by_cases hcc : c' = c
      · rw [hcc, Function.update_self]
      · rw [Function.update_of_ne hcc]
        exact hdone
  · rw [hnodes]
    exact hs.waiting c' (hsame.waits c' hc')
  · have hb := hs.bounded
    refine ⟨hb.frameMin, hb.frameMax, hb.conn, hb.init, fun c' => ?_, fun c' => ?_,
      fun c' hc' => ?_, fun c' hc' hnone => ?_⟩
    · exact hsame.stream c' ▸ hb.streamMin c'
    · exact hsame.stream c' ▸ hb.streamMax c'
    · rw [hnodes] at hc'
      exact hsame.stream c' ▸ hb.linked c' hc'
    · rw [hnodes] at hnone
      rw [hsame.stream c']
      rcases List.mem_cons.mp hc' with rfl | hc'
      · exact absurd hnone (Option.isSome_iff_ne_none.mp hnode)
      · exact hb.unused c' hc' hnone

/-- A response header that is complete keeps a connection sound. -/
theorem Sound.response {s : KHttp2} (hs : Sound s) {c : CtxId} (hclient : s.clientModel = true) :
    Sound (s.modify c fun ctx => { ctx with parsedHeader := true }) := by
  have hsame : SameWindows s (s.modify c fun ctx => { ctx with parsedHeader := true }) :=
    sameWindows_modify rfl rfl
  have hnode : Function.update s.links.node c (s.ctx c).node = s.links.node :=
    Function.update_eq_self c s.links.node
  have hnodes : ∀ c', ((s.modify c fun ctx => { ctx with parsedHeader := true }).ctx c').node =
      (s.ctx c').node := fun c' => by
    have h := congrFun (congrArg Links.node
      (links_modify s c fun ctx => { ctx with parsedHeader := true })) c'
    exact h.trans (congrFun hnode c')
  refine ⟨?_, fun h => absurd (hclient.symm.trans h) Bool.noConfusion, fun c' hc' => ?_, ?_⟩
  · rw [links_modify]
    dsimp only
    rw [hnode]
    exact ⟨hs.good.bucket, hs.good.held, hs.good.nodup, hs.good.linked, hs.good.fresh,
      hs.good.known, hs.good.distinct, hs.good.selfSid⟩
  · rw [hnodes]
    exact hs.waiting c' (hsame.waits c' hc')
  · exact hs.bounded.of_same hsame (fun c' hc' => hnodes c' ▸ hc') fun c' hc' => ⟨hc', hnodes c'⟩

/-- A write event on a linked stream keeps a connection sound. -/
theorem Sound.writeEvent {s : KHttp2} (hs : Sound s) {c : CtxId} (e : WriteEvent)
    (hnode : (s.ctx c).node.isSome) :
    Sound (s.modify c fun ctx => { ctx with writeWait := some e }) := by
  have hlinks := s.links_writeEvent c e
  have hother : ∀ c', c' ≠ c →
      ((s.modify c fun ctx => { ctx with writeWait := some e }).ctx c') = s.ctx c' :=
    fun c' hc => by simp only [modify, Function.update_of_ne hc]
  have hwindow : ∀ c',
      ((s.modify c fun ctx => { ctx with writeWait := some e }).ctx c').sendWindow =
        (s.ctx c').sendWindow := fun c' => by
    by_cases hc : c' = c
    · subst hc
      simp only [modify, Function.update_self]
    · rw [hother c' hc]
  have hnodes : ∀ c', ((s.modify c fun ctx => { ctx with writeWait := some e }).ctx c').node =
      (s.ctx c').node := fun c' => congrFun (congrArg Links.node hlinks) c'
  refine ⟨hlinks ▸ hs.good, fun h => hlinks ▸ hs.served h, fun c' hc' => ?_, ?_⟩
  · rw [hnodes]
    by_cases hc : c' = c
    · exact hc ▸ hnode
    · rw [hother c' hc] at hc'
      exact hs.waiting c' hc'
  · have hb := hs.bounded
    refine ⟨hb.frameMin, hb.frameMax, hb.conn, hb.init, fun c' => ?_, fun c' => ?_,
      fun c' hc' => ?_, fun c' hc' hnone => ?_⟩
    · exact hwindow c' ▸ hb.streamMin c'
    · exact hwindow c' ▸ hb.streamMax c'
    · rw [hnodes] at hc'
      exact hwindow c' ▸ hb.linked c' hc'
    · rw [hnodes] at hnone
      exact hwindow c' ▸ hb.unused c' hc' hnone

/-- A writer that starts to wait on a linked stream keeps a connection sound. -/
theorem Sound.wait {s : KHttp2} (hs : Sound s) {c : CtxId} (e : WriteEvent)
    (hnode : (s.ctx c).node.isSome) :
    Sound ((s.modify c fun ctx => { ctx with writeWait := some e }).addQueue c) :=
  (hs.writeEvent e hnode).quiet (calm_addQueue _ c).quiet

/-- A change of windows keeps a connection sound. -/
theorem Sound.windowChange {s t : KHttp2} (hs : Sound s) (h : WindowChange s t) : Sound t :=
  hs.of_links (links_windowChange hs.good h) (fun c hc => (waits_windowChange hs.good h c) ▸ hc)
    (hs.bounded.windowChange hs.good h)

/-- Every move keeps a connection sound. -/
theorem Sound.move {slips : Slip → Prop} {s t : KHttp2} (hs : Sound s) (h : Move slips s t) :
    Sound t := by
  cases h with
  | sending h => exact hs.sending h
  | openStream p hserver hnew hlast => exact (hs.peerSid s.state.sid).openStream p hserver hnew
  | peerSid sid hserver hlast => exact hs.peerSid sid
  | newClientStream processing admin hclient => exact hs.newClientStream hclient processing admin
  | linkNode c hclient hnone howner hslip => exact hs.linkNode hclient hnone howner
  | hold c hnode hlast => exact hs.setStream fun c' hc' => by cases hc'; exact hnode
  | letGo => exact hs.setStream fun c' hc' => by cases hc'
  | start c hserver hstream hparsed => exact hs.startRequest hserver hstream hparsed
  | response c hclient => exact hs.response hclient
  | release c howner => exact hs.release howner
  | gc c hclient => exact hs.gc hclient
  | wait c e hnode hopen hused => exact hs.wait e hnode
  | windows hchange hsends hparked =>
    have hu := hs.windowChange hchange
    clear hchange hparked
    induction hsends with
    | refl => exact hu
    | tail _ h ih => exact ih.sending h
  | delete =>
    exact hs.of_links rfl (fun c hc => hc) (hs.bounded.of_links (.of_fields rfl rfl rfl rfl) rfl)
  | drop c hslip hserver hstream hparsed ht => exact hs.drop ht
  | unqueue c hslip =>
    exact hs.of_links rfl (fun c hc => hc) (hs.bounded.of_links (.of_fields rfl rfl rfl rfl) rfl)

/-- Every path keeps a connection sound. -/
theorem Sound.path {slips : Slip → Prop} {s t : KHttp2} (hs : Sound s) (h : Path slips s t) :
    Sound t := by
  induction h with
  | refl => exact hs
  | tail _ hmove ih => exact ih.move hmove

/-- A move does not turn a server into a client. -/
theorem Sound.clientModel_move {slips : Slip → Prop} {s t : KHttp2} (hs : Sound s)
    (h : Move slips s t) : t.clientModel = s.clientModel := by
  have hsending : ∀ {u v : KHttp2}, Sending u v → v.clientModel = u.clientModel := by
    intro u v h
    cases h with
    | quiet h => exact h.clientModel
    | send c e len hnode hopen hpos hframe hstream hconn =>
      exact congrArg Links.clientModel (u.sendData_keeps c e len hnode).1
  have hrelease : ∀ c, ((s.releaseStream c).releaseAdminCount c).clientModel = s.clientModel :=
    fun c => (congrArg Links.clientModel (s.links_release c)).trans (s.links.free_keeps c).2.2.2.2
  cases h with
  | sending h => exact hsending h
  | openStream p hserver hnew hlast =>
    obtain ⟨ctx, st, trace, -, -, -, -, -, -, -, -, heq⟩ :=
      ({ s with lastPeerSid := s.state.sid } : KHttp2).headersNewStream_spec p
    rw [heq]
  | newClientStream processing admin hclient =>
    rw [newClientStream_spec { s with processing := processing } admin hclient]
  | release c howner => exact hrelease c
  | gc c hclient =>
    exact (congrArg Links.clientModel (s.links_releaseStream c)).trans
      (s.links.free_keeps c).2.2.2.2
  | wait c e hnode hopen hused => exact (calm_addQueue _ c).quiet.clientModel
  | windows hchange hsends hparked =>
    have hu := congrArg Links.clientModel (links_windowChange hs.good hchange)
    clear hchange hparked
    induction hsends with
    | refl => exact hu
    | tail _ h ih => exact (hsending h).trans ih
  | drop c hslip hserver hstream hparsed ht =>
    rename_i t
    have hdestroy : (t.destroyNode c (t.ctx c).node).clientModel = t.clientModel := by
      cases (t.ctx c).node <;> rfl
    exact hdestroy.trans (ht.clientModel.trans (hrelease c))
  | _ => rfl

/-- A path does not turn a server into a client. -/
theorem Sound.clientModel_path {slips : Slip → Prop} {s t : KHttp2} (hs : Sound s)
    (h : Path slips s t) : t.clientModel = s.clientModel := by
  induction h with
  | refl => rfl
  | tail hpath hmove ih => exact ((hs.path hpath).clientModel_move hmove).trans ih

end KHttp2

end Khttpd
