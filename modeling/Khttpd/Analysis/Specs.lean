import Khttpd.Analysis.Moves

/-!
# What the operations on streams and windows do

One lemma for each operation that is not quiet: which fields of the connection and of its streams
it changes, and how.
-/

set_option autoImplicit false

namespace Khttpd

/-! ## Numbers of 32 bits -/

/-- A number in the range of `int` is kept. -/
theorem toInt32_of_range {n : ℤ} (hmin : -(2 ^ 31) ≤ n) (hmax : n < 2 ^ 31) : toInt32 n = n := by
  unfold toInt32
  rw [Int.bmod_eq_of_le (by omega) (by omega)]

/-- A number in the range of `uint32_t` is kept. -/
theorem toUint32_of_range {n : ℤ} (hmin : 0 ≤ n) (hmax : n < 2 ^ 32) : (toUint32 n : ℤ) = n := by
  unfold toUint32
  rw [Int.emod_eq_of_lt hmin hmax]
  exact Int.toNat_of_nonneg hmin

/-! ## DATA frames -/

/-- The memory loop covers no more than it is asked to. -/
theorem sum_buildChain_le (chain : List Bytes) (totalBufLen len : ℕ) :
    ((buildChain chain totalBufLen len).map Http2Buff.used).sum ≤ len := by
  induction chain generalizing totalBufLen len with
  | nil => exact Nat.zero_le _
  | cons hot next ih =>
    unfold buildChain
    split
    · exact Nat.zero_le _
    · extract_lets bufLen used src buf
      have hbuf : buf.used = used := by
        simp only [buf, src, Http2Buff.ofBytes, List.length_take, used, bufLen]
        omega
      have hused : used ≤ len := Nat.min_le_left _ _
      split
      · have hrest := ih (totalBufLen - used) (len - used)
        simp only [List.map_cons, List.sum_cons, hbuf]
        omega
      · simp only [List.map_cons, List.map_nil, List.sum_cons, List.sum_nil, hbuf]
        omega

/-- The payload of a DATA frame is no longer than it may be. -/
theorem buildPayload_le (sendfile : Bool) (e : WriteEvent) (len : ℕ) :
    (buildPayload sendfile e len).2 ≤ len := by
  unfold buildPayload
  split
  · refine (Nat.mod_le _ _).trans (Nat.min_le_left _ _)
  · exact sum_buildChain_le _ _ _
  · exact Nat.zero_le _

namespace KHttp2

/-- The length of the DATA frame that `sendData` queues. -/
def dataLength (s : KHttp2) (c : CtxId) (e : WriteEvent) (len : ℕ) : ℕ :=
  (buildPayload (s.ctx c).sendfile e len).2

/-- Whether it ends the stream. -/
def lastData (s : KHttp2) (c : CtxId) (e : WriteEvent) (len : ℕ) : Bool :=
  0 < (s.ctx c).contentLeft && (s.ctx c).contentLeft - s.dataLength c e len ≤ 0

/-- The DATA frame is no longer than it may be. -/
theorem dataLength_le (s : KHttp2) (c : CtxId) (e : WriteEvent) (len : ℕ) :
    s.dataLength c e len ≤ len := buildPayload_le _ _ _

/-- What `sendData` does to the stream, to the connection window and to the trace; nothing else
that the results are about changes. -/
theorem sendData_spec (s : KHttp2) (c : CtxId) (e : WriteEvent) (len : ℕ)
    (hnode : (s.ctx c).node.isSome) :
      (s.sendData c e len).ctx = Function.update s.ctx c { s.ctx c with
        writeWait := some { e with len := s.dataLength c e len }
        contentLeft := if 0 < (s.ctx c).contentLeft
          then (s.ctx c).contentLeft - s.dataLength c e len else (s.ctx c).contentLeft
        outClosed := (s.ctx c).outClosed || s.lastData c e len
        sendWindow := toInt32 ((s.ctx c).sendWindow - s.dataLength c e len) } ∧
      (s.sendData c e len).sendWindow = toUint32 (s.sendWindow - s.dataLength c e len) ∧
      (s.sendData c e len).trace = .queued
        ⟨dataFrame, if s.lastData c e len then endStreamFlag else 0, (s.ctx c).node.getD 0,
          s.dataLength c e len, some c⟩ :: s.trace := by
  have hsome : (s.ctx c).node.isNone = false := by
    rw [← Option.not_isSome, hnode, Bool.not_true]
  refine ⟨?_, ?_, ?_⟩
  · simp only [sendData, pushFrame, log, modify, hsome, Bool.false_eq_true, if_false]
    rfl
  · simp only [sendData, pushFrame, log, modify, hsome, Bool.false_eq_true, if_false]
    rfl
  · simp only [sendData, pushFrame, log, modify, hsome, Bool.false_eq_true, if_false]
    rfl

/-- A writer whose frame was queued waits for its buffer, not for window. -/
theorem waits_sendData {s : KHttp2} {c : CtxId} {e : WriteEvent} {len : ℕ}
    (hnode : (s.ctx c).node.isSome) :
    ((s.sendData c e len).ctx c).waitsForWindow = false := by
  rw [(s.sendData_spec c e len hnode).1, Function.update_self]
  have hlen : ¬((s.dataLength c e len : ℤ) < 0) := by omega
  simp [KHttp2Context.waitsForWindow, WriteEvent.forWindow, hlen]

/-- The fields that `sendData` keeps. -/
theorem sendData_keeps (s : KHttp2) (c : CtxId) (e : WriteEvent) (len : ℕ)
    (hnode : (s.ctx c).node.isSome) :
    (s.sendData c e len).links = s.links ∧
      (s.sendData c e len).activeQueue = s.activeQueue ∧
      (s.sendData c e len).initWindow = s.initWindow ∧
      (s.sendData c e len).frameSize = s.frameSize ∧
      (s.sendData c e len).processing = s.processing := by
  have hsome : (s.ctx c).node.isNone = false := by
    rw [← Option.not_isSome, hnode, Bool.not_true]
  obtain ⟨hctx, -⟩ := s.sendData_spec c e len hnode
  have hkeep : ∀ c', ((s.sendData c e len).ctx c').node = (s.ctx c').node ∧
      ((s.sendData c e len).ctx c').parsedHeader = (s.ctx c').parsedHeader := by
    intro c'
    rw [hctx]
    by_cases hc : c' = c
    · subst hc
      simp only [Function.update_self, and_self]
    · simp only [Function.update_of_ne hc, and_self]
  refine ⟨?_, ?_, ?_, ?_, ?_⟩
  · simp only [links, hkeep]
    simp only [sendData, pushFrame, log, modify, hsome, Bool.false_eq_true, if_false]
  all_goals simp only [sendData, pushFrame, log, modify, hsome, Bool.false_eq_true, if_false]

/-! ## Releasing streams -/

/-- `release_stream` is quiet up to the node; nobody waits on the stream any more, and nobody
can. -/
theorem releaseStream_spec (s : KHttp2) (c : CtxId) :
    ∃ t, Quiet s t ∧ (t.ctx c).waitsForWindow = false ∧ (t.ctx c).outClosed = true ∧
      s.releaseStream c = match (s.ctx c).node with
        | none => t
        | some id =>
          (t.destroyNode c (some id)).modify c fun ctx => { ctx with node := none } := by
  unfold releaseStream
  extract_lets ctx s1 s2 s3 s4
  have h1 : Quiet s s1 := .of_view rfl rfl rfl id
  have h2 : Quiet s1 s2 :=
    quiet_modify ⟨rfl, rfl, rfl, rfl, id, id, fun h => Bool.noConfusion h, Or.inl, Or.inl⟩
  have hwaits : (s2.ctx c).waitsForWindow = false := by
    simp only [s2, modify, Function.update_self]
    rfl
  have hopen : (s2.ctx c).outClosed = ctx.outClosed := by
    simp only [s2, s1, ctx, modify, Function.update_self]
  have h3 : Quiet s2 s3 ∧ (s3.ctx c).outClosed = true := by
    refine ⟨Quiet.trans (quiet_modify ?_) (quiet_log _ rfl), ?_⟩
    · exact ⟨rfl, rfl, rfl, rfl, fun _ => rfl, fun _ => rfl, id, fun _ => Or.inr hwaits,
        fun _ => Or.inr rfl⟩
    · simp only [s3, log, modify, Function.update_self]
  have h4 : Quiet s2 s4 ∧ (s4.ctx c).outClosed = true := by
    dsimp only [s4]
    split
    · split
      · have hrst := (s3.calm_sendRstStream (some c) (ctx.node.getD 0) internalError).quiet
        exact ⟨h3.1.trans hrst, (hrst.ctx c).outClosed h3.2⟩
      · exact h3
    · rename_i hclosed
      refine ⟨.refl s2, hopen.trans ?_⟩
      simp only [Bool.or_eq_true, Bool.not_eq_true', not_or, Bool.not_eq_false] at hclosed
      exact hclosed.1
  refine ⟨s4, h1.trans (h2.trans h4.1), ?_, h4.2, ?_⟩
  · exact Bool.eq_false_iff.mpr fun h =>
      Bool.false_ne_true (hwaits.symm.trans ((h4.1.ctx c).waits h))
  · cases hnode : (s.ctx c).node with
    | none => simp
    | some id => simp

/-- `release_admin` changes no stream but for a mark. -/
theorem releaseAdminCount_ctx (s : KHttp2) (c c' : CtxId) :
    ∃ mark, (s.releaseAdminCount c).ctx c' = { s.ctx c' with destroyByHttp2 := mark } := by
  have hadmin : ∀ (b : Prop) [Decidable b],
      (if b then { s with hasAdminStream := false } else s).ctx = s.ctx := by
    intro b _
    split <;> rfl
  unfold releaseAdminCount
  extract_lets s1 s2 s3
  have h1 : s1.ctx = s.ctx := hadmin _
  have h2 : ∃ mark, s2.ctx c' = { s1.ctx c' with destroyByHttp2 := mark } := by
    dsimp only [s2]
    split
    · by_cases hc : c' = c
      · subst hc
        exact ⟨true, by simp only [modify, Function.update_self]⟩
      · exact ⟨_, by simp only [modify, Function.update_of_ne hc]; rfl⟩
    · exact ⟨_, rfl⟩
  rw [h1] at h2
  exact h2

/-- What else `release_admin` does. -/
theorem releaseAdminCount_spec (s : KHttp2) (c : CtxId) :
    (s.releaseAdminCount c).streamsIndex = s.streamsIndex ∧
      (s.releaseAdminCount c).nextCtx = s.nextCtx ∧
      (s.releaseAdminCount c).state = s.state ∧
      (s.releaseAdminCount c).lastSelfSid = s.lastSelfSid ∧
      (s.releaseAdminCount c).clientModel = s.clientModel ∧
      (s.releaseAdminCount c).owners = s.owners.erase c ∧
      (s.releaseAdminCount c).processing = s.processing - 1 ∧
      (s.releaseAdminCount c).trace = .releaseAdmin c :: s.trace ∧
      (s.releaseAdminCount c).sendWindow = s.sendWindow ∧
      (s.releaseAdminCount c).initWindow = s.initWindow ∧
      (s.releaseAdminCount c).frameSize = s.frameSize ∧
      (s.releaseAdminCount c).activeQueue = s.activeQueue := by
  simp only [releaseAdminCount]
  by_cases hadmin : (s.ctx c).adminStream <;> by_cases hheld : s.state.stream = some c <;>
    simp [hadmin, hheld, log, modify]

/-! ## The table of streams along a path -/

/-- Assigning to a stream, seen from the table. -/
theorem links_modify (s : KHttp2) (c : CtxId) (f : KHttp2Context → KHttp2Context) :
    (s.modify c f).links = { s.links with
      node := Function.update s.links.node c (f (s.ctx c)).node
      parsedHeader := Function.update s.links.parsedHeader c (f (s.ctx c)).parsedHeader } := by
  simp only [links, modify, Links.mk.injEq, true_and, and_true]
  constructor
  · funext c'
    by_cases hc : c' = c
    · subst hc
      simp only [Function.update_self]
    · simp only [Function.update_of_ne hc]
  · funext c'
    by_cases hc : c' = c
    · subst hc
      simp only [Function.update_self]
    · simp only [Function.update_of_ne hc]

/-- A write event leaves the table of streams as it is. -/
theorem links_writeEvent (s : KHttp2) (c : CtxId) (e : WriteEvent) :
    (s.modify c fun ctx => { ctx with writeWait := some e }).links = s.links := by
  rw [links_modify]
  simp only [links, Links.mk.injEq, true_and, and_true]
  exact ⟨Function.update_eq_self c fun c => (s.ctx c).node,
    Function.update_eq_self c fun c => (s.ctx c).parsedHeader⟩

/-- Giving a client stream its node, seen from the table. -/
theorem links_linkNode (s : KHttp2) (c : CtxId) :
    (s.linkNode c).links =
      { s.links with lastSelfSid := s.lastSelfSid + 2 }.link (s.lastSelfSid + 2) c := by
  simp only [linkNode, links_modify]
  simp only [links, newNode, log, Links.link]
  congr
  exact Function.update_eq_self _ _

/-- Unlinking a node, seen from the table. -/
theorem links_destroyNode (s : KHttp2) (c : CtxId) (id : ℕ) :
    (s.destroyNode c (some id)).links = s.links.unlink id := rfl

/-- Releasing a stream, seen from the table. -/
theorem links_releaseStream (s : KHttp2) (c : CtxId) :
    (s.releaseStream c).links = s.links.free c := by
  obtain ⟨t, ht, -, -, heq⟩ := s.releaseStream_spec c
  have hlinks := links_of_quiet ht
  rw [heq]
  cases hnode : (s.ctx c).node with
  | none =>
    have hfree : s.links.free c = s.links := by
      simp only [Links.free, links, hnode, Option.elim_none, Links.mk.injEq, true_and, and_true]
      rw [← hnode]
      exact Function.update_eq_self c fun c => (s.ctx c).node
    rw [hfree]
    exact hlinks
  | some id =>
    have hid : t.links.node c = some id := (congrArg (fun l => l.node c) hlinks).trans hnode
    dsimp only
    rw [links_modify, links_destroyNode, ← hlinks]
    simp only [Links.free, hid, Option.elim_some, Links.mk.injEq, true_and, and_true]
    exact Function.update_eq_self c _

/-- Handing a stream to `release_admin`, seen from the table. -/
theorem links_releaseAdminCount (s : KHttp2) (c : CtxId) :
    (s.releaseAdminCount c).links = { s.links with owners := s.owners.erase c } := by
  obtain ⟨hindex, hnext, hstate, hsid, hclient, howners, -⟩ := s.releaseAdminCount_spec c
  have hnode : ∀ c', ((s.releaseAdminCount c).ctx c').node = (s.ctx c').node := by
    intro c'
    obtain ⟨mark, hctx⟩ := s.releaseAdminCount_ctx c c'
    rw [hctx]
  have hparsed : ∀ c', ((s.releaseAdminCount c).ctx c').parsedHeader = (s.ctx c').parsedHeader := by
    intro c'
    obtain ⟨mark, hctx⟩ := s.releaseAdminCount_ctx c c'
    rw [hctx]
  simp only [links, hindex, hnext, hstate, hsid, hclient, howners, hnode, hparsed]

/-- A stream that was released and handed back, seen from the table. -/
theorem links_release (s : KHttp2) (c : CtxId) :
    ((s.releaseStream c).releaseAdminCount c).links =
      { s.links.free c with owners := s.owners.erase c } := by
  have howners : (s.releaseStream c).owners = s.owners := by
    have h : (s.releaseStream c).links.owners = (s.links.free c).owners :=
      congrArg Links.owners (s.links_releaseStream c)
    refine h.trans ?_
    simp only [Links.free]
    cases hnode : s.links.node c <;> rfl
  rw [links_releaseAdminCount, links_releaseStream, howners]

/-! ## Changes of windows -/

/-- What `adjust_windows` does to a stream. -/
def adjustCtx (delta : ℤ) (ctx : KHttp2Context) : KHttp2Context :=
  if 0 < delta ∧ ctx.sendWindow > toInt32 (maxWindow - delta) then ctx
  else { ctx with sendWindow := toInt32 (ctx.sendWindow + delta) }

/-- The body of the loop of `adjust_windows` is an assignment to the stream of the node. -/
theorem adjustNode_eq (delta : ℤ) (s : KHttp2) (n : KHttp2Node) :
    adjustNode delta s n = s.modify n.stream (adjustCtx delta) := by
  unfold adjustNode adjustCtx
  split
  · rename_i hskip
    have hself : s.modify n.stream (fun _ => s.ctx n.stream) = s := by
      simp only [modify, Function.update_eq_self]
    simp only [modify, if_pos hskip] at hself ⊢
    exact hself.symm
  · rename_i hskip
    simp only [modify, if_neg hskip]

/-- The loop of `adjust_windows` changes nothing but streams, each of them once. -/
theorem foldl_adjustNode (delta : ℤ) (l : List KHttp2Node) (s : KHttp2)
    (hl : (l.map KHttp2Node.stream).Nodup) :
    l.foldl (adjustNode delta) s = { s with ctx := fun c =>
      if c ∈ (l.map KHttp2Node.stream) then adjustCtx delta (s.ctx c) else s.ctx c } := by
  induction l generalizing s with
  | nil => simp
  | cons n l ih =>
    rw [List.map_cons, List.nodup_cons] at hl
    rw [List.foldl_cons, ih _ hl.2, adjustNode_eq]
    simp only [modify]
    congr 1
    funext c
    by_cases hc : c = n.stream
    · subst hc
      simp [hl.1]
    · simp [hc]

/-- No stream is visited twice by the loops over `streams_index`. -/
theorem nodup_allNodes {s : KHttp2} (hs : s.links.Good) :
    (s.allNodes.map KHttp2Node.stream).Nodup := by
  have hnodes : s.allNodes.Nodup := by
    refine List.nodup_flatMap.mpr ⟨fun i _ => List.Nodup.of_map _ (hs.nodup i), ?_⟩
    refine List.nodup_range.imp fun hne n hn hn' => hne ?_
    exact (hs.bucket _ n hn).symm.trans (hs.bucket _ n hn')
  refine hnodes.map_on fun n hn n' hn' heq => ?_
  have hid : some n.id = some n'.id := by
    rw [← node_of_mem_allNodes hs hn, ← node_of_mem_allNodes hs hn', heq]
  cases n
  cases n'
  simp only [KHttp2Node.mk.injEq]
  exact ⟨Option.some.inj hid, heq⟩

/-- The streams after the loop of `adjust_windows`. -/
theorem adjustAll_eq {s : KHttp2} (hs : s.links.Good) (delta : ℤ) (value : ℕ) :
    s.allNodes.foldl (adjustNode delta) { s.log (.setting 4 value) with initWindow := value } =
      { s.log (.setting 4 value) with
        initWindow := value
        ctx := fun c =>
          if (s.ctx c).node.isSome then adjustCtx delta (s.ctx c) else s.ctx c } := by
  rw [foldl_adjustNode _ _ _ (nodup_allNodes hs)]
  simp only [log]
  congr 1
  funext c
  have hiff : c ∈ s.allNodes.map KHttp2Node.stream ↔ (s.ctx c).node.isSome = true := by
    constructor
    · intro hc
      obtain ⟨n, hn, rfl⟩ := List.mem_map.mp hc
      rw [node_of_mem_allNodes hs hn]
      rfl
    · intro hc
      obtain ⟨n, hn, rfl⟩ := mem_allNodes_of_node hs hc
      exact List.mem_map_of_mem hn
  simp only [hiff]

/-- An adjusted stream keeps everything but its window. -/
theorem adjustCtx_keeps (delta : ℤ) (ctx : KHttp2Context) :
    adjustCtx delta ctx = { ctx with sendWindow := (adjustCtx delta ctx).sendWindow } := by
  unfold adjustCtx
  split <;> rfl

/-- The window of an adjusted stream. -/
theorem adjustCtx_sendWindow {ctx : KHttp2Context} {init value : ℕ} (hinit : init ≤ maxWindow)
    (hvalue : value ≤ maxWindow) (hmin : (init : ℤ) - maxWindow ≤ ctx.sendWindow)
    (hmax : ctx.sendWindow ≤ maxWindow) :
    let window := (adjustCtx (toInt32 ((value : ℤ) - init)) ctx).sendWindow
    (value : ℤ) - maxWindow ≤ window ∧ window ≤ maxWindow ∧
      window ≤ ctx.sendWindow + value - init := by
  have hdelta : toInt32 ((value : ℤ) - init) = value - init := by
    simp only [maxWindow] at hinit hvalue
    exact toInt32_of_range (by omega) (by omega)
  simp only [hdelta, adjustCtx]
  have hlimit : 0 < (value : ℤ) - init →
      toInt32 ((maxWindow : ℤ) - (value - init)) = maxWindow - (value - init) := fun hpos => by
    simp only [maxWindow] at hinit hvalue ⊢
    exact toInt32_of_range (by omega) (by omega)
  split
  · rename_i hskip
    rw [hlimit hskip.1] at hskip
    refine ⟨by omega, hmax, by omega⟩
  · rename_i hskip
    have hfit : ctx.sendWindow + ((value : ℤ) - init) ≤ maxWindow := by
      by_cases hpos : 0 < (value : ℤ) - init
      · rw [hlimit hpos] at hskip
        omega
      · omega
    have hsum : toInt32 (ctx.sendWindow + ((value : ℤ) - init)) =
        ctx.sendWindow + (value - init) := by
      simp only [maxWindow] at hinit hvalue hfit hmin
      exact toInt32_of_range (by omega) (by omega)
    simp only [hsum]
    omega

/-- A change of windows leaves the table of streams as it is. -/
theorem links_windowChange {s t : KHttp2} (hs : s.links.Good) (h : WindowChange s t) :
    t.links = s.links := by
  cases h with
  | stream c window hnode h =>
    rw [links_modify]
    simp only [links, log, Links.mk.injEq, true_and, and_true]
    exact ⟨Function.update_eq_self c fun c => (s.ctx c).node,
      Function.update_eq_self c fun c => (s.ctx c).parsedHeader⟩
  | conn window h => rfl
  | initial value h =>
    rw [adjustAll_eq hs]
    simp only [links, log, Links.mk.injEq, true_and, and_true]
    constructor
    · funext c
      split
      · rw [adjustCtx_keeps]
      · rfl
    · funext c
      split
      · rw [adjustCtx_keeps]
      · rfl
  | frame value hmin hmax => rfl
  | other id value hinit hframe => rfl

/-- A change of windows makes no writer wait and ends no wait. -/
theorem waits_windowChange {s t : KHttp2} (hs : s.links.Good) (h : WindowChange s t) (c : CtxId) :
    (t.ctx c).waitsForWindow = (s.ctx c).waitsForWindow := by
  cases h with
  | stream c' window hnode h =>
    by_cases hc : c = c'
    · subst hc
      simp only [modify, Function.update_self]
      rfl
    · simp only [modify, Function.update_of_ne hc]
      rfl
  | conn window h => rfl
  | initial value h =>
    rw [adjustAll_eq hs]
    dsimp only
    split
    · rw [adjustCtx_keeps]
      rfl
    · rfl
  | frame value hmin hmax => rfl
  | other id value hinit hframe => rfl

/-! ## New streams -/

/-- What the start of a stream on a server does. -/
theorem headersNewStream_spec (s : KHttp2) (p : Bytes) :
    ∃ ctx st trace, ctx.node = some s.state.sid ∧ ctx.parsedHeader = false ∧
      ctx.outClosed = false ∧ ctx.rst = false ∧ ctx.sendWindow = toInt32 s.initWindow ∧
      ctx.writeWait = none ∧ st.stream = some s.nextCtx ∧
      connTrace trace = .openNode s.nextCtx s.state.sid :: connTrace s.trace ∧
      (s.headersNewStream p).1 = { s with
        nextCtx := s.nextCtx + 1
        ctx := Function.update s.ctx s.nextCtx ctx
        streamsIndex := Function.update s.streamsIndex (streamIndex s.state.sid)
          (⟨s.state.sid, s.nextCtx⟩ :: s.streamsIndex (streamIndex s.state.sid))
        state := st
        trace := trace } := by
  have hopen : ∀ trace, connTrace trace = connTrace s.trace →
      connTrace (.openNode s.nextCtx s.state.sid :: trace) =
        .openNode s.nextCtx s.state.sid :: connTrace s.trace := fun trace h => by
    rw [← h]
    rfl
  refine ⟨{ KHttp2Context.init (toInt32 s.initWindow) with
      inClosed := hasFlag s.state.flags endStreamFlag, node := some s.state.sid },
    (s.headersNewStream p).1.state, (s.headersNewStream p).1.trace,
    rfl, rfl, rfl, rfl, by simp only [KHttp2Context.init], rfl, rfl, ?_, ?_⟩
  · cases hclient : s.clientModel <;> cases hfin : hasFlag s.state.flags endStreamFlag <;>
      simp only [headersNewStream, createStream, hclient, hfin, logEnd, if_true, if_false,
        Bool.false_eq_true, setState, newNode, log] <;> exact hopen _ (by rfl)
  · cases hclient : s.clientModel <;> cases hfin : hasFlag s.state.flags endStreamFlag <;>
      simp only [headersNewStream, createStream, hclient, hfin, logEnd, if_true, if_false,
        Bool.false_eq_true, setState, modify, newNode, log, Function.update_self,
        Function.update_idem]

/-- What a client does to make a stream. -/
theorem newClientStream_spec (s : KHttp2) (admin : Bool) (hclient : s.clientModel = true) :
    s.newClientStream admin = { s with
      nextCtx := s.nextCtx + 1
      ctx := Function.update s.ctx s.nextCtx
        { KHttp2Context.init (toInt32 s.initWindow) with adminStream := admin }
      owners := s.nextCtx :: s.owners } := by
  simp only [newClientStream, createStream, hclient, if_true, modify, Function.update_self,
    Function.update_idem]

end KHttp2

end Khttpd
