import Khttpd.Analysis.Seen

/-!
# The changes of an effect

Every effect on readers and writers is, seen from one stream, a sequence of changes.
-/

set_option autoImplicit false

namespace Khttpd

namespace KHttp2

variable {kinds : Kind → Prop}

/-- Nobody waits in a write on a stream in the pool, or on a connection that can be deleted. -/
structure Attended (s : KHttp2) : Prop where
  pooled : ∀ c ∈ s.pooled, (s.ctx c).writeSuspended = false
  last : s.canDestroy = true → ∀ c, (s.ctx c).writeSuspended = false

theorem changes_same {s t : KHttp2} (c : CtxId) (h : t.seen c = s.seen c) :
    Changes kinds c (s.seen c) (t.seen c) := by
  rw [h]

/-! ## Queueing frames -/

theorem seen_pushFrame_other (s : KHttp2) (c : CtxId) (frame : QueuedFrame)
    (bufs : List Http2Buff) (hbufs : ∀ b ∈ bufs, b.ctx ≠ some c) (hstream : frame.stream ≠ some c) :
    (s.pushFrame frame bufs).seen c = s.seen c :=
  (seen_log_other _ c (e := .queued frame) fun _ => hstream).trans (s.seen_push c bufs hbufs)

theorem seen_pushFrame (s : KHttp2) (c : CtxId) (frame : QueuedFrame)
    (bufs : List Http2Buff) (hbufs : ∀ b ∈ bufs, b.ctx ≠ some c) (hstream : frame.stream = some c) :
    (s.pushFrame frame bufs).seen c = (s.seen c).log (.queued frame) := by
  rw [← s.seen_push c bufs hbufs]
  exact seen_log _ c rfl hstream

theorem changes_push (s : KHttp2) (c : CtxId) (frame : QueuedFrame) (bufs : List Http2Buff)
    (hbufs : ∀ b ∈ bufs, b.ctx = none) (hdata : frame.type ≠ dataFrame)
    (hheaders : frame.type ≠ headersFrame) :
    Changes kinds c (s.seen c) ((s.pushFrame frame bufs).seen c) := by
  have hnone : ∀ b ∈ bufs, b.ctx ≠ some c := fun b hb h => by
    rw [hbufs b hb] at h
    cases h
  by_cases hstream : frame.stream = some c
  · rw [s.seen_pushFrame c frame bufs hnone hstream]
    exact .single (.queued frame hdata hheaders)
  · exact changes_same c (s.seen_pushFrame_other c frame bufs hnone hstream)

/-- RST_STREAM of a stream. -/
def rstFrame (c : CtxId) (sid : ℕ) : QueuedFrame := ⟨rstStreamFrame, 0, sid, 4, some c⟩

theorem seen_sendRstStream (s : KHttp2) (c : CtxId) (sid status : ℕ) :
    (s.sendRstStream (some c) sid status).seen c = (s.seen c).log (.queued (rstFrame c sid)) := by
  refine (seen_startWrite _ c).trans (s.seen_pushFrame c _ _ (fun b hb => ?_) rfl)
  rw [List.mem_singleton.mp hb]
  exact fun h => by cases h

theorem seen_sendRstStream_other (s : KHttp2) {c c' : CtxId} (hne : c' ≠ c) (sid status : ℕ) :
    (s.sendRstStream (some c') sid status).seen c = s.seen c := by
  refine (seen_startWrite _ c).trans (s.seen_pushFrame_other c _ _ (fun b hb => ?_) ?_)
  · rw [List.mem_singleton.mp hb]
    exact fun h => by cases h
  · exact fun h => hne (Option.some.inj h)

/-! ## Resetting streams -/

theorem seen_resetWith (s : KHttp2) (c : CtxId) (rst : Option (ℕ × ℕ)) (clear : Bool) :
    (s.resetWith c rst clear).seen c =
      (s.seen c).reset c (rst.map fun r => rstFrame c r.1) clear := by
  unfold resetWith Seen.reset
  extract_lets ctx s1 s2 s3 old v1 v2 v3
  have h1 : s1.seen c = v1 := by
    have hmodify := s.seen_modify c (fun ctx => { ctx with
      inClosed := true
      outClosed := true
      rst := true
      readWait := none
      writeWait := ctx.writeWait.filter WriteEvent.forWriting }) (fun part => { part with
      inClosed := true
      outClosed := true
      rst := true
      readWait := none
      writeWait := part.writeWait.filter WriteEvent.forWriting }) rfl
    exact (seen_log _ c rfl rfl).trans (congrArg (fun v => Seen.log v (.reset c)) hmodify)
  have h2 : s2.seen c = v2 := by
    cases rst with
    | none => exact h1
    | some r => exact (s1.seen_sendRstStream c r.1 r.2).trans (congrArg (fun v => Seen.log v _) h1)
  have h3 : s3.seen c = v3 := by
    cases clear with
    | false => exact h2
    | true =>
      have hmodify := s2.seen_modify c (fun ctx => { ctx with
        readBuffer := ctx.readBuffer.map fun _ => [] }) (fun part => { part with
        readBuffer := part.readBuffer.map fun _ => [] }) rfl
      rw [h2] at hmodify
      exact hmodify
  rw [wakeReset, seen_onWrite, seen_onRead, h3]
  rfl

theorem seen_resetWith_other (s : KHttp2) {c c' : CtxId} (hne : c' ≠ c) (rst : Option (ℕ × ℕ))
    (clear : Bool) : (s.resetWith c' rst clear).seen c = s.seen c := by
  unfold resetWith
  extract_lets ctx s1 s2 s3
  have h1 : s1.seen c = s.seen c := by
    have hmodify := s.seen_modify_other hne fun ctx => { ctx with
      inClosed := true
      outClosed := true
      rst := true
      readWait := none
      writeWait := ctx.writeWait.filter WriteEvent.forWriting }
    exact (seen_log_other _ c (e := .reset c') fun _ h => hne (Option.some.inj h)).trans hmodify
  have h2 : s2.seen c = s1.seen c := by
    cases rst with
    | none => rfl
    | some r => exact s1.seen_sendRstStream_other hne r.1 r.2
  have h3 : s3.seen c = s2.seen c := by
    cases clear with
    | false => rfl
    | true => exact s2.seen_modify_other hne fun ctx =>
        { ctx with readBuffer := ctx.readBuffer.map fun _ => [] }
  rw [wakeReset, seen_onWrite_other _ hne, seen_onRead_other _ hne, h3, h2, h1]

theorem changes_resetWith (s : KHttp2) (c c' : CtxId) (rst : Option (ℕ × ℕ)) (clear : Bool) :
    Changes kinds c (s.seen c) ((s.resetWith c' rst clear).seen c) := by
  by_cases hne : c' = c
  · subst hne
    rw [s.seen_resetWith c' rst clear]
    refine .single (.reset _ clear fun frame hframe => ?_)
    obtain ⟨r, -, rfl⟩ := Option.map_eq_some_iff.mp hframe
    rfl
  · exact changes_same c (s.seen_resetWith_other hne rst clear)

theorem changes_shutdown (s : KHttp2) (c c' : CtxId) :
    Changes kinds c (s.seen c) ((s.shutdown c').seen c) := by
  unfold shutdown
  split
  · exact .refl
  · obtain ⟨rst, heq⟩ := s.terminateStream_eq c' cancel
    rw [heq]
    exact s.changes_resetWith c c' rst false

/-! ## Buffers that are gone -/

/-- What a stream sees while taken buffers have not resumed their writers yet. -/
def holding (s : KHttp2) (c : CtxId) (bufs : List Http2Buff) : Seen :=
  (s.seen c).hold (bufs.countP fun b => b.ctx = some c)

/-- A buffer that resumes another writer, or nobody, is not seen. -/
theorem seen_cleanBuff_other (fin : Bool) (s : KHttp2) (b : Http2Buff) {c : CtxId}
    (h : b.ctx ≠ some c) : (cleanBuff fin s b).seen c = s.seen c := by
  unfold cleanBuff
  split
  · rfl
  · rename_i c' hb
    have hne : c' ≠ c := fun heq => h (heq ▸ hb)
    exact (seen_onWrite_other _ hne _ _).trans (s.seen_modify_other hne _)

theorem seen_cleanBuff (fin : Bool) (s : KHttp2) (b : Http2Buff) {c : CtxId}
    (h : b.ctx = some c) : (cleanBuff fin s b).seen c =
      { (s.seen c).clean c fin with buffs := (s.seen c).buffs } := by
  have hmodify := s.seen_modify c (fun ctx => { ctx with writeWait := none })
    (fun part => { part with writeWait := none }) rfl
  simp only [cleanBuff, h, seen_onWrite, hmodify]
  have hwait : (s.seen c).part.writeWait = (s.ctx c).writeWait := rfl
  unfold Seen.clean Seen.onWrite
  rw [hwait]
  cases (s.ctx c).writeWait with
  | none => rfl
  | some e =>
    dsimp only
    split <;> rfl

theorem changes_removeBuff (c : CtxId) (fin : Bool) (bufs : List Http2Buff) (s : KHttp2) :
    Changes kinds c (s.holding c bufs) ((s.removeBuff bufs fin).seen c) := by
  induction bufs generalizing s with
  | nil => exact .refl
  | cons b bufs ih =>
    refine .trans ?_ (ih (cleanBuff fin s b))
    by_cases hb : b.ctx = some c
    · have hclean : (cleanBuff fin s b).holding c bufs = (s.holding c (b :: bufs)).clean c fin := by
        have hcount : (b :: bufs).countP (fun b => decide (b.ctx = some c)) =
            bufs.countP (fun b => decide (b.ctx = some c)) + 1 :=
          List.countP_cons_of_pos (by simpa using hb)
        unfold holding Seen.hold
        rw [seen_cleanBuff fin s b hb, hcount]
        unfold Seen.clean Seen.onWrite
        dsimp only
        cases (s.seen c).part.writeWait with
        | none => rfl
        | some e =>
          dsimp only
          split <;> rfl
      rw [hclean]
      refine .single (.clean fin ?_)
      have hpos : 0 < (b :: bufs).countP fun b => decide (b.ctx = some c) :=
        List.countP_pos_iff.mpr ⟨b, List.mem_cons_self, by simpa using hb⟩
      exact Nat.lt_of_lt_of_le hpos (Nat.le_add_left _ _)
    · have hcount : (b :: bufs).countP (fun b => decide (b.ctx = some c)) =
          bufs.countP (fun b => decide (b.ctx = some c)) :=
        List.countP_cons_of_neg (by simpa using hb)
      have hsame : (cleanBuff fin s b).holding c bufs = s.holding c (b :: bufs) := by
        unfold holding
        rw [seen_cleanBuff_other fin s b hb, hcount]
      rw [hsame]

/-! ## Releasing streams -/

theorem seen_destroyNode (s : KHttp2) (c c' : CtxId) (node : Option ℕ) :
    (s.destroyNode c' node).seen c = s.seen c := by
  cases node with
  | none => exact s.seen_log_other c (e := .destroyNode c' none false) fun h => by cases h
  | some id => exact s.seen_log_other c (e := .destroyNode c' (some id) _) fun h => by cases h

theorem seen_releaseAdminCount (s : KHttp2) (c c' : CtxId) :
    (s.releaseAdminCount c').seen c = s.seen c := by
  unfold releaseAdminCount
  extract_lets s1 s2
  have h1 : s1.seen c = s.seen c := by
    dsimp only [s1]
    split <;> rfl
  have h2 : s2.seen c = s1.seen c := by
    dsimp only [s2]
    split
    · exact seen_of_body (body_modify rfl) c
    · rfl
  exact (s2.seen_log_other c (e := .releaseAdmin c') fun h => by cases h).trans (h2.trans h1)

theorem seen_releaseStream (s : KHttp2) (c : CtxId) :
    ∃ rst : Option QueuedFrame, (∀ frame ∈ rst, frame.type = rstStreamFrame) ∧
      (s.releaseStream c).seen c = (s.seen c).release c rst := by
  unfold releaseStream
  extract_lets ctx s1 s2 s3 s4
  have h2 : s2.seen c =
      (s.seen c).set fun part => { part with readWait := none, writeWait := none } :=
    s1.seen_modify c (fun ctx => { ctx with readWait := none, writeWait := none })
      (fun part => { part with readWait := none, writeWait := none }) rfl
  have h3 : s3.seen c = (s2.seen c |>.set fun part =>
      { part with inClosed := true, outClosed := true, rst := true }).log (.reset c) := by
    have hmodify := s2.seen_modify c
      (fun ctx => { ctx with inClosed := true, outClosed := true, rst := true })
      (fun part => { part with inClosed := true, outClosed := true, rst := true }) rfl
    exact (seen_log _ c rfl rfl).trans (congrArg (fun v => Seen.log v (.reset c)) hmodify)
  have hlast : ∀ t : KHttp2,
      (if ctx.node.isSome = true then
        (t.destroyNode c ctx.node).modify c fun ctx => { ctx with node := none }
      else t).seen c = if ctx.node.isSome then (t.seen c).set fun part => { part with node := none }
        else t.seen c := by
    intro t
    split
    · rw [← t.seen_destroyNode c c ctx.node]
      exact seen_modify _ c _ _ rfl
    · rfl
  rw [hlast]
  have hwait : (s.seen c).part.node = ctx.node ∧ (s.seen c).part.outClosed = ctx.outClosed ∧
      (s.seen c).part.inClosed = ctx.inClosed := ⟨rfl, rfl, rfl⟩
  obtain ⟨hnode, hout, hin⟩ := hwait
  by_cases hopen : (!ctx.outClosed || !ctx.inClosed) = true
  · have h4 : s4.seen c = if ctx.node.isSome then
        (s3.seen c).log (.queued (rstFrame c (ctx.node.getD 0))) else s3.seen c := by
      dsimp only [s4]
      rw [if_pos hopen]
      split
      · exact s3.seen_sendRstStream c _ _
      · rfl
    rw [h4, h3, h2]
    cases hsome : ctx.node with
    | none =>
      refine ⟨none, fun frame hframe => (by cases hframe), ?_⟩
      unfold Seen.release
      simp only [hout, hin, hopen, if_true, Option.isSome_none, Bool.false_eq_true, if_false,
        Option.elim_none]
      simp only [Seen.set, Seen.log, hnode, hsome]
    | some id =>
      refine ⟨some (rstFrame c id), fun frame hframe => ?_, ?_⟩
      · cases hframe
        rfl
      · unfold Seen.release
        simp only [hout, hin, hopen, if_true, Option.isSome_some, Option.elim_some,
          Option.getD_some]
  · have h4 : s4.seen c = s2.seen c := by
      dsimp only [s4]
      rw [if_neg hopen]
    rw [h4, h2]
    refine ⟨none, fun frame hframe => (by cases hframe), ?_⟩
    unfold Seen.release
    simp only [hout, hin, if_neg hopen, Option.elim_none]
    cases hsome : ctx.node with
    | none =>
      simp only [Option.isSome_none, Bool.false_eq_true, if_false]
      simp only [Seen.set, hnode, hsome]
    | some id => simp only [Option.isSome_some, if_true]

theorem seen_releaseStream_other (s : KHttp2) {c c' : CtxId} (hne : c' ≠ c) :
    (s.releaseStream c').seen c = s.seen c := by
  unfold releaseStream
  extract_lets ctx s1 s2 s3 s4
  have h2 : s2.seen c = s.seen c := s1.seen_modify_other hne fun ctx =>
    { ctx with readWait := none, writeWait := none }
  have h3 : s3.seen c = s2.seen c := by
    have hmodify := s2.seen_modify_other hne fun ctx =>
      { ctx with inClosed := true, outClosed := true, rst := true }
    exact (seen_log_other _ c (e := .reset c') fun _ h => hne (Option.some.inj h)).trans hmodify
  have h4 : s4.seen c = s2.seen c := by
    dsimp only [s4]
    split
    · split
      · exact (s3.seen_sendRstStream_other hne _ _).trans h3
      · exact h3
    · rfl
  split
  · have hmodify := (s4.destroyNode c' ctx.node).seen_modify_other hne fun ctx =>
      { ctx with node := none }
    exact hmodify.trans ((s4.seen_destroyNode c c' _).trans (h4.trans h2))
  · exact h4.trans h2

theorem changes_releaseStream (s : KHttp2) (c c' : CtxId)
    (h : (s.ctx c').writeSuspended = false ∨ kinds .drop) :
    Changes kinds c (s.seen c) ((s.releaseStream c').seen c) := by
  by_cases hne : c' = c
  · subst hne
    obtain ⟨rst, hrst, heq⟩ := s.seen_releaseStream c'
    rw [heq]
    exact .single (.release rst hrst h)
  · exact changes_same c (s.seen_releaseStream_other hne)

theorem changes_release (s : KHttp2) (c c' : CtxId)
    (h : (s.ctx c').writeSuspended = false ∨ kinds .drop) :
    Changes kinds c (s.seen c) (((s.releaseStream c').releaseAdminCount c').seen c) := by
  rw [seen_releaseAdminCount]
  exact s.changes_releaseStream c c' h

/-! ## Sending DATA -/

/-- The buffers of a payload belong to no writer yet. -/
theorem ctx_buildPayload (sendfile : Bool) (e : WriteEvent) (len : ℕ) :
    ∀ b ∈ (buildPayload sendfile e len).1, b.ctx = none := by
  have hchain : ∀ (chain : List Bytes) (total len : ℕ), ∀ b ∈ buildChain chain total len,
      b.ctx = none := by
    intro chain
    induction chain with
    | nil => intro total len b hb; cases hb
    | cons hot next ih =>
      intro total len b hb
      unfold buildChain at hb
      split at hb
      · cases hb
      · extract_lets bufLen used buf at hb
        split at hb
        · rcases List.mem_cons.mp hb with rfl | hb
          · rfl
          · exact ih _ _ b hb
        · rw [List.mem_singleton.mp hb]
          rfl
  intro b hb
  unfold buildPayload at hb
  split at hb
  · rw [List.mem_singleton.mp hb]
  · exact hchain _ _ _ b hb
  · cases hb

theorem countP_mapLast {p : Http2Buff → Bool} {f : Http2Buff → Http2Buff}
    (hf : ∀ b, p (f b) = true) :
    ∀ bufs : List Http2Buff, (∀ b ∈ bufs, p b = false) → bufs ≠ [] → (mapLast f bufs).countP p = 1
  | [], _, hne => absurd rfl hne
  | [b], _, _ => by simp [mapLast, hf]
  | b :: b' :: bufs, hnone, _ => by
    have hrest := countP_mapLast hf (b' :: bufs) (fun x hx => hnone x (List.mem_cons_of_mem _ hx))
      (List.cons_ne_nil _ _)
    show (b :: mapLast f (b' :: bufs)).countP p = 1
    rw [List.countP_cons_of_neg
      (by rw [hnone b List.mem_cons_self]; exact Bool.false_ne_true), hrest]

theorem seen_sendData (s : KHttp2) (c : CtxId) (e : WriteEvent) (len : ℕ) :
    ∃ fin frame, frame.type = dataFrame ∧ frame.length = s.dataLength c e len ∧
      (s.sendData c e len).seen c = { ((s.seen c).set fun part => { part with
        writeWait := some { e with len := s.dataLength c e len }
        outClosed := part.outClosed || fin }).log (.queued frame) with
          buffs := (s.seen c).buffs + 1 } := by
  unfold sendData
  extract_lets ctx payload totalLen left fin bufs h h' src header s1 s2 s3
  refine ⟨fin, ⟨dataFrame, h'.flags, ctx.node.getD 0, totalLen, some c⟩, rfl, rfl, ?_⟩
  have h1 : s1.seen c = s.seen c := by
    dsimp only [s1]
    split <;> rfl
  have hctx : s1.ctx = s.ctx := by
    dsimp only [s1]
    split <;> rfl
  have h3 : s3.seen c = (s.seen c).set fun part => { part with
      writeWait := some { e with len := totalLen }
      outClosed := part.outClosed || fin } := by
    rw [← h1]
    exact s1.seen_modify c
      (fun ctx => { ctx with
        writeWait := some { e with len := totalLen }
        contentLeft := if 0 < ctx.contentLeft then left else ctx.contentLeft
        outClosed := ctx.outClosed || fin
        sendWindow := toInt32 (ctx.sendWindow - totalLen) })
      (fun part => { part with
        writeWait := some { e with len := totalLen }
        outClosed := part.outClosed || fin }) rfl
  have hcount : (header :: bufs).countP (fun b => decide (b.ctx = some c)) = 1 := by
    have hnone := ctx_buildPayload ctx.sendfile e len
    by_cases hempty : payload.1 = []
    · have hbufs : bufs = [] := by simp only [bufs, hempty, mapLast]
      simp [hbufs, header]
    · have hbufs : bufs ≠ [] := by
        cases hp : payload.1 with
        | nil => exact absurd hp hempty
        | cons b rest => cases rest <;> simp [bufs, hp, mapLast]
      have hlast : bufs.countP (fun b => decide (b.ctx = some c)) = 1 := by
        refine countP_mapLast (fun b => by simp) payload.1 (fun b hb => ?_) hempty
        simp [hnone b hb]
      rw [List.countP_cons_of_neg (by simp [header, if_neg hbufs]), hlast]
  have hpush : ({ s3 with writeBuffer := s3.writeBuffer.push (header :: bufs) } : KHttp2).seen c =
      { s3.seen c with buffs := (s3.seen c).buffs + 1 } := by
    simp only [seen, body, Body.seen, KHttp2WriteBuffer.push, List.countP_append, hcount]
  refine (seen_log _ c rfl rfl).trans ?_
  rw [hpush, h3]
  rfl

theorem seen_sendData_other (s : KHttp2) {c c' : CtxId} (hne : c' ≠ c) (e : WriteEvent) (len : ℕ) :
    (s.sendData c' e len).seen c = s.seen c := by
  unfold sendData
  extract_lets ctx payload totalLen left fin bufs h h' src header s1 s2 s3
  have h1 : s1.seen c = s.seen c := by
    dsimp only [s1]
    split <;> rfl
  have h3 : s3.seen c = s1.seen c := s1.seen_modify_other hne fun ctx => { ctx with
    writeWait := some { e with len := totalLen }
    contentLeft := if 0 < ctx.contentLeft then left else ctx.contentLeft
    outClosed := ctx.outClosed || fin
    sendWindow := toInt32 (ctx.sendWindow - totalLen) }
  refine (s3.seen_pushFrame_other c _ _ (fun b hb heq => ?_) fun h => hne (Option.some.inj h)).trans
    (h3.trans h1)
  have hown : b.ctx = none ∨ b.ctx = some c' := by
    rcases List.mem_cons.mp hb with rfl | hb
    · simp only [header]
      split
      · exact Or.inr rfl
      · exact Or.inl rfl
    · rcases mem_mapLast hb with hb | ⟨b', hb', rfl⟩
      · exact Or.inl (ctx_buildPayload _ _ _ b hb)
      · exact Or.inr rfl
  rcases hown with hown | hown
  · rw [hown] at heq
    cases heq
  · exact hne (Option.some.inj (hown.symm.trans heq))

/-! ## The socket -/

/-- Every buffer of the queue stays queued or is removed. -/
theorem countP_readSuccessLoop {p : Http2Buff → Bool}
    (hp : ∀ (b : Http2Buff) (used : ℕ), p { b with used := used } = p b) :
    ∀ (bufs : List Http2Buff) (hot got : ℕ) (offset : ℕ → ℕ) (removed : List Http2Buff),
      (readSuccessLoop bufs hot got offset removed).1.countP p +
        (readSuccessLoop bufs hot got offset removed).2.2.2.countP p =
          bufs.countP p + removed.countP p
  | [], _, _, _, _ => rfl
  | b :: next, hot, got, offset, removed => by
    have hmove : ∀ b' : Http2Buff, p b' = p b →
        next.countP p + (b' :: removed).countP p = (b :: next).countP p + removed.countP p := by
      intro b' heq
      simp only [List.countP_cons, heq]
      omega
    have hstay : ∀ b' : Http2Buff, p b' = p b →
        (b' :: next).countP p + removed.countP p = (b :: next).countP p + removed.countP p := by
      intro b' heq
      simp only [List.countP_cons, heq]
    unfold readSuccessLoop
    split
    · rfl
    · split
      · extract_lets offset' thisLen b'
        split
        · exact (countP_readSuccessLoop hp next 0 _ _ _).trans (hmove b' (hp b _))
        · exact hstay b' (hp b _)
      · extract_lets thisLen
        split
        · exact (countP_readSuccessLoop hp next 0 _ _ _).trans (hmove b rfl)
        · exact hstay b rfl

theorem changes_written (s : KHttp2) (c : CtxId) (got : ℕ) :
    Changes kinds c (s.seen c)
      (({ s with writeBuffer := (s.writeBuffer.readSuccess got).1 }.removeBuff
      (s.writeBuffer.readSuccess got).2 false).seen c) := by
  have hcount := countP_readSuccessLoop (p := fun b => decide (b.ctx = some c)) (fun b used => rfl)
    s.writeBuffer.header s.writeBuffer.hot got s.writeBuffer.fileOffset []
  have hholding : ({ s with writeBuffer := (s.writeBuffer.readSuccess got).1 } : KHttp2).holding c
      (s.writeBuffer.readSuccess got).2 = s.seen c := by
    simp only [holding, Seen.hold, seen, body, Body.seen, KHttp2WriteBuffer.readSuccess, hcount,
      List.countP_nil, Nat.add_zero]
  rw [← hholding]
  exact changes_removeBuff c false _ _

/-! ## Closing -/

theorem closeNode_eq (s : KHttp2) (n : KHttp2Node) :
    s.closeNode n = s.resetWith n.stream none false := rfl

/-- Buffers that are held back do not matter to a reset. -/
theorem holding_resetWith (s : KHttp2) (c c' : CtxId) (bufs : List Http2Buff) :
    Changes kinds c (s.holding c bufs) ((s.resetWith c' none false).holding c bufs) := by
  by_cases hne : c' = c
  · subst hne
    have hheld : (s.resetWith c' none false).holding c' bufs =
        (s.holding c' bufs).reset c' none false := by
      unfold holding
      rw [seen_resetWith, Seen.hold_reset]
      rfl
    rw [hheld]
    exact .single (.reset none false fun frame hframe => by cases hframe)
  · have hheld : (s.resetWith c' none false).holding c bufs = s.holding c bufs := by
      unfold holding
      rw [s.seen_resetWith_other hne none false]
    rw [hheld]

theorem changes_closeNodes (c : CtxId) (bufs : List Http2Buff) (nodes : List KHttp2Node)
    (s : KHttp2) :
    Changes kinds c (s.holding c bufs) ((nodes.foldl closeNode s).holding c bufs) := by
  induction nodes generalizing s with
  | nil => exact .refl
  | cons n nodes ih => exact (s.holding_resetWith c n.stream bufs).trans (ih (s.closeNode n))

theorem changes_closeStreams (s : KHttp2) (c : CtxId) (read : Bool) (status : ℕ) :
    Changes kinds c (s.seen c) ((s.closeStreams read status).seen c) := by
  unfold closeStreams
  extract_lets s1 taken s2 s3 s4
  have h1 : s1.seen c = s.seen c := s.seen_log_other c (e := .close status) fun h => by cases h
  have h2 : s2.holding c taken.2 = s1.seen c := by
    simp only [holding, Seen.hold, s2, taken, seen, body, Body.seen]
    split
    · simp only [KHttp2WriteBuffer.clean, List.countP_nil, Nat.zero_add]
    · simp only [List.countP_nil, Nat.add_zero]
  have hrest : Changes kinds c (s.seen c) ((s3.removeBuff taken.2 true).seen c) := by
    rw [← h1, ← h2]
    exact (changes_closeNodes c taken.2 _ s2).trans (changes_removeBuff c true taken.2 s3)
  split <;> exact hrest

theorem changes_sinkEnd_stopped (s : KHttp2) (c c' : CtxId) (h : s.readProcessing = false) :
    Changes kinds c (s.seen c) ((s.sinkEnd c').seen c) := by
  unfold sinkEnd
  split
  · exact s.changes_shutdown c c'
  · extract_lets s1
    have h1 : s1.readProcessing = s.readProcessing ∧
        Changes kinds c (s.seen c) (s1.seen c) := by
      dsimp only [s1]
      split
      · refine ⟨rfl, ?_⟩
        by_cases hne : c' = c
        · subst hne
          rw [s.seen_modify c' (fun ctx => { ctx with inClosed := true })
            (fun part => { part with inClosed := true }) rfl]
          exact .single .closeIn
        · exact changes_same c (s.seen_modify_other hne _)
      · exact ⟨rfl, .refl⟩
    rw [s1.writeEnd_stopped c' (h1.1.trans h)]
    exact h1.2

/-- Nobody waits in a write on the stream that a connection drops before it is deleted. -/
theorem changes_delete (s : KHttp2) (c : CtxId) (hread : s.readProcessing = false)
    (h : kinds .drop ∨ ∀ c, (s.ctx c).writeSuspended = false) :
    Changes kinds c (s.seen c) (s.delete.seen c) := by
  have hrelease : Changes kinds c (s.seen c) (s.releaseStateStream.seen c) := by
    unfold releaseStateStream
    split
    · exact .refl
    · rename_i c' hstream
      extract_lets s1 s2 s3
      have h3 : Changes kinds c (s.seen c) (s3.seen c) := by
        dsimp only [s3]
        split
        · rw [seen_destroyNode]
          have h2 : s2.seen c = s1.seen c := by
            dsimp only [s2]
            split <;> rfl
          rw [h2]
          refine (s.changes_sinkEnd_stopped c c' hread).trans (changes_release _ c c' ?_)
          exact h.symm.imp (fun h => (s.sinkEnd_keeps c' (h c')).2) id
        · exact .refl
      exact h3
  have hclean : ({ s.releaseStateStream with
      writeBuffer := s.releaseStateStream.writeBuffer.clean.1 } : KHttp2).holding c
        s.releaseStateStream.writeBuffer.clean.2 = s.releaseStateStream.seen c := by
    simp only [holding, Seen.hold, seen, body, Body.seen, KHttp2WriteBuffer.clean, List.countP_nil,
      Nat.zero_add]
  refine hrelease.trans ?_
  rw [← hclean]
  exact changes_removeBuff c true _ _

theorem changes_tryDelete (s : KHttp2) (c : CtxId) (h : kinds .drop ∨ s.Attended) :
    Changes kinds c (s.seen c) (s.tryDelete.seen c) := by
  unfold tryDelete
  split
  · rename_i hdestroy
    have hread : s.readProcessing = false := by
      simp only [canDestroy, Bool.and_eq_true, Bool.not_eq_true'] at hdestroy
      exact hdestroy.2
    exact s.changes_delete c hread (h.imp_right fun h => h.last hdestroy)
  · exact .refl

/-! ## DATA -/

theorem seen_copyReadBuffer (s : KHttp2) (c : CtxId) (len : ℕ) :
    (s.copyReadBuffer c len).1.seen c = ((s.seen c).set fun part =>
      { part with readBuffer := some ((part.readBuffer.getD []).drop len) }).log
        (.copied c (((s.seen c).part.readBuffer.getD []).take len)) := by
  have hmodify := s.seen_modify c
    (fun ctx => { ctx with readBuffer := some (((s.ctx c).readBuffer.getD []).drop len) })
    (fun part => { part with readBuffer := some ((part.readBuffer.getD []).drop len) }) rfl
  exact (seen_log _ c rfl rfl).trans (congrArg (fun v => Seen.log v _) hmodify)

theorem seen_copyReadBuffer_other (s : KHttp2) {c c' : CtxId} (hne : c' ≠ c) (len : ℕ) :
    (s.copyReadBuffer c' len).1.seen c = s.seen c := by
  have hmodify := s.seen_modify_other hne fun ctx =>
    { ctx with readBuffer := some (((s.ctx c').readBuffer.getD []).drop len) }
  exact (seen_log_other _ c (e := .copied c' _) fun _ h => hne (Option.some.inj h)).trans hmodify

theorem seen_wakeReader (s : KHttp2) (c : CtxId) (fin : Bool) :
    (s.wakeReader c fin).seen c = (s.seen c).wakeReader c fin := by
  unfold wakeReader Seen.wakeReader
  have hwait : (s.seen c).part.readWait = (s.ctx c).readWait := rfl
  rw [hwait]
  cases (s.ctx c).readWait with
  | none => rfl
  | some e =>
    dsimp only
    have hflush : ((s.modify c fun ctx => { ctx with readWait := none }).flushQueue c).seen c =
        (s.seen c).set fun part => { part with readWait := none } :=
      (seen_of_body (body_flushQueue _ c) c).trans (s.seen_modify c _ _ rfl)
    split
    · rw [seen_onRead, hflush]
    · have hgot : ∀ t : KHttp2, (t.copyReadBuffer c e.bufLen).2 =
          min ((t.seen c).part.readBuffer.getD []).length e.bufLen := fun t => rfl
      rw [seen_onRead, seen_copyReadBuffer, hgot, hflush]
      rfl

theorem seen_wakeReader_other (s : KHttp2) {c c' : CtxId} (hne : c' ≠ c) (fin : Bool) :
    (s.wakeReader c' fin).seen c = s.seen c := by
  unfold wakeReader
  split
  · rfl
  · rename_i e hwait
    extract_lets s1 r
    have h1 : s1.seen c = s.seen c :=
      (seen_of_body (body_flushQueue _ c') c).trans (s.seen_modify_other hne _)
    split
    · rw [seen_onRead_other _ hne, h1]
    · rw [seen_onRead_other _ hne, seen_copyReadBuffer_other _ hne, h1]

/-- The piece before is the last event of the stream, or another event came in between. -/
theorem seen_logData (s : KHttp2) (c : CtxId) (bytes : Bytes) :
    ∃ merge, (s.logData c bytes).seen c = (s.seen c).logData c bytes merge := by
  have hlog : (s.log (.data c bytes)).seen c = (s.seen c).logData c bytes false :=
    s.seen_log c rfl rfl
  unfold logData
  split
  · rename_i c' old trace htrace
    split
    · rename_i hc
      subst hc
      refine ⟨true, ?_⟩
      simp [seen, body, Body.seen, Seen.logData, htrace, Ev.isBody, Ev.about]
    · exact ⟨false, hlog⟩
  · exact ⟨false, hlog⟩

theorem seen_logData_other (s : KHttp2) {c c' : CtxId} (hne : c' ≠ c) (bytes : Bytes) :
    (s.logData c' bytes).seen c = s.seen c := by
  have hlog : (s.log (.data c' bytes)).seen c = s.seen c :=
    s.seen_log_other c fun _ h => hne (Option.some.inj h)
  unfold logData
  split
  · rename_i c'' old trace htrace
    split
    · rename_i hc
      subst hc
      simp [seen, body, Body.seen, htrace, Ev.isBody, Ev.about, hne]
    · exact hlog
  · exact hlog

theorem seen_takeData (s : KHttp2) (c : CtxId) (taken : Bytes) :
    ∃ merge, (s.takeData c taken).seen c = (s.seen c).takeData c taken merge := by
  unfold takeData
  extract_lets bytes s1
  have h1 : s1.seen c = (s.seen c).set fun part =>
      { part with readBuffer := some (part.readBuffer.getD [] ++ bytes) } :=
    s.seen_modify c _ _ rfl
  obtain ⟨merge, hdata⟩ := s1.seen_logData c taken
  refine ⟨merge, ?_⟩
  rw [seen_wakeReader, hdata, h1]
  rfl

theorem seen_takeData_other (s : KHttp2) {c c' : CtxId} (hne : c' ≠ c) (taken : Bytes) :
    (s.takeData c' taken).seen c = s.seen c := by
  unfold takeData
  extract_lets bytes s1
  rw [seen_wakeReader_other _ hne, seen_logData_other _ hne]
  exact s.seen_modify_other hne _

theorem seen_takeEnd (s : KHttp2) (c : CtxId) : (s.takeEnd c).seen c = (s.seen c).takeEnd c := by
  unfold takeEnd
  rw [seen_wakeReader, seen_log _ c rfl rfl, s.seen_modify c
    (fun ctx => { ctx with inClosed := true }) (fun part => { part with inClosed := true }) rfl]
  rfl

theorem seen_takeEnd_other (s : KHttp2) {c c' : CtxId} (hne : c' ≠ c) :
    (s.takeEnd c').seen c = s.seen c := by
  unfold takeEnd
  rw [seen_wakeReader_other _ hne,
    seen_log_other _ c (e := .endStream c') fun _ h => hne (Option.some.inj h)]
  exact s.seen_modify_other hne _

/-! ## All effects -/

/-- Assigning to a stream is seen by the stream only. -/
theorem changes_modify (s : KHttp2) (c c' : CtxId) (f : KHttp2Context → KHttp2Context)
    (g : Part → Part) (hpart : (f (s.ctx c')).part = g (s.ctx c').part)
    (hown : c' = c → Change kinds c (s.seen c) ((s.seen c).set g)) :
    Changes kinds c (s.seen c) ((s.modify c' f).seen c) := by
  by_cases hne : c' = c
  · have h := hown hne
    subst hne
    rw [s.seen_modify c' f g hpart]
    exact .single h
  · exact changes_same c (s.seen_modify_other hne f)

/-- Recording an event of a stream is seen by the stream only. -/
theorem changes_log (s : KHttp2) (c : CtxId) {c' : CtxId} {e : Ev} (hbody : e.isBody = true)
    (habout : e.about = some c') (hown : c' = c → Change kinds c (s.seen c) ((s.seen c).log e)) :
    Changes kinds c (s.seen c) ((s.log e).seen c) := by
  by_cases hne : c' = c
  · have h := hown hne
    subst hne
    rw [s.seen_log c' hbody habout]
    exact .single h
  · exact changes_same c (s.seen_log_other c fun _ h => hne (Option.some.inj (habout.symm.trans h)))

theorem changes_linkNode (s : KHttp2) (c c' : CtxId) (hnone : (s.ctx c').node = none) :
    Changes kinds c (s.seen c) ((s.linkNode c').seen c) := by
  unfold linkNode
  extract_lets s1
  have hnew : (s1.newNode s1.lastSelfSid c').seen c =
      (s.log (.openNode c' s1.lastSelfSid)).seen c := rfl
  by_cases hne : c' = c
  · subst hne
    rw [seen_modify _ c' (fun ctx => { ctx with node := some s1.lastSelfSid })
      (fun part => { part with node := some s1.lastSelfSid }) rfl, hnew, s.seen_log c' rfl rfl]
    exact .single (.link s1.lastSelfSid hnone)
  · refine changes_same c ((seen_modify_other _ hne _).trans (hnew.trans ?_))
    exact s.seen_log_other c (e := .openNode c' _) fun _ h => hne (Option.some.inj h)

theorem changes_output (s : KHttp2) (c c' : CtxId) (frame : QueuedFrame) (bufs : List Http2Buff)
    (hkind : kinds .output) (hbufs : ∀ b ∈ bufs, b.ctx = none) (hstream : frame.stream = some c')
    (htype : frame.type = headersFrame ∨ frame.type = dataFrame ∧ frame.length = 0) :
    Changes kinds c (s.seen c) ((s.pushFrame frame bufs).seen c) := by
  have hnone : ∀ b ∈ bufs, b.ctx ≠ some c := fun b hb h => by
    rw [hbufs b hb] at h
    cases h
  by_cases hne : c' = c
  · subst hne
    rw [s.seen_pushFrame c' frame bufs hnone hstream]
    exact .single (.output frame hkind htype)
  · refine changes_same c (s.seen_pushFrame_other c frame bufs hnone fun h => hne ?_)
    exact Option.some.inj (hstream.symm.trans h)

theorem changes_suspend (s : KHttp2) (c c' : CtxId) (e : WriteEvent) (hkind : kinds .write)
    (hold : (s.ctx c').writeSuspended = false) (hwindow : e.forWindow = true) :
    Changes kinds c (s.seen c)
      (((s.log (.waitWrite c')).modify c' fun ctx => { ctx with writeWait := some e }).seen c) := by
  by_cases hne : c' = c
  · subst hne
    rw [seen_modify _ c' (fun ctx => { ctx with writeWait := some e })
      (fun part => { part with writeWait := some e }) rfl, s.seen_log c' rfl rfl]
    exact .single (.suspend e hkind hold hwindow)
  · refine changes_same c ((seen_modify_other _ hne _).trans ?_)
    exact s.seen_log_other c (e := .waitWrite c') fun _ h => hne (Option.some.inj h)

theorem changes_send (s : KHttp2) (c c' : CtxId) (e : WriteEvent) (len : ℕ)
    (hwait : (s.ctx c').writeWait = some e) (hwindow : e.forWindow = true) :
    Changes kinds c (s.seen c)
      (({ s.sendData c' e len with writeProcessing := true } : KHttp2).seen c) := by
  show Changes kinds c (s.seen c) ((s.sendData c' e len).seen c)
  by_cases hne : c' = c
  · subst hne
    obtain ⟨fin, frame, htype, hlength, heq⟩ := s.seen_sendData c' e len
    rw [heq]
    exact .single (.send e _ fin frame hwait hwindow htype hlength)
  · exact changes_same c (s.seen_sendData_other hne e len)

theorem changes_refill (s : KHttp2) (c c' : CtxId) (hopen : (s.ctx c').inClosed = false)
    (hlow : (s.ctx c').recvWindow + strLen (s.ctx c').readBuffer < streamRecvWindow / 4) :
    Changes kinds c (s.seen c) (((s.sendWindowUpdate (some c') ((s.ctx c').node.getD 0)
      (streamRecvWindow - (s.ctx c').recvWindow)).1.modify c' fun ctx =>
        { ctx with recvWindow := streamRecvWindow }).seen c) := by
  have hpos : streamRecvWindow - (s.ctx c').recvWindow ≠ 0 := by
    have hquarter : streamRecvWindow / 4 ≤ streamRecvWindow := Nat.div_le_self _ _
    omega
  unfold sendWindowUpdate
  rw [if_neg hpos]
  unfold pushGetFrame
  generalize hn : streamRecvWindow - (s.ctx c').recvWindow = n
  have hbufs : ∀ c'' : CtxId,
    ∀ b ∈ [{ getFrame ((s.ctx c').node.getD 0) (htonl n) windowUpdateFrame 0 with
      tcpNodelay := true }], b.ctx ≠ some c'' := fun c'' b hb => by
    rw [List.mem_singleton.mp hb]
    exact fun h => by cases h
  by_cases hne : c' = c
  · subst hne
    rw [seen_modify _ c' (fun ctx => { ctx with recvWindow := streamRecvWindow })
      (fun part => { part with recvWindow := streamRecvWindow }) rfl,
      seen_pushFrame _ c' _ _ (hbufs c') rfl, s.seen_log c' rfl rfl, ← hn]
    exact .single (.refill _ hopen hlow rfl)
  · refine changes_same c ((seen_modify_other _ hne _).trans ?_)
    refine (seen_pushFrame_other _ c _ _ (hbufs c) fun h => hne (Option.some.inj h)).trans ?_
    exact s.seen_log_other c (e := .windowUpdateSent (some c') n) fun _ h => hne (Option.some.inj h)

theorem changes_copy (s : KHttp2) (c c' : CtxId) (len : ℕ)
    (hfull : strLen (s.ctx c').readBuffer ≠ 0) :
    Changes kinds c (s.seen c)
      (((s.copyReadBuffer c' len).1.log (.readReturns c' (s.copyReadBuffer c' len).2)).seen c) := by
  by_cases hne : c' = c
  · subst hne
    rw [seen_log _ c' rfl rfl, seen_copyReadBuffer]
    exact .single (.copy len hfull)
  · refine changes_same c ?_
    rw [seen_log_other _ c (e := .readReturns c' _) fun _ h => hne (Option.some.inj h)]
    exact s.seen_copyReadBuffer_other hne len

theorem changes_headerWake (s : KHttp2) (c c' : CtxId) (w : Option ReadEvent)
    (hw : ∀ e ∈ w, ∃ e' ∈ (s.ctx c').readWait, e'.header = e.header)
    (hkind : (s.ctx c').bodyReader = true → (s.ctx c').inClosed = false → kinds .interim) :
    Changes kinds c (s.seen c) (((s.modify c' fun ctx => { ctx with readWait := w }).onRead c'
      (s.ctx c').readWait 0).seen c) := by
  by_cases hne : c' = c
  · subst hne
    rw [seen_onRead, s.seen_modify c' (fun ctx => { ctx with readWait := w })
      (fun part => { part with readWait := w }) rfl]
    exact .single (.headerWake w hw hkind)
  · exact changes_same c ((seen_onRead_other _ hne _ _).trans (s.seen_modify_other hne _))

theorem seen_logEnd (s : KHttp2) (c : CtxId) (fin : Bool) :
    (s.logEnd c fin).seen c = if fin then (s.seen c).log (.endStream c) else s.seen c := by
  unfold logEnd
  split
  · exact s.seen_log c rfl rfl
  · rfl

theorem seen_logEnd_other (s : KHttp2) {c c' : CtxId} (hne : c' ≠ c) (fin : Bool) :
    (s.logEnd c' fin).seen c = s.seen c := by
  unfold logEnd
  split
  · exact s.seen_log_other c fun _ h => hne (Option.some.inj h)
  · rfl

theorem changes_headersIn (s : KHttp2) (c c' : CtxId) (fin : Bool) (hrst : (s.ctx c').rst = false)
    (hopen : (s.ctx c').inClosed = false) :
    Changes kinds c (s.seen c)
      (((s.modify c' fun ctx => { ctx with inClosed := fin }).logEnd c' fin).seen c) := by
  by_cases hne : c' = c
  · subst hne
    rw [seen_logEnd, s.seen_modify c' (fun ctx => { ctx with inClosed := fin })
      (fun part => { part with inClosed := fin }) rfl]
    exact .single (.headersIn fin hrst hopen)
  · exact changes_same c ((seen_logEnd_other _ hne fin).trans (s.seen_modify_other hne _))

theorem changes_openStream (s : KHttp2) (p : Bytes) (c : CtxId) :
    Changes kinds c (s.seen c) ((s.headersNewStream p).1.seen c) := by
  by_cases hne : s.nextCtx = c
  · subst hne
    have heq : (s.headersNewStream p).1.seen s.nextCtx =
        (if hasFlag s.state.flags endStreamFlag then
          ((s.seen s.nextCtx).set fun _ => .init (some s.state.sid)
            (hasFlag s.state.flags endStreamFlag)).log (.endStream s.nextCtx)
        else (s.seen s.nextCtx).set fun _ => .init (some s.state.sid)
          (hasFlag s.state.flags endStreamFlag)).log (.openNode s.nextCtx s.state.sid) := by
      cases hclient : s.clientModel <;> cases hfin : hasFlag s.state.flags endStreamFlag <;>
        simp [headersNewStream, createStream, hclient, hfin, logEnd, setState, modify, newNode, log,
          seen, body, Body.seen, Seen.set, Seen.log, Part.init, KHttp2Context.part,
          KHttp2Context.init, Ev.isBody, Ev.about]
    rw [heq]
    exact .single (.openStream s.state.sid _)
  · refine changes_same c ?_
    cases hclient : s.clientModel <;> cases hfin : hasFlag s.state.flags endStreamFlag <;>
      simp [headersNewStream, createStream, hclient, hfin, logEnd, setState, modify, newNode, log,
        seen, body, Body.seen, Ev.isBody, Ev.about, Function.update_of_ne (Ne.symm hne), hne]

theorem seen_newClientStream (s : KHttp2) (c : CtxId) (processing : ℤ) (admin : Bool) :
    ({ s with processing := processing }.newClientStream admin).seen c =
      (s.modify s.nextCtx fun _ =>
        { KHttp2Context.init (toInt32 s.initWindow) with adminStream := admin }).seen c := by
  cases hclient : s.clientModel <;>
    simp [newClientStream, createStream, hclient, setState, modify, seen, body, Body.seen]

theorem changes_newClientStream (s : KHttp2) (c : CtxId) (processing : ℤ) (admin : Bool) :
    Changes kinds c (s.seen c)
      (({ s with processing := processing }.newClientStream admin).seen c) := by
  rw [seen_newClientStream]
  exact s.changes_modify c s.nextCtx _ (fun _ => .init none false) rfl fun _ => .newStream

theorem changes_start (s : KHttp2) (c c' : CtxId) :
    Changes kinds c (s.seen c) ((s.startRequest c').seen c) := by
  refine changes_same c ?_
  unfold startRequest
  extract_lets s1
  have h1 : s1.seen c = s.seen c := seen_of_body (body_modify rfl) c
  exact (s1.seen_log_other c (e := .startFiber c' ((s1.ctx c').node.getD 0)) fun h => by
    cases h).trans h1

theorem seen_chargeRefill (s : KHttp2) (c : CtxId) :
    ({ (s.sendWindowUpdate none 0 (connectionRecvWindow - s.recvWindow)).1
      with recvWindow := connectionRecvWindow } : KHttp2).seen c = s.seen c := by
  show (s.sendWindowUpdate none 0 (connectionRecvWindow - s.recvWindow)).1.seen c = s.seen c
  unfold sendWindowUpdate
  split
  · rfl
  · refine (seen_pushFrame_other _ c _ _ (fun b hb => ?_) fun h => by cases h).trans ?_
    · rw [List.mem_singleton.mp hb]
      exact fun h => by cases h
    · exact s.seen_log_other c (e := .windowUpdateSent none _) fun _ h => by cases h

/-- Every effect is seen from a stream as changes. -/
theorem changes_effect {kinds' : Kind → Prop} {s t : KHttp2} (c : CtxId) (h : Effect kinds s t)
    (hsub : ∀ kind, kinds kind → kinds' kind) (hattended : kinds' .drop ∨ s.Attended) :
    Changes kinds' c (s.seen c) (t.seen c) := by
  cases h with
  | soft h _ => exact changes_same c (seen_of_body h c)
  | frameHead sid length type flags _ =>
    exact changes_same c
      (s.seen_log_other c (e := .frameHead sid length type flags) fun _ h => by cases h)
  | push frame bufs hbufs hdata hheaders => exact s.changes_push c frame bufs hbufs hdata hheaders
  | startWrite => exact changes_same c (s.seen_startWrite c)
  | linkNode c' _ hnone => exact s.changes_linkNode c c' hnone
  | output c' frame bufs hkind hbufs hstream htype =>
    exact s.changes_output c c' frame bufs (hsub _ hkind) hbufs hstream htype
  | closeOut c' fin hkind =>
    exact s.changes_modify c c' _ (fun part => { part with outClosed := part.outClosed || fin }) rfl
      fun _ => .closeOut fin (hsub _ hkind)
  | closeIn c' =>
    exact s.changes_modify c c' _ (fun part => { part with inClosed := true }) rfl fun _ => .closeIn
  | hup c' w hold hnew =>
    refine s.changes_modify c c' _ (fun part => { part with writeWait := w }) rfl fun hc => ?_
    subst hc
    exact .hup w hold hnew
  | suspend c' e hkind _ hold hwindow => exact s.changes_suspend c c' e (hsub _ hkind) hold hwindow
  | send c' e len hwait hwindow _ => exact s.changes_send c c' e len hwait hwindow
  | written got _ => exact s.changes_written c got
  | stopWrite _ => exact .refl
  | reset c' rst clear => exact s.changes_resetWith c c' rst clear
  | closeStreams read status => exact s.changes_closeStreams c read status
  | tryDelete => exact s.changes_tryDelete c hattended
  | refill c' hopen hlow => exact s.changes_refill c c' hopen hlow
  | copy c' len hfull => exact s.changes_copy c c' len hfull
  | returns c' got hempty h =>
    have habout : (Ev.readReturns c' got).about = some c' := rfl
    refine s.changes_log c rfl habout fun hc => ?_
    subst hc
    exact .returns got hempty h
  | readWait c' len hempty hrst hopen hwindow =>
    refine s.changes_modify c c' _
      (fun part => { part with readWait := some ⟨true, false, len⟩ }) rfl
      fun hc => ?_
    subst hc
    exact .readWait len hempty hrst hopen hwindow
  | headerWait c' w hw =>
    refine s.changes_modify c c' _ (fun part => { part with readWait := w }) rfl fun hc => ?_
    subst hc
    exact .headerWait w hw
  | headerWake c' w hw hkind =>
    exact s.changes_headerWake c c' w (fun e he => (hw e he).2)
      fun hreader hopen => hsub _ (hkind hreader hopen)
  | headersIn c' fin hrst hopen => exact s.changes_headersIn c c' fin hrst hopen
  | openStream p _ => exact s.changes_openStream p c
  | newClientStream processing admin _ _ => exact s.changes_newClientStream c processing admin
  | start c' _ _ => exact s.changes_start c c'
  | release c' h => exact s.changes_release c c' (h.imp And.right (hsub _))
  | gc c' _ _ h => exact s.changes_releaseStream c c' (Or.inl h)
  | destroyPooled c' h =>
    have hidle := hattended.symm.imp_left fun ha : s.Attended => ha.pooled c' h
    exact changes_release { s with pooled := s.pooled.erase c' } c c' hidle
  | charge length _ _ => exact .refl
  | chargeRefill _ => exact changes_same c (s.seen_chargeRefill c)
  | chargeStream c' length hkind h =>
    refine s.changes_modify c c' _
      (fun part => { part with recvWindow := part.recvWindow - length })
      rfl fun hc => ?_
    subst hc
    exact .chargeStream length (hsub _ hkind) h
  | takeData c' taken hkind =>
    by_cases hne : c' = c
    · subst hne
      obtain ⟨merge, heq⟩ := s.seen_takeData c' taken
      rw [heq]
      exact .single (.takeData taken merge (hsub _ hkind))
    · exact changes_same c (s.seen_takeData_other hne taken)
  | takeEnd c' hkind =>
    by_cases hne : c' = c
    · subst hne
      rw [s.seen_takeEnd c']
      exact .single (.takeEnd (hsub _ hkind))
    · exact changes_same c (s.seen_takeEnd_other hne)

end KHttp2

end Khttpd
