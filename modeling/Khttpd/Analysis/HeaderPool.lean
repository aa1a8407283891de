import Khttpd.Analysis.DataFrames
import Khttpd.Analysis.Resting
import Khttpd.Analysis.Wakeup

/-!
# The pool that headers are copied to

The parser borrows the pool of a request while it reads a header block, and `state_field_len` and
`get_indexed_header` allocate from it. The stream of the parser says whose pool it is and whether
that request is gone; `state_field_len` looks at it before it allocates, `get_indexed_header` does
not.
-/

set_option autoImplicit false

namespace Khttpd

/-- The handlers of a header block. -/
def Handler.inBlock : Handler → Bool
  | .stateHeaderBlock | .stateProcessHeader | .stateHeaderComplete | .stateFieldLen
  | .stateFieldHuff | .stateFieldRaw | .stateFieldSkip => true
  | _ => false

/-- The handlers that may come before the parser lets its stream go. -/
def Handler.endsFrame : Handler → Bool
  | .stateReadData | .stateSkip | .stateComplete => true
  | _ => false

/-- The handlers that come between two frames and keep the parser as it is. -/
def Handler.plain (h : Handler) : Bool :=
  !h.inBlock && !h.endsFrame && h ≠ .stateData && h ≠ .stateHeaders

/-- Within a header block the parser holds the pool of its stream, elsewhere none. -/
def ParserState.Pooled (h : Handler) (st : ParserState) : Prop :=
  if h.inBlock then st.pool = st.stream
  else st.pool = none ∧ (h.endsFrame = false → st.stream = none)

namespace KHttp2

/-! ## Allocations -/

/-- `get_indexed_header` reaches its allocations: the index names an entry of the dynamic table. -/
def indexesEntry (s : KHttp2) (index : ℕ) : Bool :=
  index ≠ 0 && (staticTable[index - 1]?).isNone &&
    index - 1 - staticTable.length < s.hpack.added - s.hpack.deleted

/-- The index that `state_header_block` passes to `get_indexed_header`. -/
def blockIndex (s : KHttp2) (p : Bytes) : Option ℕ :=
  match p with
  | [] => none
  | ch :: _ =>
    if !hasFlag s.state.flags endHeadersFlag && s.state.length < intOctets then none
    else
      match parseInt s.state.length p (fieldPrefix ch) with
      | .value value _ =>
        if ch ≥ 128 then some value
        else if 32 ≤ ch ∧ ch < 64 then none
        else if value = 0 then none
        else some value
      | _ => none

/-- `state_field_len` reaches its allocation. -/
def copiesField (s : KHttp2) (p : Bytes) : Bool :=
  !(!hasFlag s.state.flags endHeadersFlag && s.state.length < intOctets) && 1 ≤ s.state.length &&
    !p.isEmpty &&
    match parseInt s.state.length p 127 with
    | .value len _ => len ≤ maxFieldSize && !s.state.stream.all fun c => (s.ctx c).destroyByHttp2
    | _ => false

/-- A call copies an entry of the dynamic table to the pool. -/
def copiesEntry (call : Handler × KHttp2 × Bytes) : Bool :=
  call.1 = .stateHeaderBlock && (call.2.1.blockIndex call.2.2).any call.2.1.indexesEntry

/-- A call allocates from the pool of the parser. -/
def allocates (call : Handler × KHttp2 × Bytes) : Bool :=
  copiesEntry call || call.1 = .stateFieldLen && call.2.1.copiesField call.2.2

/-- The pool of the parser belongs to a request that is not destroyed. -/
def PoolLive (s : KHttp2) : Prop := ∃ c, s.state.pool = some c ∧ .releaseAdmin c ∉ s.trace

/-- The parser holds a stream whose request is not destroyed. -/
def HoldsRequest (s : KHttp2) : Prop :=
  ∃ c, s.state.stream = some c ∧ (s.ctx c).destroyByHttp2 = false

/-! ## Where the pool comes from -/

/-- The pool and the stream of the parser stay as they are. -/
structure Grips (s t : KHttp2) : Prop where
  pool : t.state.pool = s.state.pool
  stream : t.state.stream = s.state.stream

theorem Grips.refl (s : KHttp2) : Grips s s := ⟨rfl, rfl⟩

theorem Grips.trans {s t u : KHttp2} (hst : Grips s t) (htu : Grips t u) : Grips s u :=
  ⟨htu.pool.trans hst.pool, htu.stream.trans hst.stream⟩

theorem Grips.of_state {s t : KHttp2} (h : t.state = s.state) : Grips s t :=
  ⟨congrArg ParserState.pool h, congrArg ParserState.stream h⟩

theorem Grips.of_calm {s t : KHttp2} (h : Calm s t) : Grips s t := .of_state h.state

theorem grips_setState (s : KHttp2) {f : ParserState → ParserState}
    (hpool : (f s.state).pool = s.state.pool) (hstream : (f s.state).stream = s.state.stream) :
    Grips s (s.setState f) := ⟨hpool, hstream⟩

theorem grips_log (s : KHttp2) (e : Ev) : Grips s (s.log e) := ⟨rfl, rfl⟩

/-- A handler goes on with handlers in `P` and keeps the pool and the stream, or stops for good. -/
def Stays (P : Handler → Prop) (s : KHttp2) (r : KHttp2 × Ret) : Prop :=
  ∀ h ∈ r.2.next, P h ∧ Grips s r.1

namespace Stays

variable {P : Handler → Prop} {s t : KHttp2} {h : Handler} {q : Bytes}

theorem fail (status : ℕ) : Stays P s (t.fail status) := fun _ hh => by cases hh

theorem jump (hP : P h) (hg : Grips s t) : Stays P s (t, .jump h q) := fun _ hh => by
  cases hh
  exact ⟨hP, hg⟩

theorem pos (hP : P h) (hg : Grips s t) : Stays P s (t, .pos h q) := fun _ hh => by
  cases hh
  exact ⟨hP, hg⟩

theorem save (hP : P h) (hg : Grips s t) : Stays P s (t.stateSave q h) := by
  unfold stateSave
  split
  · exact .fail _
  · intro _ hh
    cases hh
    exact ⟨hP, hg⟩

theorem after {r : KHttp2 × Ret} (hg : Grips s t) (hr : Stays P t r) : Stays P s r :=
  fun h hh => ⟨(hr h hh).1, hg.trans (hr h hh).2⟩

end Stays

/-! ### Header blocks -/

/-- A handler of a header block. -/
abbrev InBlock (h : Handler) : Prop := h.inBlock = true

theorem stays_handleContinuation {P : Handler → Prop} (s : KHttp2) (p : Bytes) {h : Handler}
    (hP : P h) : Stays P s (s.handleContinuation p h) := by
  unfold handleContinuation
  extract_lets len skip s1 p1 head s2
  have h1 : Grips s s1 := ⟨rfl, rfl⟩
  split
  · exact .save hP h1
  · split
    · exact .fail _
    · split
      · exact .fail _
      · exact .pos hP (h1.trans ⟨rfl, rfl⟩)

theorem grips_getIndexedHeader {s t : KHttp2} {index : ℕ} {nameOnly : Bool}
    (h : s.getIndexedHeader index nameOnly = some t) : Grips s t := by
  unfold getIndexedHeader at h
  split at h
  · cases h
  · split at h
    · cases h
      exact ⟨rfl, rfl⟩
    · extract_lets index' e s1 name value at h
      split at h
      · cases h
        have h1 : Grips s s1 := by
          dsimp only [s1]
          split
          · exact .of_calm s.calm_setFault
          · exact .refl s
        exact h1.trans ⟨rfl, rfl⟩
      · cases h

theorem stays_stateHeaderBlock (s : KHttp2) (p : Bytes) :
    Stays InBlock s (s.stateHeaderBlock p) := by
  unfold stateHeaderBlock
  split
  · exact .save rfl (.refl s)
  · split
    · exact s.stays_handleContinuation _ rfl
    · rename_i ch rest hcont
      extract_lets s1
      have h1 : Grips s s1 := by
        dsimp only [s1]
        split <;> exact ⟨rfl, rfl⟩
      refine .after h1 ?_
      split
      · exact .save rfl (.refl s1)
      · exact .fail _
      · exact .fail _
      · rename_i value used hvalue
        extract_lets s2 p1 named
        have h2 : Grips s1 s2 := ⟨rfl, rfl⟩
        refine .after h2 ?_
        split
        · split
          · exact .fail _
          · exact .jump rfl (grips_getIndexedHeader ‹_›)
        · split
          · split
            · exact .fail _
            · exact .jump rfl ⟨rfl, rfl⟩
          · cases hnamed : named with
            | none => exact .fail _
            | some s3 =>
              have h3 : Grips s2 s3 := by
                dsimp only [named] at hnamed
                split at hnamed
                · cases hnamed
                  exact ⟨rfl, rfl⟩
                · exact grips_getIndexedHeader hnamed
              exact .jump rfl (h3.trans ⟨rfl, rfl⟩)

theorem grips_insertHeader (s : KHttp2) : Grips s s.insertHeader := by
  unfold insertHeader
  split <;> exact ⟨rfl, rfl⟩

theorem grips_deliverHeader (s : KHttp2) : Grips s s.deliverHeader := by
  unfold deliverHeader
  split
  · split
    · exact .refl s
    · split
      · exact ⟨rfl, rfl⟩
      · dsimp only
        split <;> exact ⟨rfl, rfl⟩
  · exact .refl s

theorem stays_stateProcessHeader (s : KHttp2) (p : Bytes) :
    Stays InBlock s (s.stateProcessHeader p) := by
  unfold stateProcessHeader
  extract_lets s1 s2 len s3
  split
  · split
    · exact .fail _
    · exact .jump rfl ⟨rfl, rfl⟩
  · have h2 : Grips s s2 := by
      dsimp only [s2]
      split <;> exact ⟨rfl, rfl⟩
    have h3 : Grips s2 s3 := ⟨rfl, rfl⟩
    split
    · exact .fail _
    · exact .jump rfl ((h2.trans h3).trans (s3.grips_insertHeader.trans (grips_deliverHeader _)))

theorem stays_stateFieldLen (s : KHttp2) (p : Bytes) : Stays InBlock s (s.stateFieldLen p) := by
  unfold stateFieldLen
  split
  · exact s.stays_handleContinuation _ rfl
  · split
    · exact .fail _
    · split
      · exact .save rfl (.refl s)
      · split
        · exact .save rfl (.refl s)
        · exact .fail _
        · exact .fail _
        · extract_lets s1 p1
          split
          · exact .jump rfl ⟨rfl, rfl⟩
          · split
            · exact .jump rfl ⟨rfl, rfl⟩
            · refine .jump ?_ ⟨rfl, rfl⟩
              split <;> rfl

theorem stays_fieldNext (s : KHttp2) (p : Bytes) {h : Handler} (hP : InBlock h) :
    Stays InBlock s (s.fieldNext p h) := by
  unfold fieldNext
  split
  · exact .jump rfl (.refl s)
  · split
    · exact .save hP (.refl s)
    · split
      · exact .fail _
      · exact s.stays_handleContinuation _ hP

theorem stays_stateFieldHuff (codes : HuffDecodeCodes) (s : KHttp2) (p : Bytes) :
    Stays InBlock s (s.stateFieldHuff codes p) := by
  unfold stateFieldHuff
  extract_lets size s1
  split
  · exact .fail _
  · refine .after ?_ (stays_fieldNext _ _ rfl)
    exact ⟨rfl, rfl⟩

theorem stays_stateFieldRaw (s : KHttp2) (p : Bytes) : Stays InBlock s (s.stateFieldRaw p) := by
  unfold stateFieldRaw
  refine .after ?_ (stays_fieldNext _ _ rfl)
  exact ⟨rfl, rfl⟩

theorem stays_stateFieldSkip (s : KHttp2) (p : Bytes) : Stays InBlock s (s.stateFieldSkip p) := by
  unfold stateFieldSkip
  refine .after ?_ (stays_fieldNext _ _ rfl)
  exact ⟨rfl, rfl⟩

/-- The end of a header block, where the pool goes back. -/
theorem pooled_stateHeaderComplete (s : KHttp2) (p : Bytes)
    (hs : s.state.Pooled .stateHeaderComplete) :
    ∀ h ∈ (s.stateHeaderComplete p).2.next, (s.stateHeaderComplete p).1.state.Pooled h := by
  intro h hh
  unfold stateHeaderComplete at hh ⊢
  split at hh
  · rename_i hlength
    rw [if_pos hlength]
    cases hh
    exact hs
  · rename_i hlength
    rw [if_neg hlength]
    split at hh
    · rename_i hflag
      rw [if_pos hflag]
      have hstays : Stays (· = .stateHeaderComplete) s
        (s.handleContinuation p .stateHeaderComplete) :=
        s.stays_handleContinuation p rfl
      obtain ⟨rfl, hg⟩ := hstays h hh
      have hpool : s.state.pool = s.state.stream := hs
      show _ = _
      rw [hg.pool, hg.stream, hpool]
    · rename_i hflag
      rw [if_neg hflag]
      extract_lets at hh ⊢
      unfold endFrame at hh ⊢
      split at hh
      · rename_i hpadding
        rw [if_pos hpadding]
        cases hh
        exact ⟨rfl, fun h => by cases h⟩
      · rename_i hpadding
        rw [if_neg hpadding]
        cases hh
        exact ⟨rfl, fun h => by cases h⟩

/-! ### HEADERS -/

theorem pooled_headersForStream {s : KHttp2} (c : CtxId) (p : Bytes) (hpool : s.state.pool = none)
    (hstream : s.state.stream = none) :
    ∀ h ∈ (s.headersForStream c p).2.next, (s.headersForStream c p).1.state.Pooled h := by
  intro h hh
  unfold headersForStream at hh ⊢
  extract_lets s1 s2 fin at hh ⊢
  split at hh
  · rename_i hclosed
    rw [if_pos hclosed]
    cases hh
    exact ⟨hpool, fun _ => hstream⟩
  · rename_i hopen
    rw [if_neg hopen]
    cases hh
    have hlog : ∀ t : KHttp2, (t.logEnd c fin).state = t.state := by
      intro t
      unfold logEnd
      split <;> rfl
    show (KHttp2.logEnd _ c fin).state.pool = (KHttp2.logEnd _ c fin).state.stream
    rw [hlog]
    rfl

theorem pooled_headersNewStream (s : KHttp2) (p : Bytes) :
    ∀ h ∈ (s.headersNewStream p).2.next, (s.headersNewStream p).1.state.Pooled h := by
  intro h hh
  cases hh
  rfl

theorem pooled_headersStream {s : KHttp2} (depend : ℕ) (p : Bytes) (hpool : s.state.pool = none)
    (hstream : s.state.stream = none) :
    ∀ h ∈ (s.headersStream depend p).2.next, (s.headersStream depend p).1.state.Pooled h := by
  have hrefused : ∀ (t : KHttp2) (status : ℕ), t.state = s.state →
      ∀ h ∈ some Handler.stateHeaderBlock,
        (t.sendRstStream none s.state.sid status).state.Pooled h := by
    intro t status ht h hh
    cases hh
    have hstate := (t.calm_sendRstStream none s.state.sid status).state.trans ht
    show (t.sendRstStream none s.state.sid status).state.pool = _
    rw [hstate, hpool, hstream]
  unfold headersStream
  extract_lets sid s1
  split
  · split
    · intro h hh
      cases hh
      exact ⟨hpool, fun _ => hstream⟩
    · exact pooled_headersForStream _ p hpool hstream
  · split
    · intro h hh
      cases hh
    · split
      · exact hrefused s noError rfl
      · split
        · exact hrefused s1 protocolError rfl
        · split
          · exact pooled_headersForStream (s := s1) _ p hpool hstream
          · exact s1.pooled_headersNewStream p

theorem pooled_stateHeaders {s : KHttp2} (p : Bytes) (hpool : s.state.pool = none)
    (hstream : s.state.stream = none) :
    ∀ h ∈ (s.stateHeaders p).2.next, (s.stateHeaders p).1.state.Pooled h := by
  unfold stateHeaders
  extract_lets s1 padded priority size s2 s3 s4 depend
  have h3 : Grips s s3 := by
    dsimp only [s3]
    split <;> exact ⟨rfl, rfl⟩
  have h4 : Grips s s4 := by
    dsimp only [s4]
    split
    · exact h3.trans ⟨rfl, rfl⟩
    · exact h3
  split
  · intro h hh
    cases hh
  · split
    · intro h hh
      cases hh
    · split
      · intro h hh
        have hsave : Stays (· = .stateHeaders) s (s1.stateSave p .stateHeaders) :=
          .save rfl ⟨rfl, rfl⟩
        obtain ⟨rfl, hg⟩ := hsave h hh
        exact ⟨hg.pool.trans hpool, fun _ => hg.stream.trans hstream⟩
      · split
        · intro h hh
          cases hh
        · exact pooled_headersStream depend _ (h4.pool.trans hpool) (h4.stream.trans hstream)

/-! ### DATA -/

/-- A handler of the end of a frame keeps the pool, which is none, and goes on with one. -/
def Ends (s : KHttp2) (r : KHttp2 × Ret) : Prop :=
  ∀ h ∈ r.2.next, (h.inBlock = false ∧ h.endsFrame = true) ∧ r.1.state.pool = s.state.pool

theorem Ends.pooled {s : KHttp2} {r : KHttp2 × Ret} (h : Ends s r) (hpool : s.state.pool = none) :
    ∀ h ∈ r.2.next, r.1.state.Pooled h := by
  intro h' hh
  obtain ⟨⟨hblock, hend⟩, hkeep⟩ := h h' hh
  unfold ParserState.Pooled
  rw [hblock]
  refine ⟨hkeep.trans hpool, fun hnot => ?_⟩
  rw [hend] at hnot
  cases hnot

theorem Ends.after {s t : KHttp2} {r : KHttp2 × Ret} (hg : t.state.pool = s.state.pool)
    (hr : Ends t r) : Ends s r :=
  fun h hh => ⟨(hr h hh).1, (hr h hh).2.trans hg⟩

theorem ends_stateSkipPadded (s : KHttp2) (p : Bytes) : Ends s (s.stateSkipPadded p) := by
  intro h hh
  cases hh
  exact ⟨⟨rfl, rfl⟩, rfl⟩

theorem ends_endFrame (s : KHttp2) (p : Bytes) : Ends s (s.endFrame p) := by
  unfold endFrame
  split
  · exact s.ends_stateSkipPadded p
  · intro h hh
    cases hh
    exact ⟨⟨rfl, rfl⟩, rfl⟩

theorem state_ite_startWrite (s : KHttp2) (b : Bool) :
    (if b then s.startWrite else s).state = s.state := by
  split
  · exact s.calm_startWrite.state
  · rfl

theorem ends_dataStream (s : KHttp2) (flag : Bool) (p : Bytes) : Ends s (s.dataStream flag p) := by
  have hterminate : ∀ (t : KHttp2) (c : CtxId) (status : ℕ),
      (t.terminateStream c status).1.state = t.state := fun t c status =>
    (t.calm_terminateStream c status).state
  unfold dataStream
  split
  · exact .after (congrArg _ (s.state_ite_startWrite flag)) (ends_stateSkipPadded _ p)
  · rename_i id c hnode
    split
    · exact .after (congrArg _ (hterminate s c _)) (ends_stateSkipPadded _ p)
    · split
      · exact .after (congrArg _ (hterminate s c _)) (ends_stateSkipPadded _ p)
      · extract_lets s1 r s2
        split
        · refine .after ?_ (ends_stateSkipPadded _ p)
          exact congrArg _ ((state_ite_startWrite r.1 (!r.2 && flag)).trans (hterminate s1 c _))
        · intro h hh
          cases hh
          exact ⟨⟨rfl, rfl⟩, (congrArg ParserState.pool (s2.state_ite_startWrite flag)).trans rfl⟩

theorem ends_stateReadData (s : KHttp2) (p : Bytes) : Ends s (s.stateReadData p) := by
  unfold stateReadData
  split
  · exact s.ends_stateSkipPadded p
  · rename_i c hstream
    extract_lets size bytes s3 s1 p1 s2
    have hlog : ∀ (t : KHttp2) (bytes : Bytes), (t.logData c bytes).state = t.state := by
      intro t bytes
      unfold logData
      split
      · split <;> rfl
      · rfl
    have h1 : s1.state.pool = s.state.pool := by
      dsimp only [s1]
      split
      · rfl
      · have hread := (calm_wakeReader (s3.logData c (p.take size)) c false).state
        exact (congrArg ParserState.pool (hread.trans (hlog s3 (p.take size)))).trans rfl
    refine .after h1 ?_
    split
    · intro h hh
      have hsave : Stays (· = .stateReadData) s1 (s1.stateSave p1 .stateReadData) :=
        .save rfl (.refl s1)
      obtain ⟨rfl, hg⟩ := hsave h hh
      exact ⟨⟨rfl, rfl⟩, hg.pool⟩
    · refine .after ?_ (s2.ends_endFrame p1)
      dsimp only [s2]
      split
      · exact congrArg ParserState.pool (calm_wakeReader _ c true).state
      · rfl

theorem pooled_stateData {s : KHttp2} (p : Bytes) (hs : s.state.Pooled .stateData) :
    ∀ h ∈ (s.stateData p).2.next, (s.stateData p).1.state.Pooled h := by
  have hflow : ∀ (t : KHttp2) (q : Bytes), t.state.pool = s.state.pool →
      ∀ h ∈ (t.dataFlow q).2.next, (t.dataFlow q).1.state.Pooled h := by
    intro t q ht
    unfold dataFlow
    split
    · intro h hh
      cases hh
    · have hends := ends_dataStream t.useRecvWindow.1 t.useRecvWindow.2 q
      exact hends.pooled ((congrArg _ t.useRecvWindow_keeps.1).trans (ht.trans hs.1))
  unfold stateData
  split
  · split
    · intro h hh
      cases hh
    · split
      · intro h hh
        have hsave : Stays (· = .stateData) s (s.stateSave [] .stateData) := .save rfl (.refl s)
        obtain ⟨rfl, hg⟩ := hsave h hh
        exact ⟨hg.pool.trans hs.1, fun h => hg.stream.trans (hs.2 h)⟩
      · rename_i padding q
        extract_lets s1
        split
        · intro h hh
          cases hh
        · exact hflow _ q rfl
  · exact hflow s p rfl

/-! ### The other frames -/

theorem state_onWriteWindowReady (s : KHttp2) (c : CtxId) :
    (s.onWriteWindowReady c).state = s.state := by
  have hsend : ∀ (e : WriteEvent) (len : ℕ), (s.sendData c e len).state = s.state := by
    intro e len
    unfold sendData
    extract_lets ctx payload totalLen left fin bufs h h' src header s1 s2 s3
    have h1 : s1.state = s.state := by
      dsimp only [s1]
      split <;> rfl
    exact h1
  unfold onWriteWindowReady
  split
  · rfl
  · rename_i e hwait
    extract_lets len
    split
    · rfl
    · exact (calm_flushQueue _ c).state.trans (hsend e len.toNat)

theorem state_checkWriteWaitLoop (nodes : List KHttp2Node) (s : KHttp2) :
    (checkWriteWaitLoop nodes s).state = s.state := by
  induction nodes generalizing s with
  | nil => rfl
  | cons n nodes ih =>
    unfold checkWriteWaitLoop
    split
    · rfl
    · split
      · exact ih s
      · exact (ih _).trans (s.state_onWriteWindowReady _)

theorem state_adjustWindows (s : KHttp2) (window : ℕ) :
    (s.adjustWindows window).state = s.state := by
  have hfold : ∀ (delta : ℤ) (nodes : List KHttp2Node) (t : KHttp2),
      (nodes.foldl (adjustNode delta) t).state = t.state := by
    intro delta nodes
    induction nodes with
    | nil => exact fun _ => rfl
    | cons n nodes ih =>
      intro t
      refine (ih _).trans ?_
      unfold adjustNode
      split <;> rfl
  unfold adjustWindows
  exact (state_checkWriteWaitLoop _ _).trans (hfold _ _ _)

theorem state_streamWindowUpdate (s : KHttp2) (window : ℕ) :
    (s.streamWindowUpdate window).state = s.state := by
  unfold streamWindowUpdate
  split
  · rfl
  · rename_i id c hnode
    split
    · exact (s.calm_terminateStream c _).state
    · extract_lets s1 s2
      split
      · exact s2.state_onWriteWindowReady c
      · rfl

theorem state_releaseStream (s : KHttp2) (c : CtxId) : (s.releaseStream c).state = s.state := by
  unfold releaseStream
  extract_lets ctx s1 s2 s3 s4
  have h4 : s4.state = s.state := by
    dsimp only [s4]
    split
    · split
      · exact (s3.calm_sendRstStream _ _ _).state
      · rfl
    · rfl
  split
  · cases ctx.node with
    | none => exact h4
    | some id => exact h4
  · exact h4

theorem stays_stateHead (s : KHttp2) (p : Bytes) : Stays (fun _ => True) s (s.stateHead p) := by
  unfold stateHead
  split
  · exact .save trivial (.refl s)
  · extract_lets length type flags sid s1 s2 s3
    have h1 : Grips s s1 := s.grips_setState rfl rfl
    have h2 : Grips s1 s2 := s1.grips_log _
    have h3 : Grips s2 s3 := by
      dsimp only [s3]
      split
      · exact .refl s2
      · exact .of_calm s2.calm_checkStreamTimeout
    exact .jump trivial (h1.trans (h2.trans h3))

theorem stays_plain (codes : HuffDecodeCodes) {h : Handler} (hplain : h.plain = true) (s : KHttp2)
    (p : Bytes) : Stays (fun _ => True) s (exec codes h s p) := by
  have hsame : ∀ (t : KHttp2) (h : Handler) (q : Bytes), t.state = s.state →
      Stays (fun _ => True) s (t, .jump h q) := fun t h q ht => .jump trivial (.of_state ht)
  have hsave : ∀ (q : Bytes) (h : Handler), Stays (fun _ => True) s (s.stateSave q h) :=
    fun q h => .save trivial (.refl s)
  cases h with
  | statePreface =>
    simp only [exec, statePreface]
    split
    · exact hsave _ _
    · split
      · exact .fail _
      · exact hsame s _ _ rfl
  | statePrefaceEnd =>
    simp only [exec, statePrefaceEnd]
    split
    · exact hsave _ _
    · split
      · exact .fail _
      · exact hsame s _ _ rfl
  | stateHead => exact s.stays_stateHead p
  | statePriority =>
    simp only [exec, statePriority]
    split
    · exact .fail _
    · split
      · exact hsave _ _
      · split
        · exact .fail _
        · exact hsame s _ _ rfl
  | stateRstStream =>
    simp only [exec, stateRstStream]
    split
    · exact .fail _
    · split
      · exact hsave _ _
      · split
        · exact .fail _
        · split
          · exact hsame s _ _ rfl
          · rename_i id c hnode
            refine .jump trivial (.of_state ((calm_wakeReset _ _ _).state.trans ?_))
            exact (s.calm_resetStream c).1.state
  | stateSettings =>
    simp only [exec, stateSettings]
    split
    · split
      · exact .fail _
      · exact hsame s _ _ rfl
    · split
      · exact .fail _
      · exact hsame _ _ _ s.calm_sendSettingsAck.state
  | stateSettingsParams =>
    simp only [exec, stateSettingsParams]
    split
    · exact hsame s _ _ rfl
    · split
      · exact hsave _ _
      · generalize parseUint16 p = id
        split
        · split
          · exact .fail _
          · refine .jump trivial (Grips.trans ?_ (.of_state (state_adjustWindows _ _)))
            exact ⟨rfl, rfl⟩
        · split
          · exact .fail _
          · exact .jump trivial ⟨rfl, rfl⟩
        · exact .jump trivial ⟨rfl, rfl⟩
        · exact .jump trivial ⟨rfl, rfl⟩
  | statePushPromise => exact hsame s _ _ rfl
  | statePing =>
    simp only [exec, statePing]
    split
    · exact .fail _
    · split
      · exact hsave _ _
      · split
        · exact hsame s _ _ rfl
        · have hpush : Calm s
            (s.pushGetFrame none 0 (List.replicate 8 0) pingFrame ackFlag false) :=
            s.calm_pushGetFrame none 0 _ _ (Or.inl (by decide))
          exact hsame _ _ _ ((calm_startWrite _).state.trans hpush.state)
  | stateGoaway =>
    simp only [exec, stateGoaway]
    split
    · exact .fail _
    · split
      · exact hsave _ _
      · exact hsame _ _ _ rfl
  | stateWindowUpdate =>
    simp only [exec, stateWindowUpdate]
    split
    · exact .fail _
    · split
      · exact hsave _ _
      · split
        · exact hsame _ _ _ (s.state_streamWindowUpdate _)
        · split
          · exact .fail _
          · split
            · exact hsame _ _ _ (state_checkWriteWaitLoop _ _)
            · exact hsame _ _ _ rfl
  | stateContinuation => exact .fail _
  | stateAltsvc =>
    simp only [exec, stateAltsvc]
    split
    · exact .fail _
    · split
      · exact hsave _ _
      · exact hsame s _ _ rfl
  | _ => cases hplain

/-- Every handler leaves the pool where the next one expects it. -/
theorem pooled_exec (codes : HuffDecodeCodes) (h : Handler) (s : KHttp2) (p : Bytes)
    (hs : s.state.Pooled h) :
    ∀ h' ∈ (exec codes h s p).2.next, (exec codes h s p).1.state.Pooled h' := by
  have hblock : ∀ r : KHttp2 × Ret, h.inBlock = true → Stays InBlock s r →
      ∀ h' ∈ r.2.next, r.1.state.Pooled h' := by
    intro r hh hr h' hh'
    obtain ⟨hin, hg⟩ := hr h' hh'
    unfold ParserState.Pooled at hs ⊢
    rw [if_pos hh] at hs
    rw [if_pos hin, hg.pool, hg.stream, hs]
  by_cases hplain : h.plain = true
  · intro h' hh'
    obtain ⟨-, hg⟩ := stays_plain codes hplain s p h' hh'
    simp only [Handler.plain, Bool.and_eq_true, Bool.not_eq_true'] at hplain
    unfold ParserState.Pooled at hs ⊢
    rw [hplain.1.1.1] at hs
    have hpool : (exec codes h s p).1.state.pool = none := hg.pool.trans hs.1
    have hstream : (exec codes h s p).1.state.stream = none :=
      hg.stream.trans (hs.2 hplain.1.1.2)
    split
    · exact hpool.trans hstream.symm
    · exact ⟨hpool, fun _ => hstream⟩
  · cases h with
    | stateData => exact pooled_stateData p hs
    | stateReadData => exact (s.ends_stateReadData p).pooled hs.1
    | stateHeaders => exact pooled_stateHeaders p hs.1 (hs.2 rfl)
    | stateHeaderBlock => exact hblock _ rfl (s.stays_stateHeaderBlock p)
    | stateProcessHeader => exact hblock _ rfl (s.stays_stateProcessHeader p)
    | stateHeaderComplete => exact s.pooled_stateHeaderComplete p hs
    | stateFieldLen => exact hblock _ rfl (s.stays_stateFieldLen p)
    | stateFieldHuff => exact hblock _ rfl (s.stays_stateFieldHuff codes p)
    | stateFieldRaw => exact hblock _ rfl (s.stays_stateFieldRaw p)
    | stateFieldSkip => exact hblock _ rfl (s.stays_stateFieldSkip p)
    | stateSkip =>
      have hends : Ends s (s.stateSkip p) := by
        unfold stateSkip
        intro h hh
        split at hh
        · rename_i hshort
          have hsave : Stays (· = .stateSkip) s ((s.setState fun st =>
              { st with length := st.length - p.length }).stateSave [] .stateSkip) :=
            .save rfl ⟨rfl, rfl⟩
          obtain ⟨rfl, hg⟩ := hsave h hh
          rw [if_pos hshort]
          exact ⟨⟨rfl, rfl⟩, hg.pool⟩
        · rename_i hlong
          cases hh
          rw [if_neg hlong]
          exact ⟨⟨rfl, rfl⟩, rfl⟩
      exact hends.pooled hs.1
    | stateComplete =>
      intro h' hh'
      cases hh'
      have hrelease : s.releaseStateStream.state.pool = s.state.pool ∧
          s.releaseStateStream.state.stream = none := by
        unfold releaseStateStream
        split
        · exact ⟨rfl, ‹_›⟩
        · rename_i c hstream
          extract_lets s1 s2 s3
          refine ⟨?_, rfl⟩
          show s3.state.pool = _
          dsimp only [s3]
          split
          · rename_i hdrop
            simp only [Bool.and_eq_true, Bool.not_eq_true'] at hdrop
            have h1 : s1.state = s.state :=
              (KHttp2.releaseAdminCount_spec _ c).2.2.1.trans
                ((state_releaseStream _ c).trans (s.calm_sinkEnd c hdrop.2).state)
            have h2 : s2.state = s1.state := by
              dsimp only [s2]
              split
              · exact s1.calm_setFault.state
              · rfl
            refine (congrArg ParserState.pool (Eq.trans ?_ (h2.trans h1)))
            cases (s2.ctx c).node <;> rfl
          · rfl
      exact ⟨hrelease.1.trans hs.1, fun _ => hrelease.2⟩
    | _ => exact absurd rfl hplain

/-! ## Whose request is destroyed -/

/-- The streams that were handed to `release_admin`, latest first. -/
def releasedStreams (trace : List Ev) : List CtxId :=
  trace.filterMap fun e =>
    match e with
    | .releaseAdmin c => some c
    | _ => none

theorem releasedStreams_connTrace (trace : List Ev) :
    releasedStreams (connTrace trace) = releasedStreams trace := by
  simp only [releasedStreams, connTrace, List.filterMap_filter]
  congr 1
  funext e
  cases e <;> simp [Ev.isConn]

theorem mem_releasedStreams {c : CtxId} {trace : List Ev} :
    c ∈ releasedStreams trace ↔ .releaseAdmin c ∈ trace := by
  simp only [releasedStreams, List.mem_filterMap]
  constructor
  · rintro ⟨e, he, hc⟩
    cases e <;> simp only [reduceCtorEq, Option.some.injEq] at hc
    rw [hc] at he
    exact he
  · exact fun h => ⟨_, h, rfl⟩

/-- Who holds which stream, which streams are marked, and which requests are destroyed. -/
structure Pools where
  links : Links
  marked : CtxId → Bool
  released : List CtxId

/-- The mark tells the parser whether the request of its stream is destroyed. -/
structure Pools.Told (l : Pools) : Prop where
  linked : ∀ c, (l.links.node c).isSome → l.marked c = false ∧ c ∉ l.released
  held : ∀ c, l.links.stream = some c → (l.marked c = true ↔ c ∈ l.released)
  known : ∀ c ∈ l.released, c < l.links.nextCtx

def pools (s : KHttp2) : Pools :=
  ⟨s.links, fun c => (s.ctx c).destroyByHttp2, releasedStreams s.trace⟩

theorem pools_of_quiet {s t : KHttp2} (h : Quiet s t) : t.pools = s.pools := by
  have hmarks : (fun c => (t.ctx c).destroyByHttp2) = fun c => (s.ctx c).destroyByHttp2 := by
    funext c
    exact (h.ctx c).destroyByHttp2
  have htrace : releasedStreams t.trace = releasedStreams s.trace := by
    rw [← releasedStreams_connTrace, h.conn, releasedStreams_connTrace]
  simp only [pools, links_of_quiet h, hmarks, htrace]

theorem pools_sending {s t : KHttp2} (h : Sending s t) : t.pools = s.pools := by
  cases h with
  | quiet h => exact pools_of_quiet h
  | send c e len hnode hopen hpos hframe hstream hconn =>
    obtain ⟨hctx, -, htrace⟩ := s.sendData_spec c e len hnode
    have hmarks : (fun c' => ((s.sendData c e len).ctx c').destroyByHttp2) =
        fun c' => (s.ctx c').destroyByHttp2 := by
      funext c'
      rw [hctx]
      by_cases hc : c' = c
      · subst hc
        rw [Function.update_self]
      · rw [Function.update_of_ne hc]
    simp only [pools, (s.sendData_keeps c e len hnode).1, hmarks, htrace]
    rfl

theorem pools_windowChange {s t : KHttp2} (hgood : s.links.Good) (h : WindowChange s t) :
    t.pools = s.pools := by
  have hlinks := links_windowChange hgood h
  cases h with
  | initial value h =>
    have hmarks : ∀ (delta : ℤ) (c : CtxId), (if (s.ctx c).node.isSome
        then adjustCtx delta (s.ctx c) else s.ctx c).destroyByHttp2 = (s.ctx c).destroyByHttp2 := by
      intro delta c
      split
      · rw [adjustCtx_keeps]
      · rfl
    simp only [pools, hlinks]
    rw [adjustAll_eq hgood]
    simp only [hmarks]
    rfl
  | stream c window hnode h =>
    have hmarks : ∀ c', (((s.log (.windowUpdate (some c) window)).modify c fun ctx =>
        { ctx with sendWindow := toInt32 (ctx.sendWindow + window) }).ctx c').destroyByHttp2 =
          (s.ctx c').destroyByHttp2 := by
      intro c'
      by_cases hc : c' = c
      · subst hc
        simp only [modify, Function.update_self]
        rfl
      · simp only [modify, Function.update_of_ne hc]
        rfl
    simp only [pools, hlinks, hmarks]
    rfl
  | _ =>
    simp only [pools, hlinks]
    rfl

/-- Releasing a stream marks nothing yet. -/
theorem pools_releaseStream (s : KHttp2) (c : CtxId) :
    (s.releaseStream c).pools = { s.pools with links := s.links.free c } := by
  have hlinks := s.links_releaseStream c
  obtain ⟨t, ht, -, -, heq⟩ := s.releaseStream_spec c
  have hpools := pools_of_quiet ht
  simp only [pools, Pools.mk.injEq] at hpools
  obtain ⟨-, hmarks, htrace⟩ := hpools
  simp only [pools, hlinks, Pools.mk.injEq, true_and]
  rw [heq]
  cases (s.ctx c).node with
  | none => exact ⟨hmarks, htrace⟩
  | some id =>
    refine ⟨?_, htrace⟩
    rw [← hmarks]
    funext c'
    by_cases hc : c' = c
    · subst hc
      simp only [modify, Function.update_self]
      rfl
    · simp only [modify, Function.update_of_ne hc]
      rfl

/-- A stream that is handed back is marked when the parser holds it. -/
theorem pools_release (s : KHttp2) (c : CtxId) :
    ((s.releaseStream c).releaseAdminCount c).pools =
      { links := { s.links.free c with owners := s.owners.erase c }
        marked := if s.state.stream = some c then Function.update s.pools.marked c true
          else s.pools.marked
        released := c :: s.pools.released } := by
  have hlinks := s.links_release c
  have hpools := s.pools_releaseStream c
  simp only [pools, Pools.mk.injEq] at hpools
  obtain ⟨-, hmarks, htrace⟩ := hpools
  have hstream : (s.releaseStream c).state.stream = s.state.stream := by
    rw [state_releaseStream]
  obtain ⟨-, -, -, -, -, -, -, hadmin, -⟩ := (s.releaseStream c).releaseAdminCount_spec c
  simp only [pools, hlinks, hadmin, Pools.mk.injEq, true_and]
  refine ⟨?_, congrArg (c :: ·) htrace⟩
  have hctx : ((s.releaseStream c).releaseAdminCount c).ctx =
      if s.state.stream = some c
      then Function.update (s.releaseStream c).ctx c
        { (s.releaseStream c).ctx c with destroyByHttp2 := true }
      else (s.releaseStream c).ctx := by
    simp only [releaseAdminCount]
    by_cases hadmin : ((s.releaseStream c).ctx c).adminStream <;>
      by_cases hheld : s.state.stream = some c <;>
      simp [hadmin, hheld, hstream, log, modify]
  rw [hctx, ← hmarks]
  by_cases hheld : s.state.stream = some c
  · rw [if_pos hheld, if_pos hheld]
    funext c'
    by_cases hc : c' = c
    · subst hc
      simp only [Function.update_self]
    · simp only [Function.update_of_ne hc]
  · rw [if_neg hheld, if_neg hheld]

namespace Pools

/-- A stream that is released by somebody who held it. -/
theorem Told.release {l : Pools} (h : l.Told) {c : CtxId} {links : Links}
    {marked : CtxId → Bool} (hc : c < l.links.nextCtx) (hnext : links.nextCtx = l.links.nextCtx)
    (hnode : ∀ c', links.node c' = if c' = c then none else l.links.node c')
    (hother : ∀ c', c' ≠ c → marked c' = l.marked c')
    (hheld : ∀ c', links.stream = some c' →
      l.links.stream = some c' ∧ (c' = c → marked c = true)) :
    Told ⟨links, marked, c :: l.released⟩ := by
  refine ⟨fun c' hc' => ?_, fun c' hc' => ?_, fun c' hc' => ?_⟩
  · simp only [hnode] at hc'
    split at hc'
    · cases hc'
    · rename_i hne
      obtain ⟨hmark, hnot⟩ := h.linked c' hc'
      refine ⟨(hother c' hne).trans hmark, fun hmem => ?_⟩
      rcases List.mem_cons.mp hmem with heq | hmem
      · exact hne heq
      · exact hnot hmem
  · obtain ⟨hold, hmark⟩ := hheld c' hc'
    by_cases hne : c' = c
    · subst hne
      exact ⟨fun _ => List.mem_cons_self, fun _ => hmark rfl⟩
    · have hiff := h.held c' hold
      simp only [hother c' hne, List.mem_cons, hne, false_or]
      exact hiff
  · simp only [hnext]
    rcases List.mem_cons.mp hc' with rfl | hmem
    · exact hc
    · exact h.known c' hmem

/-- The parser takes hold of a stream that has its node. -/
theorem Told.hold {l : Pools} (h : l.Told) {c : CtxId} (hnode : (l.links.node c).isSome) :
    Told { l with links := { l.links with stream := some c } } := by
  refine ⟨h.linked, fun c' hc' => ?_, h.known⟩
  cases hc'
  obtain ⟨hmark, hnot⟩ := h.linked c hnode
  exact ⟨fun hm => absurd (hm.symm.trans hmark) Bool.noConfusion, fun hm => absurd hm hnot⟩

theorem Told.letGo {l : Pools} (h : l.Told) :
    Told { l with links := { l.links with stream := none } } := by
  refine ⟨h.linked, fun c hc => ?_, h.known⟩
  cases hc

/-- A new stream is not released. -/
theorem Told.openStream {l : Pools} (h : l.Told) {links : Links} {marked : CtxId → Bool}
    (hnext : links.nextCtx = l.links.nextCtx + 1)
    (hnode : ∀ c, c ≠ l.links.nextCtx → links.node c = l.links.node c)
    (hother : ∀ c, c ≠ l.links.nextCtx → marked c = l.marked c)
    (hnew : marked l.links.nextCtx = false) (hstream : links.stream = some l.links.nextCtx) :
    Told ⟨links, marked, l.released⟩ := by
  have hnot : l.links.nextCtx ∉ l.released := fun hmem => Nat.lt_irrefl _ (h.known _ hmem)
  refine ⟨fun c hc => ?_, fun c hc => ?_, fun c hc => ?_⟩
  · by_cases hne : c = l.links.nextCtx
    · subst hne
      exact ⟨hnew, hnot⟩
    · simp only [hnode c hne] at hc
      obtain ⟨hmark, hout⟩ := h.linked c hc
      exact ⟨(hother c hne).trans hmark, hout⟩
  · simp only [hstream, Option.some.injEq] at hc
    subst hc
    exact ⟨fun hm => absurd (hm.symm.trans hnew) Bool.noConfusion, fun hm => absurd hm hnot⟩
  · simp only [hnext]
    exact Nat.lt_succ_of_lt (h.known c hc)

end Pools

theorem marked_headersNewStream (s : KHttp2) (p : Bytes) :
    ((s.headersNewStream p).1.ctx s.nextCtx).destroyByHttp2 = false := by
  cases hclient : s.clientModel <;> cases hfin : hasFlag s.state.flags endStreamFlag <;>
    simp only [headersNewStream, createStream, hclient, hfin, logEnd, if_true, if_false,
      Bool.false_eq_true, setState, modify, newNode, log, Function.update_self, KHttp2Context.init]

/-- Every move of a server tells the parser what happened to its stream. -/
theorem told_move {slips : Slip → Prop} {s t : KHttp2} (hsound : Sound s)
    (hserver : s.clientModel = false) (hs : s.pools.Told) (h : Move slips s t) : t.pools.Told := by
  have hnot : s.clientModel = true → False := fun h => Bool.false_ne_true (hserver.symm.trans h)
  cases h with
  | sending h => exact pools_sending h ▸ hs
  | openStream p hserver hnew hlast =>
    have hnew := marked_headersNewStream { s with lastPeerSid := s.state.sid } p
    obtain ⟨ctx, st, trace, hnode, -, -, -, -, -, hstream, htrace, heq⟩ :=
      ({ s with lastPeerSid := s.state.sid } : KHttp2).headersNewStream_spec p
    have hreleased : releasedStreams trace = releasedStreams s.trace := by
      rw [← releasedStreams_connTrace, htrace, ← releasedStreams_connTrace s.trace]
      rfl
    rw [heq] at hnew ⊢
    simp only [pools, hreleased]
    refine hs.openStream rfl (fun c hc => ?_) (fun c hc => ?_) hnew hstream
    · simp only [links, pools] at hc ⊢
      rw [Function.update_of_ne hc]
    · simp only [links, pools] at hc ⊢
      rw [Function.update_of_ne hc]
  | peerSid sid hserver hlast => exact hs
  | newClientStream processing admin hclient => exact (hnot hclient).elim
  | linkNode c hclient hnone howner hslip => exact (hnot hclient).elim
  | hold c hnode hlast => exact hs.hold hnode
  | letGo => exact hs.letGo
  | start c hserver hstream hparsed =>
    have hlinks : (s.startRequest c).links.node = s.links.node := by
      funext c'
      by_cases hc : c' = c
      · subst hc
        simp only [links, startRequest, log, modify, setState, Function.update_self]
      · simp only [links, startRequest, log, modify, setState, Function.update_of_ne hc]
    have hmarks : (s.startRequest c).pools.marked = s.pools.marked := by
      funext c'
      by_cases hc : c' = c
      · subst hc
        simp only [pools, startRequest, log, modify, setState, Function.update_self]
      · simp only [pools, startRequest, log, modify, setState, Function.update_of_ne hc]
    refine ⟨fun c' hc' => ?_, fun c' hc' => (by cases hc'), hs.known⟩
    have hold : (s.links.node c').isSome := by
      rw [← hlinks]
      exact hc'
    rw [hmarks]
    exact hs.linked c' hold
  | response c hclient => exact (hnot hclient).elim
  | release c howner =>
    rw [pools_release]
    obtain ⟨-, -, hstream, hnext, -⟩ := s.links.free_keeps c
    have hknown := hsound.good.known c (howner.resolve_left hnot)
    refine hs.release hknown hnext (s.links.node_free c) (fun c' hne => ?_) fun c' hc' => ?_
    · split
      · rw [Function.update_of_ne hne]
      · rfl
    · have hold : s.state.stream = some c' := hstream.symm.trans hc'
      refine ⟨hold, fun heq => ?_⟩
      subst heq
      rw [if_pos hold, Function.update_self]
  | gc c hclient => exact (hnot hclient).elim
  | wait c e hnode hopen hused =>
    have hwait : (s.modify c fun ctx => { ctx with writeWait := some e }).pools = s.pools := by
      simp only [pools, links_writeEvent, Pools.mk.injEq, true_and]
      refine ⟨?_, rfl⟩
      funext c'
      by_cases hc : c' = c
      · subst hc
        simp only [modify, Function.update_self]
      · simp only [modify, Function.update_of_ne hc]
    rw [pools_of_quiet (calm_addQueue _ c).quiet, hwait]
    exact hs
  | windows hchange hsends hparked =>
    have hu := pools_windowChange hsound.good hchange ▸ hs
    clear hchange hparked
    induction hsends with
    | refl => exact hu
    | tail _ h ih => exact pools_sending h ▸ ih
  | delete => exact hs
  | drop c hslip hserver hstream hparsed ht =>
    rename_i t
    have hpools := (pools_of_quiet ht).trans (s.pools_release c)
    have hnone : (t.ctx c).node = none := by
      have h := congrArg (fun l => l.links.node c) hpools
      simp only [Links.node_free, if_true] at h
      exact h
    have hdrop : ((t.destroyNode c (t.ctx c).node).setState fun st =>
        { st with stream := none }).pools =
          { t.pools with links := { t.pools.links with stream := none } } := by
      rw [hnone]
      rfl
    rw [if_pos hstream] at hpools
    rw [hdrop, hpools]
    obtain ⟨-, -, -, hnext, -⟩ := s.links.free_keeps c
    have hnode : (s.ctx c).node.isSome := (hsound.served hserver).parsing c hstream hparsed
    have hknown : c < s.nextCtx := by
      refine Nat.lt_of_not_le fun hle => ?_
      exact Option.isSome_iff_ne_none.mp hnode (hsound.good.fresh c hle)
    refine hs.release hknown hnext (s.links.node_free c) (fun c' hne => ?_) fun c' hc' => ?_
    · exact Function.update_of_ne hne _ _
    · cases hc'
  | unqueue c hslip => exact hs

theorem told_path {slips : Slip → Prop} {s t : KHttp2} (hsound : Sound s)
    (hserver : s.clientModel = false) (hs : s.pools.Told) (h : Path slips s t) : t.pools.Told := by
  induction h with
  | refl => exact hs
  | tail hpath hmove ih =>
    exact told_move (hsound.path hpath) ((hsound.clientModel_path hpath).trans hserver) ih hmove

theorem Blank.told {s : KHttp2} (h : Blank s) : s.pools.Told := by
  have hreleased : releasedStreams s.trace = [] := by
    rw [h.trace]
    rfl
  simp only [pools, hreleased]
  refine ⟨fun c hc => ?_, fun c hc => ?_, fun c hc => absurd hc List.not_mem_nil⟩
  · simp only [links, h.ctx c] at hc
    cases hc
  · exact absurd (h.stream.symm.trans hc) (Option.some_ne_none c).symm

/-! ## Every call of a run -/

/-- The pool and the stream are what the handler to come expects. -/
def PooledAt (h : Option Handler) (s : KHttp2) : Prop := ∀ h' ∈ h, s.state.Pooled h'

theorem indexed_pooled (codes : HuffDecodeCodes) : Indexed codes (fun _ _ _ => True) PooledAt where
  pinged _ h := h
  store _ _ h := h
  between _ _ _ hstate h := by
    unfold PooledAt at h ⊢
    rw [hstate]
    exact h
  exec {h s p} _ _ _ hs _ := pooled_exec codes h s p (hs h rfl)

/-- What holds before every call of a handler of a server. -/
structure Borrows (call : Handler × KHttp2 × Bytes) : Prop where
  pooled : call.2.1.state.Pooled call.1
  told : call.2.1.pools.Told

theorem borrows_step (codes : HuffDecodeCodes) {s : KHttp2} (hsound : Sound s)
    (hserver : s.clientModel = false) (htold : s.pools.Told) (hrest : Rest PooledAt s) (e : Event) :
    ∀ call ∈ stepCalls codes s e, Borrows call := by
  intro call hmem
  cases e with
  | read chunk =>
    simp only [stepCalls] at hmem
    split at hmem
    · rename_i henabled
      simp only [enabled, Bool.and_eq_true, Bool.not_eq_true', decide_eq_true_eq] at henabled
      have hpooled : PooledAt (some s.state.handler) s := by
        rcases hrest with hdel | hrun | ⟨-, hstop⟩
        · exact absurd (henabled.1.symm.trans hdel) Bool.false_ne_true
        · exact hrun
        · exact absurd (hstop.symm.trans henabled.2.1.1) Bool.false_ne_true
      have hquiet : Quiet s (({ s with pinged := false } : KHttp2).setState fun st =>
          { st with buffer := [] }) := .of_view rfl rfl rfl id
      have hcall : ∀ (h : Handler) (t : KHttp2) (p : Bytes),
          Sound t ∧ t.clientModel = false ∧ t.pools.Told ∧ PooledAt (some h) t →
            Sound (exec codes h t p).1 ∧ (exec codes h t p).1.clientModel = false ∧
              (exec codes h t p).1.pools.Told ∧
              PooledAt (exec codes h t p).2.next (exec codes h t p).1 := by
        rintro h t p ⟨ht, hclient, hmarks, hpool⟩
        have hpath : Path (fun _ => True) t (exec codes h t p).1 :=
          pathOut_exec codes ht (fun _ _ => trivial) (fun _ _ _ _ => trivial) (fun _ _ => trivial)
            fun _ _ => trivial
        exact ⟨ht.path hpath, (ht.clientModel_path hpath).trans hclient,
          told_path ht hclient hmarks hpath, pooled_exec codes h t p (hpool h rfl)⟩
      have hinv := Resumable.calls_indexed
        (J := fun o _ t => Sound t ∧ t.clientModel = false ∧ t.pools.Told ∧ PooledAt o t)
        hcall _ _ _ _
        ⟨hsound.quiet hquiet, hserver, pools_of_quiet hquiet ▸ htold, hpooled⟩ call hmem
      exact ⟨hinv.2.2.2 call.1 rfl, hinv.2.2.1⟩
    · exact absurd hmem List.not_mem_nil
  | _ => exact absurd hmem List.not_mem_nil

/-- Within a header block the pool is alive exactly when the request of the stream is. -/
theorem Borrows.poolLive_iff {call : Handler × KHttp2 × Bytes} (h : Borrows call)
    (hblock : call.1.inBlock = true) : PoolLive call.2.1 ↔ HoldsRequest call.2.1 := by
  have hpool : call.2.1.state.pool = call.2.1.state.stream := by
    have hpooled := h.pooled
    unfold ParserState.Pooled at hpooled
    rw [if_pos hblock] at hpooled
    exact hpooled
  have hiff : ∀ c, call.2.1.state.stream = some c →
      (.releaseAdmin c ∉ call.2.1.trace ↔ (call.2.1.ctx c).destroyByHttp2 = false) := by
    intro c hc
    have hheld := h.told.held c hc
    rw [← mem_releasedStreams, ← Bool.not_eq_true]
    exact not_congr hheld.symm
  unfold PoolLive HoldsRequest
  rw [hpool]
  exact exists_congr fun c => and_congr_right (hiff c)

/-- `state_field_len` has looked at the stream when it allocates. -/
theorem holdsRequest_of_copiesField {s : KHttp2} {p : Bytes} (h : s.copiesField p = true) :
    s.HoldsRequest := by
  unfold copiesField at h
  rw [Bool.and_eq_true] at h
  obtain ⟨-, h⟩ := h
  split at h
  · simp only [Bool.and_eq_true, Bool.not_eq_true'] at h
    obtain ⟨-, hall⟩ := h
    cases hstream : s.state.stream with
    | none =>
      rw [hstream] at hall
      cases hall
    | some c =>
      rw [hstream] at hall
      exact ⟨c, hstream, hall⟩
  · cases h

/-- A call that copies an entry without a pool does what the source asserts it never does. -/
theorem fault_of_copiesEntry {s : KHttp2} {p : Bytes}
    (hcopies : copiesEntry (.stateHeaderBlock, s, p) = true) (hpool : s.state.pool = none) :
    (s.stateHeaderBlock p).1.fault = true := by
  have hlookup : ∀ (t : KHttp2) (index : ℕ) (nameOnly : Bool), t.state.pool = none →
      t.hpack = s.hpack → s.indexesEntry index = true →
      ∃ u, t.getIndexedHeader index nameOnly = some u ∧ u.fault = true := by
    intro t index nameOnly hnone hhpack hindex
    simp only [indexesEntry, Bool.and_eq_true, decide_eq_true_eq,
      Option.isNone_iff_eq_none] at hindex
    obtain ⟨⟨hpos, hstatic⟩, hrange⟩ := hindex
    unfold getIndexedHeader
    simp only [if_neg hpos, hstatic, hhpack, if_pos hrange, hnone, Option.isNone_none, if_true]
    exact ⟨_, rfl, rfl⟩
  simp only [copiesEntry, decide_true, Bool.true_and, Option.any_eq_true] at hcopies
  obtain ⟨index, hindex, hentry⟩ := hcopies
  unfold blockIndex at hindex
  unfold stateHeaderBlock
  cases p with
  | nil => cases hindex
  | cons ch rest =>
    dsimp only at hindex ⊢
    split at hindex
    · cases hindex
    · rename_i hcont
      rw [if_neg hcont]
      have hlength : (if ch ≥ 64 ∧ ch < 128 then s.setState fun st => { st with index := true }
          else s).state.length = s.state.length := by
        split <;> rfl
      rw [hlength]
      split at hindex
      · rename_i value used hvalue
        rw [hvalue]
        dsimp only
        let s1 := if ch ≥ 64 ∧ ch < 128 then s.setState fun st => { st with index := true } else s
        have hpool' : ∀ n, (s1.setState fun st => { st with length := st.length - n }).state.pool =
            none := by
          intro n
          show s1.state.pool = none
          dsimp only [s1]
          split <;> exact hpool
        have hhpack : ∀ n, (s1.setState fun st => { st with length := st.length - n }).hpack =
            s.hpack := by
          intro n
          show s1.hpack = s.hpack
          dsimp only [s1]
          split <;> rfl
        by_cases hindexed : ch ≥ 128
        · rw [if_pos hindexed] at hindex ⊢
          cases hindex
          obtain ⟨u, hu, hfault⟩ := hlookup _ index false (hpool' _) (hhpack _) hentry
          rw [hu]
          exact hfault
        · rw [if_neg hindexed] at hindex ⊢
          by_cases hsize : 32 ≤ ch ∧ ch < 64
          · rw [if_pos hsize] at hindex
            cases hindex
          · rw [if_neg hsize] at hindex ⊢
            by_cases hzero : value = 0
            · rw [if_pos hzero] at hindex
              cases hindex
            · rw [if_neg hzero] at hindex ⊢
              cases hindex
              obtain ⟨u, hu, hfault⟩ := hlookup _ index true (hpool' _) (hhpack _) hentry
              rw [hu]
              exact hfault
      · cases hindex

theorem Borrows.allocates_iff {call : Handler × KHttp2 × Bytes} (h : Borrows call) :
    (allocates call = true → PoolLive call.2.1) ↔
      (copiesEntry call = true → HoldsRequest call.2.1) := by
  have hentry : copiesEntry call = true → call.1.inBlock = true := by
    intro hcopies
    simp only [copiesEntry, Bool.and_eq_true, decide_eq_true_eq] at hcopies
    rw [hcopies.1]
    rfl
  constructor
  · intro hlive hcopies
    have hallocates : allocates call = true := by
      unfold allocates
      rw [hcopies, Bool.true_or]
    exact (h.poolLive_iff (hentry hcopies)).mp (hlive hallocates)
  · intro hheld hallocates
    unfold allocates at hallocates
    rcases Bool.or_eq_true_iff.mp hallocates with hcopies | hfield
    · exact (h.poolLive_iff (hentry hcopies)).mpr (hheld hcopies)
    · simp only [Bool.and_eq_true, decide_eq_true_eq] at hfield
      refine (h.poolLive_iff ?_).mpr (holdsRequest_of_copiesField hfield.2)
      rw [hfield.1]
      rfl

/-! ## Runs -/

/-- A server starts between two frames, without a pool. -/
theorem Starts.pooled {s : KHttp2} (h : Starts s) (hserver : s.clientModel = false) :
    PooledAt (some s.state.handler) s := by
  have hstart : ∀ (now timeOut : ℕ) (junk : ℕ → Http2FrameHeader) (h : Handler), h.inBlock = false →
      PooledAt (some ((init now timeOut junk).setState fun st =>
        { st with handler := h }).greet.startRead.state.handler)
        ((init now timeOut junk).setState fun st => { st with handler := h }).greet.startRead := by
    intro now timeOut junk h hblock h' hh'
    obtain ⟨hstate, -, hnow, hlast, hpeer⟩ :=
      ((init now timeOut junk).setState fun st => { st with handler := h }).greet_keeps
    rw [startRead_new (hnow.trans hlast.symm) hpeer] at hh' ⊢
    rw [hstate] at hh' ⊢
    cases hh'
    show if h.inBlock = true then _ else _
    rw [if_neg (Bool.eq_false_iff.mp hblock)]
    exact ⟨rfl, fun _ => rfl⟩
  cases h with
  | server now timeOut junk => exact hstart now timeOut junk .statePreface rfl
  | serverH2c now timeOut junk => exact hstart now timeOut junk .statePrefaceEnd rfl
  | client now timeOut junk =>
    have hclient : (KHttp2.client now timeOut junk).clientModel = true := by
      have hgreet : ∀ t : KHttp2, t.clientModel = true →
        (t.greet.newClientStream true).clientModel = true := by
        intro t ht
        have hquiet := t.quiet_greet.clientModel.trans ht
        rw [newClientStream_spec t.greet true hquiet]
        exact hquiet
      exact hgreet _ rfl
    exact absurd (hserver.symm.trans hclient) Bool.false_ne_true

/-- Whenever a run allocates from the pool of the parser, the pool belongs to a request that is not
destroyed. -/
def AllocatesLive (codes : HuffDecodeCodes) (s : KHttp2) (es : List Event) : Prop :=
  Along codes (fun t e => ∀ call ∈ stepCalls codes t e,
    allocates call = true → PoolLive call.2.1) s es

/-- A run in which the parser holds a stream, whose request is not destroyed, whenever a field of a
header block names an entry of the dynamic table. -/
def EntriesHeld (codes : HuffDecodeCodes) (s : KHttp2) (es : List Event) : Prop :=
  Along codes (fun t e => ∀ call ∈ stepCalls codes t e,
    copiesEntry call = true → HoldsRequest call.2.1) s es

/-- The pool is alive at every allocation of a run of a server exactly when no field names an entry
of the dynamic table in the block of a refused stream or of a request that is destroyed. -/
theorem allocatesLive_iff (codes : HuffDecodeCodes) {s : KHttp2} (hs : Starts s)
    (hserver : s.clientModel = false) (es : List Event) :
    AllocatesLive codes s es ↔ EntriesHeld codes s es := by
  obtain ⟨hsound, hhalted⟩ := sound_of_starts hs
  obtain ⟨b, hb, hpath⟩ : ∃ b, Blank b ∧ Path (fun _ => True) b s := hs.path
  have hclient : b.clientModel = false := (hb.sound.clientModel_path hpath).symm.trans hserver
  have htold : s.pools.Told := told_path hb.sound hclient hb.told hpath
  have hrest : Rest PooledAt s := Or.inr (Or.inl (hs.pooled hserver))
  clear hs hb hpath hclient
  induction es generalizing s with
  | nil => exact Iff.rfl
  | cons e es ih =>
    have hstep : Path (fun _ => True) s (step codes s e) :=
      path_step codes hsound hhalted e fun _ _ => trivial
    have hborrows := borrows_step codes hsound hserver htold hrest e
    refine and_congr (forall₂_congr fun call hcall => (hborrows call hcall).allocates_iff) ?_
    exact ih ((hsound.clientModel_path hstep).trans hserver) (hsound.path hstep)
      (hhalted.path hsound hstep) (told_path hsound hserver htold hstep)
      (rest_step (indexed_pooled codes) hsound hhalted e (fun _ _ => trivial) hrest)

instance PoolLive.decidable (s : KHttp2) : Decidable s.PoolLive :=
  decidable_of_iff (s.state.pool.any fun c => decide (Ev.releaseAdmin c ∉ s.trace)) (by
    simp only [Option.any_eq_true, decide_eq_true_eq, PoolLive])

instance HoldsRequest.decidable (s : KHttp2) : Decidable s.HoldsRequest :=
  decidable_of_iff (s.state.stream.any fun c => !(s.ctx c).destroyByHttp2) (by
    simp only [Option.any_eq_true, Bool.not_eq_true', HoldsRequest])

instance AllocatesLive.decidable (codes : HuffDecodeCodes) (s : KHttp2) (es : List Event) :
    Decidable (AllocatesLive codes s es) :=
  inferInstanceAs (Decidable (Along codes (fun t e => ∀ call ∈ stepCalls codes t e,
    allocates call = true → PoolLive call.2.1) s es))

instance EntriesHeld.decidable (codes : HuffDecodeCodes) (s : KHttp2) (es : List Event) :
    Decidable (EntriesHeld codes s es) :=
  inferInstanceAs (Decidable (Along codes (fun t e => ∀ call ∈ stepCalls codes t e,
    copiesEntry call = true → HoldsRequest call.2.1) s es))

/-- A request whose header `a: b` goes to the dynamic table. -/
def insertingRequest : Bytes :=
  clientPreface ++ [0, 0, 5, 1, 5, 0, 0, 0, 1, 0x40, 1, 97, 1, 98]

/-- The result at a second request that names the entry. -/
theorem allocatesLive_secondRequest :
    AllocatesLive (fun _ _ => ⟨0, 0, 0, 0⟩) (server 0 0 fun _ => .zero)
      [.read insertingRequest, .read [0, 0, 1, 1, 5, 0, 0, 0, 3, 0xbe]] :=
  (allocatesLive_iff _ (.server 0 0 fun _ => .zero) (by decide +kernel) _).mpr (by decide +kernel)

/-- The second request depends on itself and names the entry: its block is read without a pool. -/
theorem selfDependent_not_allocatesLive :
    ¬AllocatesLive (fun _ _ => ⟨0, 0, 0, 0⟩) (server 0 0 fun _ => .zero)
      [.read insertingRequest, .read [0, 0, 6, 1, 0x25, 0, 0, 0, 3, 0, 0, 0, 3, 0, 0xbe]] := by
  decide +kernel

end KHttp2

end Khttpd
