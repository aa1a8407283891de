import Khttpd.Analysis.Effects

/-!
# The effects of a step

Every handler of the parser, every call of a fiber and every other event is a sequence of effects
on readers and writers.
-/

set_option autoImplicit false

namespace Khttpd

/-- The call may be suspended until bytes are written. -/
def Op.writes : Op → Bool
  | .write .. | .sendfile .. => true
  | _ => false

/-- A fiber writes. -/
def Event.writes : Event → Bool
  | .call _ op => op.writes
  | _ => false

namespace KHttp2

variable {kinds : Kind → Prop}

/-! ## Windows -/

theorem effects_useRecvWindow (s : KHttp2) (h : s.state.length ≤ s.recvWindow)
    (hkind : kinds .data) : Effects kinds s s.useRecvWindow.1 := by
  unfold useRecvWindow
  extract_lets s1 r
  have h1 : Effects kinds s s1 := .single (.charge s.state.length hkind h)
  split
  · exact h1.tail (.chargeRefill hkind)
  · exact h1

theorem effects_streamWindowUpdate (s : KHttp2) (window : ℕ) :
    Effects kinds s (s.streamWindowUpdate window) := by
  unfold streamWindowUpdate
  split
  · exact .refl
  · rename_i id c hnode
    split
    · exact s.effects_terminateStream c _
    · extract_lets s1 s2
      have h2 : Effects kinds s s2 := effects_soft ((body_modify rfl).trans (s.body_log rfl)) rfl
      split
      · rename_i hwaits
        exact h2.trans (s2.effects_onWriteWindowReady c hwaits)
      · exact h2

/-- The header block that ends here resumes a body reader on a stream that has not ended. -/
def endsEarly (s : KHttp2) : Bool :=
  s.state.length = 0 && hasFlag s.state.flags endHeadersFlag &&
    s.state.stream.any fun c => (s.ctx c).bodyReader && !(s.ctx c).inClosed

section Parser

variable (hparse : kinds .parse)
include hparse

theorem effects_stillOut {s : KHttp2} {r : KHttp2 × Ret} (h : StillOut s r) :
    Effects kinds s r.1 := by
  rcases h with h | ⟨t, status, h, rfl⟩
  · exact effects_parse h.body hparse
  · exact (effects_parse h.body hparse).trans (t.effects_fail status)

/-! ## HEADERS -/

theorem effects_headersForStream (s : KHttp2) (c : CtxId) (p : Bytes) :
    Effects kinds s (s.headersForStream c p).1 := by
  unfold headersForStream
  extract_lets s1 s2 fin
  have h1 : Effects kinds s s1 := effects_parse rfl hparse
  split
  · exact h1
  · rename_i hfree
    simp only [Bool.or_eq_true, not_or, Bool.not_eq_true, Bool.not_eq_false'] at hfree
    have hrst : (s2.ctx c).rst = false := by
      have h := hfree.1
      simp only [KHttp2Context.isAvailable, Bool.and_eq_true, Bool.not_eq_true'] at h
      exact h.1
    have h2 : Effects kinds s1 s2 := effects_parse rfl hparse
    exact (h1.trans h2).tail (.headersIn c fin hrst hfree.2)

theorem effects_headersStream (s : KHttp2) (depend : ℕ) (p : Bytes) :
    Effects kinds s (s.headersStream depend p).1 := by
  unfold headersStream
  extract_lets sid s1
  split
  · split
    · exact .refl
    · exact s.effects_headersForStream hparse _ p
  · split
    · exact s.effects_fail _
    · split
      · exact s.effects_sendRstStream _ _ _
      · have h1 : Effects kinds s s1 := effects_parse rfl hparse
        refine h1.trans ?_
        split
        · exact s1.effects_sendRstStream _ _ _
        · split
          · exact s1.effects_headersForStream hparse _ p
          · exact .single (.openStream p hparse)

theorem effects_stateHeaders (s : KHttp2) (p : Bytes) : Effects kinds s (s.stateHeaders p).1 := by
  unfold stateHeaders
  extract_lets s1 padded priority size s2 s3 s4 depend
  have h1 : Effects kinds s s1 := effects_parse rfl hparse
  refine h1.trans ?_
  split
  · exact s1.effects_fail _
  · split
    · exact s1.effects_fail _
    · split
      · exact s1.effects_stateSave _ _
      · have h3 : Effects kinds s1 s3 := by
          refine effects_parse ?_ hparse
          dsimp only [s3]
          split <;> rfl
        refine h3.trans ?_
        split
        · exact s3.effects_fail _
        · have h4 : Effects kinds s3 s4 := by
            refine effects_parse ?_ hparse
            dsimp only [s4]
            split <;> rfl
          exact h4.trans (s4.effects_headersStream hparse _ _)

/-! ## The end of a header block -/

theorem effects_headerSuccess (s : KHttp2) (c : CtxId)
    (hinterim : (s.ctx c).bodyReader = true → (s.ctx c).inClosed = false → kinds .interim) :
    Effects kinds s (s.headerSuccess c) := by
  unfold headerSuccess
  extract_lets s1 s2 e s3
  have h1 : s1.body = s.body := by
    dsimp only [s1]
    split
    · rfl
    · exact (s.still_constructCookieHeader c).body
  have h2 : Effects kinds s s2 := effects_parse ((body_log s1 rfl).trans h1) hparse
  have hpart : (s2.ctx c).part = (s.ctx c).part := congrArg (fun b => b.part c) h1
  refine h2.trans ?_
  split
  · refine .single (.headerWake c none (fun e he => by cases he) ?_)
    have hwait : (s2.ctx c).readWait = (s.ctx c).readWait := congrArg Part.readWait hpart
    have hclosed : (s2.ctx c).inClosed = (s.ctx c).inClosed := congrArg Part.inClosed hpart
    simp only [KHttp2Context.bodyReader, hwait, hclosed]
    exact hinterim
  · rename_i hfresh
    simp only [Bool.or_eq_true, not_or, Bool.not_eq_true] at hfresh
    exact .single (.start c hparse hfresh.1)

theorem effects_onHeaderSuccess (s : KHttp2) (c : CtxId)
    (hinterim : (s.ctx c).bodyReader = true → (s.ctx c).inClosed = false → kinds .interim) :
    Effects kinds s (s.onHeaderSuccess c) := by
  unfold onHeaderSuccess
  extract_lets ctx s1 s2
  have h1 : s1.body = s.body := by
    dsimp only [s1]
    split
    · exact s.body_log rfl
    · rfl
  have hpart : (s1.ctx c).part = (s.ctx c).part := congrArg (fun b => b.part c) h1
  have hwait : (s1.ctx c).readWait = ctx.readWait := congrArg Part.readWait hpart
  have hclosed : (s1.ctx c).inClosed = ctx.inClosed := congrArg Part.inClosed hpart
  refine (effects_parse h1 hparse).trans ?_
  split
  · rename_i h100
    simp only [Bool.and_eq_true] at h100
    let u := s1.modify c fun ctx => { ctx with is100Continue := false }
    have hu : Effects kinds s1 u := effects_parse (body_modify rfl) hparse
    have hself : (u.ctx c).readWait = ctx.readWait ∧ (u.ctx c).inClosed = ctx.inClosed := by
      simp only [u, modify, Function.update_self, hwait, hclosed, and_self]
    have heq : (u.modify c fun ctx' =>
        { ctx' with readWait := ctx.readWait.map fun e => { e with fiber := false } }) =
        s1.modify c fun ctx => { ctx with
          is100Continue := false
          readWait := ctx.readWait.map fun e => { e with fiber := false } } := by
      simp only [u, modify, Function.update_self, Function.update_idem, hwait]
    refine hu.trans ?_
    rw [← heq, ← hself.1]
    have hclient : u.clientModel = true := h100.1
    refine .single (.headerWake c _ (fun e he => ?_) ?_)
    · obtain ⟨e', he', rfl⟩ := Option.map_eq_some_iff.mp he
      exact ⟨hclient, e', he', rfl⟩
    · simp only [KHttp2Context.bodyReader, hself.1, hself.2]
      exact hinterim
  · have h2 : s2.body = s1.body := by
      dsimp only [s2]
      split
      · exact body_modify rfl
      · rfl
    have hpart2 : (s2.ctx c).part = (s1.ctx c).part := congrArg (fun b => b.part c) h2
    refine (effects_parse h2 hparse).trans ?_
    split
    · refine s2.effects_headerSuccess hparse c ?_
      have hwait2 : (s2.ctx c).readWait = (s1.ctx c).readWait := congrArg Part.readWait hpart2
      have hclosed2 : (s2.ctx c).inClosed = (s1.ctx c).inClosed := congrArg Part.inClosed hpart2
      simp only [KHttp2Context.bodyReader, hwait2, hclosed2, hwait, hclosed]
      exact hinterim
    · exact .refl

theorem effects_stateHeaderComplete (s : KHttp2) (p : Bytes)
    (hinterim : s.endsEarly = true → kinds .interim) :
    Effects kinds s (s.stateHeaderComplete p).1 := by
  unfold stateHeaderComplete
  split
  · exact .refl
  · rename_i hlength
    split
    · exact effects_stillOut hparse (s.stillOut_handleContinuation _ _)
    · rename_i hflag
      extract_lets s1
      have h1 : Effects kinds s s1 := by
        dsimp only [s1]
        split
        · exact .refl
        · rename_i c hstream
          refine s.effects_onHeaderSuccess hparse c fun hreader hopen => hinterim ?_
          simp only [Bool.not_eq_true', Bool.not_eq_false] at hflag
          simp [endsEarly, Decidable.not_not.mp hlength, hflag, hstream, hreader, hopen]
      have h2 : Effects kinds s1
        (s1.setState fun st => { st with pool := none, keepPool := false }) :=
        effects_parse rfl hparse
      exact (h1.trans h2).trans (effects_stillOut hparse (stillOut_endFrame _ p))

/-! ## The other frames -/

theorem effects_stateHead (s : KHttp2) (p : Bytes) (hkind : kinds .head) :
    Effects kinds s (s.stateHead p).1 := by
  unfold stateHead
  split
  · exact s.effects_stateSave _ _
  · extract_lets length type flags sid s1 s2 s3
    have h1 : Effects kinds s s1 := effects_parse (s.body_setState _) hparse
    have h2 : Effects kinds s1 s2 := .single (.frameHead sid length type flags hkind)
    have h3 : Effects kinds s2 s3 := by
      dsimp only [s3]
      split
      · exact .refl
      · exact s2.effects_checkStreamTimeout
    exact h1.trans (h2.trans h3)

omit hparse in
theorem effects_stateRstStream (s : KHttp2) (p : Bytes) :
    Effects kinds s (s.stateRstStream p).1 := by
  unfold stateRstStream
  split
  · exact s.effects_fail _
  · split
    · exact s.effects_stateSave _ _
    · split
      · exact s.effects_fail _
      · split
        · exact .refl
        · rename_i id c hnode
          exact .single (.reset c none true)

omit hparse in
theorem effects_stateSettings (s : KHttp2) (p : Bytes) : Effects kinds s (s.stateSettings p).1 := by
  unfold stateSettings
  split
  · split
    · exact s.effects_fail _
    · exact .refl
  · split
    · exact s.effects_fail _
    · exact s.effects_sendSettingsAck

theorem effects_stateSettingsParams (s : KHttp2) (p : Bytes) :
    Effects kinds s (s.stateSettingsParams p).1 := by
  unfold stateSettingsParams
  split
  · exact .refl
  · split
    · exact s.effects_stateSave _ _
    · extract_lets s1 id value next
      have h1 : Effects kinds s s1 := effects_parse (s.body_setState _) hparse
      have h2 : ∀ id, Effects kinds s1 (s1.log (.setting id value)) := fun id =>
        effects_parse (body_log s1 rfl) hparse
      refine h1.trans ?_
      clear_value id value
      split
      · split
        · exact s1.effects_fail _
        · exact (h2 4).trans (effects_adjustWindows _ value)
      · split
        · exact s1.effects_fail _
        · exact (h2 5).trans (effects_parse (body_limits _ _ value _) hparse)
      · exact (h2 8).trans (effects_parse (body_limits _ _ _ _) hparse)
      · exact h2 id

omit hparse in
theorem effects_statePing (s : KHttp2) (p : Bytes) : Effects kinds s (s.statePing p).1 := by
  unfold statePing
  split
  · exact s.effects_fail _
  · split
    · exact s.effects_stateSave _ _
    · split
      · exact .refl
      · exact (s.effects_pushGetFrame none 0 _ ackFlag false (by decide) (by decide)).tail
          .startWrite

theorem effects_stateWindowUpdate (s : KHttp2) (p : Bytes) :
    Effects kinds s (s.stateWindowUpdate p).1 := by
  unfold stateWindowUpdate
  split
  · exact s.effects_fail _
  · split
    · exact s.effects_stateSave _ _
    · extract_lets window next src s1
      split
      · exact s.effects_streamWindowUpdate window
      · split
        · exact s.effects_fail _
        · have h1 : Effects kinds s s1 :=
            effects_parse ((body_limits _ _ _ _).trans (s.body_log rfl)) hparse
          show Effects kinds s (if s.sendWindow = 0 then s1.checkWriteWait else s1)
          split
          · exact h1.trans (effects_checkWriteWaitLoop _ s1)
          · exact h1

/-! ## DATA -/

theorem effects_dataStream (s : KHttp2) (flag : Bool) (p : Bytes) (hkind : kinds .data) :
    Effects kinds s (s.dataStream flag p).1 := by
  have hskip : ∀ t : KHttp2, Effects kinds t (t.stateSkipPadded p).1 :=
    fun t => effects_parse rfl hparse
  unfold dataStream
  split
  · exact (s.effects_ite_startWrite flag).trans (hskip _)
  · rename_i id c hnode
    split
    · exact (s.effects_terminateStream c _).trans (hskip _)
    · split
      · exact (s.effects_terminateStream c _).trans (hskip _)
      · rename_i hwindow
        extract_lets s1 r s2
        have h1 : Effects kinds s s1 :=
          .single (.chargeStream c s.state.length hkind (Nat.le_of_not_lt hwindow))
        refine h1.trans ?_
        split
        · have hr : Effects kinds s1 r.1 := s1.effects_terminateStream c _
          exact (hr.trans (r.1.effects_ite_startWrite _)).trans (hskip _)
        · have h2 : Effects kinds s1 s2 := effects_parse rfl hparse
          exact h2.trans (s2.effects_ite_startWrite flag)

theorem effects_stateData (s : KHttp2) (p : Bytes) (hkind : kinds .data) :
    Effects kinds s (s.stateData p).1 := by
  have hflow : ∀ (t : KHttp2) (p : Bytes), Effects kinds t (t.dataFlow p).1 := by
    intro t p
    unfold dataFlow
    split
    · exact t.effects_fail _
    · rename_i hwindow
      extract_lets r
      have hr : Effects kinds t r.1 := t.effects_useRecvWindow (Nat.le_of_not_lt hwindow) hkind
      exact hr.trans (r.1.effects_dataStream hparse r.2 p hkind)
  unfold stateData
  split
  · split
    · exact s.effects_fail _
    · split
      · exact s.effects_stateSave _ _
      · rename_i padding p
        extract_lets s1
        have h1 : Effects kinds s s1 := effects_parse rfl hparse
        refine h1.trans ?_
        split
        · exact s1.effects_fail _
        · refine .trans ?_ (hflow _ p)
          exact effects_parse rfl hparse
  · exact hflow s p

theorem effects_stateReadData (s : KHttp2) (p : Bytes) (hkind : kinds .data) :
    Effects kinds s (s.stateReadData p).1 := by
  unfold stateReadData
  split
  · exact effects_parse rfl hparse
  · rename_i c hstream
    extract_lets size bytes s3 s1 p1 s2
    have h1 : Effects kinds s s1 := by
      dsimp only [s1]
      split
      · exact .refl
      · have hlen : (p.take size).length = size := by
          rw [List.length_take]
          exact Nat.min_eq_left (Nat.min_le_left _ _)
        have hbytes : (p.take size).take ((p.take size).length % 2 ^ 16) = bytes := by
          simp only [bytes, hlen, List.take_take]
          congr 1
          exact Nat.min_eq_left (Nat.mod_le _ _)
        have htake := Effect.takeData (s := s) c (p.take size) hkind
        unfold takeData at htake
        simp only [hbytes] at htake
        exact .head htake (effects_parse rfl hparse)
    refine h1.trans ?_
    split
    · exact s1.effects_stateSave _ _
    · have h2 : Effects kinds s1 s2 := by
        dsimp only [s2]
        split
        · exact .single (.takeEnd c hkind)
        · exact .refl
      exact h2.trans (effects_stillOut hparse (s2.stillOut_endFrame p1))

/-! ## All handlers -/

theorem effects_exec (codes : HuffDecodeCodes) (h : Handler) (s : KHttp2) (p : Bytes)
    (hhead : h = .stateHead → kinds .head)
    (hdata : h = .stateData ∨ h = .stateReadData → kinds .data)
    (hdrop : h = .stateComplete → s.incomplete = true → kinds .drop ∧ kinds .output)
    (hinterim : h = .stateHeaderComplete → s.endsEarly = true → kinds .interim) :
    Effects kinds s (exec codes h s p).1 := by
  cases h with
  | statePreface => exact effects_stillOut hparse (s.stillOut_statePreface p)
  | statePrefaceEnd => exact effects_stillOut hparse (s.stillOut_statePrefaceEnd p)
  | stateHead => exact s.effects_stateHead hparse p (hhead rfl)
  | stateData => exact s.effects_stateData hparse p (hdata (Or.inl rfl))
  | stateReadData => exact s.effects_stateReadData hparse p (hdata (Or.inr rfl))
  | stateHeaders => exact s.effects_stateHeaders hparse p
  | stateHeaderBlock => exact effects_stillOut hparse (s.stillOut_stateHeaderBlock p)
  | stateProcessHeader => exact effects_stillOut hparse (s.stillOut_stateProcessHeader p)
  | stateHeaderComplete => exact s.effects_stateHeaderComplete hparse p (hinterim rfl)
  | stateFieldLen => exact effects_stillOut hparse (s.stillOut_stateFieldLen p)
  | stateFieldHuff => exact effects_stillOut hparse (stillOut_stateFieldHuff codes s p)
  | stateFieldRaw => exact effects_stillOut hparse (s.stillOut_stateFieldRaw p)
  | stateFieldSkip => exact effects_stillOut hparse (s.stillOut_stateFieldSkip p)
  | statePriority => exact effects_stillOut hparse (s.stillOut_statePriority p)
  | stateRstStream => exact s.effects_stateRstStream p
  | stateSettings => exact s.effects_stateSettings p
  | stateSettingsParams => exact s.effects_stateSettingsParams hparse p
  | statePushPromise => exact .refl
  | statePing => exact s.effects_statePing p
  | stateGoaway => exact effects_stillOut hparse (s.stillOut_stateGoaway p)
  | stateWindowUpdate => exact s.effects_stateWindowUpdate hparse p
  | stateContinuation => exact s.effects_fail _
  | stateAltsvc => exact effects_stillOut hparse (s.stillOut_stateAltsvc p)
  | stateSkip => exact effects_stillOut hparse (s.stillOut_stateSkip p)
  | stateComplete => exact s.effects_releaseStateStream hparse (hdrop rfl)

end Parser

/-! ## Calls of fibers -/

theorem effects_addTo (s : KHttp2) (c : CtxId) (f : KHttp2HeaderFrame → KHttp2HeaderFrame) :
    Effects kinds s (s.addTo c f) :=
  effects_soft (body_modify rfl) rfl

theorem effects_sendMethodPath (s : KHttp2) (c : CtxId) (meth : ℕ) (path : Bytes) :
    Effects kinds s (s.sendMethodPath c meth path) := by
  unfold sendMethodPath
  extract_lets s1 s2
  have h1 : Effects kinds s s1 := s.effects_addTo c _
  have h2 : Effects kinds s1 s2 := by
    dsimp only [s2]
    split
    · exact effects_soft (body_modify rfl) rfl
    · exact .refl
  exact h1.trans (h2.trans (s2.effects_addTo c _))

theorem effects_startResponseBody (s : KHttp2) (c : CtxId) (bodySize : ℤ) (is100Continue : Bool)
    (hkind : kinds .output) : Effects kinds s (s.startResponseBody c bodySize is100Continue) := by
  unfold startResponseBody
  split
  · exact s.effects_sendHeader c false hkind
  · extract_lets s1
    have h1 : Effects kinds s s1 := effects_soft (body_modify rfl) rfl
    exact h1.trans (s1.effects_sendHeader c _ hkind)

theorem effects_readBody (s : KHttp2) (c : CtxId) (len : ℕ) (hkind : kinds .output) :
    Effects kinds s (s.readBody c len) := by
  unfold readBody
  extract_lets s1 s2
  have h2 : Effects kinds s s2 := by
    dsimp only [s2]
    split
    · have h1 : Effects kinds s s1 := effects_soft (body_modify rfl) rfl
      exact h1.trans ((s1.effects_addTo c _).trans (effects_startResponseBody _ c 0 true hkind))
    · exact .refl
  exact h2.trans (s2.effects_read c len fun _ => hkind)

theorem effects_addTrailer (s : KHttp2) (c : CtxId) (name val : Bytes) (hkind : kinds .output) :
    Effects kinds s (s.addTrailer c name val) := by
  unfold addTrailer
  extract_lets s1 s2
  have h1 : Effects kinds s s1 := by
    dsimp only [s1]
    split
    · exact s.effects_sendHeader c false hkind
    · exact .refl
  have h2 : Effects kinds s s2 := by
    dsimp only [s2]
    split
    · exact .refl
    · exact h1.trans (effects_soft (body_modify rfl) rfl)
  exact h2.trans (s2.effects_addTo c _)

theorem effects_readHeaders (s : KHttp2) (c : CtxId) (hkind : kinds .output) :
    Effects kinds s (s.readHeaders c) := by
  unfold readHeaders
  extract_lets s1
  have h1 : Effects kinds s s1 := by
    dsimp only [s1]
    split
    · exact s.effects_sendHeader c _ hkind
    · exact .refl
  exact h1.trans (s1.effects_readHeader c)

theorem effects_call (s : KHttp2) (c : CtxId) (op : Op) (howner : c ∈ s.owners)
    (hready : op.ready (s.ctx c) = true) (houtput : kinds .output)
    (hwrite : op.writes = true → kinds .write) : Effects kinds s (s.call c op) := by
  have hidle : ∀ b : Bool, (!(s.ctx c).writeSuspended && b) = true →
      (s.ctx c).writeSuspended = false := fun b h => by
    simp only [Bool.and_eq_true, Bool.not_eq_true'] at h
    exact h.1
  cases op with
  | write buf length =>
    exact s.effects_writeWait c false _ length howner (hidle _ hready) (hwrite rfl)
      fun _ => houtput
  | sendfile file length =>
    exact s.effects_writeWait c true _ length howner (hidle _ hready) (hwrite rfl)
      fun _ => houtput
  | read len => exact s.effects_readBody c len houtput
  | addStatus code =>
    simp only [call]
    exact s.effects_addTo c _
  | addMethod meth =>
    simp only [call]
    exact s.effects_addTo c _
  | addKnownHeader name val =>
    simp only [call]
    exact s.effects_addTo c _
  | addHeader name val =>
    simp only [call, addHeader]
    exact s.effects_addTo c _
  | sendMethodPath meth path => exact s.effects_sendMethodPath c meth path
  | sendExpect val =>
    have h1 : Effects kinds s (s.modify c fun ctx => { ctx with hasExpect := true }) :=
      effects_soft (body_modify rfl) rfl
    simp only [call, sendExpect, addHeader]
    exact h1.trans (effects_addTo _ c _)
  | sendUpgrade val =>
    simp only [call, sendUpgrade, addHeader]
    exact s.effects_addTo c _
  | setContentLength contentLength =>
    simp only [call]
    refine effects_soft (body_modify ?_) rfl
    split <;> rfl
  | startResponseBody bodySize is100Continue =>
    exact s.effects_startResponseBody c bodySize is100Continue houtput
  | addTrailer name val => exact s.effects_addTrailer c name val houtput
  | writeEnd => exact s.effects_writeEnd c houtput
  | shutdown => exact s.effects_shutdown c
  | readhup => exact s.effects_readhup c
  | removeReadhup => exact s.effects_removeReadhup c
  | setTimeOut tmo =>
    simp only [call, setTimeOut]
    exact effects_soft (body_modify rfl) rfl
  | sendAltsvc val => exact s.effects_sendAltsvc c val
  | setHeaderCallback =>
    simp only [call, setHeaderCallback]
    refine .single (.headerWait c _ fun e he => Or.inl ?_)
    cases he
    rfl
  | readHeaders => exact s.effects_readHeaders c houtput
  | gc =>
    simp only [call]
    split
    · rename_i hclient
      simp only [Op.ready, Bool.and_eq_true, Bool.not_eq_true'] at hready
      exact .single (.gc c hclient howner hready.1.1)
    · exact .refl
  | finish => exact s.effects_finish c howner (hidle _ hready) fun _ => houtput

/-! ## Events -/

theorem effects_startRead (s : KHttp2) : Effects kinds s s.startRead := by
  unfold startRead
  extract_lets idle s1
  have h1 : Effects kinds s s1 := by
    dsimp only [s1]
    split
    · exact s.effects_goaway _
    · exact .refl
  refine h1.trans ?_
  split
  · exact s1.effects_close true noError
  · exact .refl

theorem effects_ping (s : KHttp2) : Effects kinds s s.ping := by
  unfold ping
  split
  · exact .refl
  · extract_lets s0 s1 payload
    have h1 : Effects kinds s0 s1 := effects_soft rfl rfl
    have h2 : Effects kinds s1 (s1.pushGetFrame none 0 payload pingFrame 0 true) :=
      s1.effects_pushGetFrame none 0 payload 0 true (by decide) (by decide)
    exact (s.effects_checkStreamTimeout.trans (h1.trans h2)).tail .startWrite

theorem effects_tryWrite (s : KHttp2) : Effects kinds s s.tryWrite := by
  unfold tryWrite closeWrite
  split
  · exact .refl
  · rename_i hleft
    split
    · exact s.effects_close false noError
    · exact .single (.stopWrite (Nat.eq_zero_of_not_pos hleft))

theorem effects_onWriteResult (s : KHttp2) (got : ℕ) (hgot : got ≤ s.writeBuffer.left) :
    Effects kinds s (s.onWriteResult got) :=
  .head (.written got hgot) (effects_tryWrite _)

theorem effects_connect (s : KHttp2) (hclient : s.clientModel = true) :
    Effects kinds s s.connect := by
  unfold connect
  split
  · exact .refl
  · split
    · exact .refl
    · exact .single (.newClientStream _ false hclient rfl)

theorem effects_getAdminStream (s : KHttp2) (hclient : s.clientModel = true) :
    Effects kinds s s.getAdminStream := by
  unfold getAdminStream
  split
  · exact .refl
  · have h1 : Effects kinds s { s with hasAdminStream := true } := effects_soft rfl rfl
    exact h1.tail (.newClientStream (s.processing + 1) true hclient rfl)

/-- Everything but the receipt of bytes. -/
theorem effects_act_of (codes : HuffDecodeCodes) (s : KHttp2) (e : Event)
    (henabled : s.enabled e = true) (hread : ∀ chunk, e ≠ .read chunk) (houtput : kinds .output)
    (hwrite : e.writes = true → kinds .write) : Effects kinds s (act codes s e) := by
  cases e with
  | read chunk => exact absurd rfl (hread chunk)
  | readTimeOut =>
    simp only [act, onReadTimeOut]
    split
    · exact .refl
    · exact s.effects_ping
  | readError => exact s.effects_close true connectError
  | nextWrite => exact s.effects_tryWrite
  | written got =>
    simp only [enabled, Bool.and_eq_true, decide_eq_true_eq] at henabled
    exact s.effects_onWriteResult got henabled.2.2
  | writeError => exact s.effects_close false connectError
  | tick msec => exact effects_soft rfl rfl
  | call c op =>
    simp only [enabled, Bool.and_eq_true, List.contains_iff_mem] at henabled
    exact s.effects_call c op henabled.2.1 henabled.2.2 houtput hwrite
  | connect =>
    simp only [enabled, Bool.and_eq_true] at henabled
    exact s.effects_connect henabled.2
  | getAdminStream =>
    simp only [enabled, Bool.and_eq_true] at henabled
    exact s.effects_getAdminStream henabled.2
  | destroyPooled c =>
    simp only [enabled, Bool.and_eq_true, List.contains_iff_mem] at henabled
    exact .tail (.single (.destroyPooled c henabled.2.2)) .tryDelete

theorem effects_act (codes : HuffDecodeCodes) (s : KHttp2) (e : Event)
    (henabled : s.enabled e = true) (hread : ∀ chunk, e ≠ .read chunk) (houtput : kinds .output)
    (hwrite : kinds .write) : Effects kinds s (act codes s e) :=
  effects_act_of codes s e henabled hread houtput fun _ => hwrite

end KHttp2

end Khttpd
