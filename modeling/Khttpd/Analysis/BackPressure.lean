import Khttpd.Analysis.DataFrames

/-!
# Back-pressure on a peer that sends

How much a stream may hold, and that a reader that waits has left its peer a window. A DATA frame
uses the window of its stream when its head is read, before its bytes come; a WINDOW_UPDATE sent
in between gives the peer that much more.
-/

set_option autoImplicit false

namespace Khttpd

/-- A stream with `owed` bytes of a DATA frame still to come. -/
structure Pressure (owed : ℕ) (part : Part) : Prop where
  window : part.recvWindow ≤ streamRecvWindow
  debt : owed ≤ streamRecvWindow
  total : strLen part.readBuffer + part.recvWindow + owed < 2 * streamRecvWindow +
    streamRecvWindow / 4
  reader : ∀ e ∈ part.readWait, e.header = false → part.inClosed = false →
    strLen part.readBuffer = 0 ∧ streamRecvWindow / 4 ≤ part.recvWindow + owed

/-- Where nobody waits any more there is less to show. -/
theorem Pressure.of_le {owed owed' : ℕ} {old new : Part} (h : Pressure owed old)
    (howed : owed' ≤ owed) (hwindow : new.recvWindow = old.recvWindow)
    (hbuffer : strLen new.readBuffer + owed' ≤ strLen old.readBuffer + owed)
    (hreader : ∀ e ∈ new.readWait, e.header = false → new.inClosed = false →
      old.inClosed = false ∧ new.readBuffer = old.readBuffer ∧ owed' = owed ∧
        ∃ e' ∈ old.readWait, e'.header = false) : Pressure owed' new where
  window := hwindow ▸ h.window
  debt := howed.trans h.debt
  total := by
    have htotal := h.total
    omega
  reader e he hheader hopen := by
    obtain ⟨hold, hsame, howed', e', he', hheader'⟩ := hreader e he hheader hopen
    rw [hsame, hwindow, howed']
    exact h.reader e' he' hheader' hold

theorem strLen_some (bytes : Bytes) : strLen (some bytes) = bytes.length := rfl

/-- No change but the taking of DATA uses a window or fills a buffer. -/
theorem pressure_change {kinds : KHttp2.Kind → Prop} (hdata : ¬kinds .data) {c : CtxId} {v w : Seen}
    (h : KHttp2.Change kinds c v w) {owed : ℕ} (hv : Pressure owed v.part) :
      Pressure owed w.part := by
  have hsame : ∀ {w : Part}, w.recvWindow = v.part.recvWindow → w.readBuffer = v.part.readBuffer →
      (∀ e ∈ w.readWait, e.header = false → w.inClosed = false →
        v.part.inClosed = false ∧ ∃ e' ∈ v.part.readWait, e'.header = false) → Pressure owed w := by
    intro w hwindow hbuffer hreader
    refine hv.of_le (Nat.le_refl _) hwindow (by rw [hbuffer]) fun e he hheader hopen => ?_
    obtain ⟨hold, hwait⟩ := hreader e he hheader hopen
    exact ⟨hold, hbuffer, rfl, hwait⟩
  have hquiet : ∀ {w : Part}, w.recvWindow = v.part.recvWindow → w.readBuffer = v.part.readBuffer →
      w.readWait = v.part.readWait → w.inClosed = v.part.inClosed → Pressure owed w := by
    intro w hwindow hbuffer hwait hclosed
    refine hsame hwindow hbuffer fun e he hheader hopen => ⟨hclosed ▸ hopen, e, hwait ▸ he, hheader⟩
  have hfresh : ∀ node fin, Pressure owed (.init node fin) := by
    intro node fin
    refine ⟨Nat.le_refl _, hv.debt, ?_, fun e he => by cases he⟩
    have howed := hv.debt
    have hempty : strLen (Part.init node fin).readBuffer = 0 := rfl
    have hfull : (Part.init node fin).recvWindow = streamRecvWindow := rfl
    have hquarter : 0 < streamRecvWindow / 4 := by decide
    omega
  cases h with
  | queued frame _ _ => exact hv
  | link sid hnone => exact hquiet rfl rfl rfl rfl
  | output frame _ _ => exact hv
  | closeOut fin _ => exact hquiet rfl rfl rfl rfl
  | closeIn => exact hsame rfl rfl fun e _ _ hopen => by cases hopen
  | hup w _ _ => exact hquiet rfl rfl rfl rfl
  | suspend e _ _ _ => exact hquiet rfl rfl rfl rfl
  | send e total fin frame _ _ _ _ => exact hquiet rfl rfl rfl rfl
  | clean fin _ =>
    simp only [Seen.clean, Seen.part_onWrite, Seen.part_set]
    exact hquiet rfl rfl rfl rfl
  | reset rst clear _ =>
    have hpart : (v.reset c rst clear).part.recvWindow = v.part.recvWindow ∧
        (v.reset c rst clear).part.readWait = none ∧
        strLen (v.reset c rst clear).part.readBuffer ≤ strLen v.part.readBuffer := by
      unfold Seen.reset
      simp only [Seen.part_onWrite, Seen.part_onRead]
      cases clear <;> cases rst <;> simp only [Option.elim, Seen.part_log, Seen.part_set,
        Bool.false_eq_true, if_true, if_false, true_and, Nat.le_refl, and_self]
      · cases v.part.readBuffer <;> simp [strLen]
      · cases v.part.readBuffer <;> simp [strLen]
    obtain ⟨hwindow, hwait, hbuffer⟩ := hpart
    refine hv.of_le (Nat.le_refl _) hwindow (by omega) fun e he => ?_
    rw [hwait] at he
    cases he
  | refill frame hopen hlow _ =>
    simp only [Seen.part_set, Seen.part_log]
    have howed := hv.debt
    refine ⟨Nat.le_refl _, hv.debt, ?_,
      fun e he hheader hopen' => ⟨(hv.reader e he hheader hopen).1, ?_⟩⟩
    · show strLen v.part.readBuffer + streamRecvWindow + owed < _
      omega
    · show streamRecvWindow / 4 ≤ streamRecvWindow + owed
      omega
  | copy len hfull =>
    refine hv.of_le (Nat.le_refl _) rfl ?_ fun e he hheader hopen => ?_
    · show strLen (some ((v.part.readBuffer.getD []).drop len)) + owed ≤ _
      rw [strLen_some, List.length_drop]
      exact Nat.add_le_add_right (Nat.sub_le _ _) _
    · exact absurd (hv.reader e he hheader hopen).1 hfull
  | returns got _ _ => exact hv
  | readWait len hempty _ hopen hwindow =>
    refine ⟨hv.window, hv.debt, hv.total, fun e _ _ _ => ⟨hempty, ?_⟩⟩
    exact Nat.le_trans hwindow (Nat.le_add_right _ _)
  | headerWait w hw =>
    refine hsame rfl rfl fun e he hheader hopen => ⟨hopen, ?_⟩
    rcases hw e he with htrue | ⟨e', he', heq⟩
    · exact absurd (htrue.symm.trans hheader) Bool.noConfusion
    · exact ⟨e', he', heq.trans hheader⟩
  | headerWake w hw _ =>
    simp only [Seen.part_onRead, Seen.part_set]
    refine hsame rfl rfl fun e he hheader hopen => ⟨hopen, ?_⟩
    obtain ⟨e', he', heq⟩ := hw e he
    exact ⟨e', he', heq.trans hheader⟩
  | headersIn fin _ hopen =>
    have hpart : (if fin then (v.set fun part => { part with inClosed := fin }).log (.endStream c)
        else v.set fun part => { part with inClosed := fin }).part =
          { v.part with inClosed := fin } := by
      split <;> rfl
    rw [hpart]
    exact hsame rfl rfl fun e he hheader _ => ⟨hopen, e, he, hheader⟩
  | openStream sid fin =>
    have hpart : ((if fin then (v.set fun _ => .init (some sid) fin).log (.endStream c)
        else v.set fun _ => .init (some sid) fin).log (.openNode c sid)).part =
          Part.init (some sid) fin := by
      simp only [Seen.part_log]
      split <;> rfl
    rw [hpart]
    exact hfresh _ _
  | newStream => exact hfresh _ _
  | release rst _ _ =>
    have hpart : (v.release c rst).part.recvWindow = v.part.recvWindow ∧
        (v.release c rst).part.readWait = none ∧
        (v.release c rst).part.readBuffer = v.part.readBuffer := by
      unfold Seen.release
      cases rst <;> simp only [Option.elim] <;> split <;>
        simp only [Seen.part_log, Seen.part_set, and_self]
    obtain ⟨hwindow, hwait, hbuffer⟩ := hpart
    refine hsame hwindow hbuffer fun e he => ?_
    rw [hwait] at he
    cases he
  | chargeStream length hkind _ => exact absurd hkind hdata
  | takeData taken merge hkind => exact absurd hkind hdata
  | takeEnd hkind => exact absurd hkind hdata

/-- The frame is charged to the stream, and its bytes are still to come. -/
theorem Pressure.charge {part : Part} (h : Pressure 0 part) {length : ℕ}
    (hlength : length ≤ part.recvWindow) :
    Pressure length { part with recvWindow := part.recvWindow - length } where
  window := (Nat.sub_le _ _).trans h.window
  debt := hlength.trans h.window
  total := by
    have htotal := h.total
    show strLen part.readBuffer + (part.recvWindow - length) + length < _
    omega
  reader e he hheader hopen := by
    obtain ⟨hempty, hwindow⟩ := h.reader e he hheader hopen
    refine ⟨hempty, ?_⟩
    show _ ≤ part.recvWindow - length + length
    omega

/-- The rest of a frame does not matter to a stream that is closed for reading. -/
theorem Pressure.forget {part : Part} {owed : ℕ} (h : Pressure owed part)
    (hclosed : part.inClosed = true) : Pressure 0 part := by
  refine h.of_le (Nat.zero_le _) rfl (Nat.add_le_add_left (Nat.zero_le _) _) fun e _ _ hopen => ?_
  rw [hclosed] at hopen
  cases hopen

/-- Bytes that come go to the buffer or to the reader. -/
theorem Pressure.takeData {v : Seen} {owed : ℕ} (h : Pressure owed v.part) (c : CtxId)
    (taken : Bytes)
    (merge : Bool) (htaken : taken.length ≤ owed) :
    Pressure (owed - taken.length) (v.takeData c taken merge).part := by
  have hbytes : (taken.take (taken.length % 2 ^ 16)).length ≤ taken.length := by
    rw [List.length_take]
    exact Nat.min_le_right _ _
  unfold Seen.takeData
  simp only [Seen.part_wakeReader, Seen.part_logData, Seen.part_set]
  cases hwait : v.part.readWait with
  | none =>
    refine h.of_le (Nat.sub_le _ _) rfl ?_ fun e he => ?_
    · show strLen (some (v.part.readBuffer.getD [] ++ _)) + _ ≤ _
      rw [strLen_some, List.length_append]
      unfold strLen
      omega
    · cases he
  | some e =>
    refine h.of_le (Nat.sub_le _ _) rfl ?_ fun e he => by cases he
    simp only [Bool.false_eq_true, if_false, Option.getD_some, strLen_some, List.length_drop,
      List.length_append]
    unfold strLen
    omega

theorem Pressure.takeEnd {v : Seen} {owed : ℕ} (h : Pressure owed v.part) (c : CtxId) :
    Pressure owed (v.takeEnd c).part := by
  unfold Seen.takeEnd
  simp only [Seen.part_wakeReader, Seen.part_log, Seen.part_set]
  cases hwait : v.part.readWait with
  | none =>
    exact h.of_le (Nat.le_refl _) rfl (Nat.le_refl _) fun e he _ hopen => by cases hopen
  | some e =>
    exact h.of_le (Nat.le_refl _) rfl (Nat.le_refl _) fun e he => by cases he

namespace KHttp2

/-- The bytes of a DATA frame that are still to come for a stream. -/
def owed (s : KHttp2) (h : Option Handler) (c : CtxId) : ℕ :=
  if h = some .stateReadData ∧ s.state.stream = some c then s.state.length else 0

/-- Every stream is under the pressure that its reader can bear. -/
def Pressed (h : Option Handler) (s : KHttp2) : Prop :=
  ∀ c, Pressure (s.owed h c) (s.ctx c).part

theorem owed_of_ne {s : KHttp2} {h : Option Handler} (hne : h ≠ some .stateReadData) (c : CtxId) :
    s.owed h c = 0 :=
  if_neg fun hread => hne hread.1

/-- The effects that are not the taking of DATA. -/
theorem pressure_effects {kinds : Kind → Prop} (hdata : ¬kinds .data) {s t : KHttp2}
    (h : Effects kinds s t) (c : CtxId) {owed : ℕ} (hs : Pressure owed (s.ctx c).part) :
    Pressure owed (t.ctx c).part := by
  let kinds' : Kind → Prop := fun kind => kinds kind ∨ kind = .drop
  have hkinds : ¬kinds' .data := fun h => h.elim hdata nofun
  induction h with
  | refl => exact hs
  | tail _ heffect ih =>
    have hchanges : Changes kinds' c _ _ :=
      changes_effect c heffect (fun _ => Or.inl) (Or.inl (Or.inr rfl))
    refine Relation.ReflTransGen.rec (motive := fun v _ => Pressure owed v.part) ih ?_ hchanges
    exact fun _ hchange hv => pressure_change hkinds hchange hv

/-- The head of a DATA frame charges its stream. -/
theorem pressed_stateData (s : KHttp2) (p : Bytes) (hs : Pressed (some .stateData) s) :
    Pressed (s.stateData p).2.next (s.stateData p).1 := by
  have hs0 : ∀ c, Pressure 0 (s.ctx c).part := fun c => by
    have hc := hs c
    have hne : some Handler.stateData ≠ some .stateReadData := nofun
    rw [owed_of_ne hne] at hc
    exact hc
  have hrest : ∀ (t : KHttp2) (next : Option Handler), next ≠ some .stateReadData →
      (∀ c, Pressure 0 (t.ctx c).part) → Pressed next t := by
    intro t next hnext ht c
    rw [owed_of_ne hnext]
    exact ht c
  have hstart := s.stateData_cases p
  generalize s.stateData p = start at hstart
  cases hstart with
  | failed t status hstill =>
    have heffects : Effects (· ≠ .data) s (t.fail status).1 :=
      (effects_parse hstill.body nofun).trans (t.effects_fail status)
    exact hrest _ _ nofun fun c => pressure_effects (fun h => h rfl) heffects c (hs0 c)
  | waits _ => exact hrest _ _ nofun hs0
  | flows t q hstill hsid hstream hflags hlength hwindow =>
    obtain ⟨hstate, hctx, hnode, hseen⟩ := t.useRecvWindow_keeps
    have hout : DataOut (· ≠ .data) t.useRecvWindow.1 q
        (t.useRecvWindow.1.dataStream t.useRecvWindow.2 q) := dataStream_cases _ _ _ nofun
    have ht0 : ∀ c, Pressure 0 (t.useRecvWindow.1.ctx c).part := fun c => by
      have hpart : (t.useRecvWindow.1.ctx c).part = (s.ctx c).part := by
        rw [hctx]
        exact congrArg (fun b => b.part c) hstill.body
      rw [hpart]
      exact hs0 c
    generalize t.useRecvWindow.1 = u at hout ht0
    generalize u.dataStream t.useRecvWindow.2 q = r at hout
    have hcharge : ∀ (n : KHttp2Node), u.state.length ≤ (u.ctx n.stream).recvWindow → ∀ c,
        Pressure (if n.stream = c then u.state.length else 0)
          ((u.useStreamWindow n.stream u.state.length).ctx c).part := by
      intro n hroom c
      rw [part_useStreamWindow]
      by_cases hc : n.stream = c
      · subst hc
        rw [if_pos rfl, if_pos rfl]
        exact (ht0 n.stream).charge hroom
      · rw [if_neg hc, if_neg hc]
        exact ht0 c
    cases hout with
    | refused w heffects _ _ =>
      exact hrest _ _ nofun fun c => pressure_effects (fun h => h rfl) heffects c (ht0 c)
    | closed n w hn hroom hclosed heffects _ hstill =>
      refine hrest _ _ nofun fun c => ?_
      have hw := pressure_effects (fun h => h rfl) heffects c (hcharge n hroom c)
      by_cases hc : n.stream = c
      · subst hc
        exact hw.forget hstill
      · rw [if_neg hc] at hw
        exact hw
    | taken n w hn hroom hopen heffects hseen hstate =>
      intro c
      have howed : w.owed (some .stateReadData) c = if n.stream = c then u.state.length else 0 := by
        simp only [owed, hstate, true_and, Option.some.injEq]
      have hpart : (w.ctx c).part = _ := congrArg Seen.part (hseen c)
      show Pressure (w.owed (some .stateReadData) c) (w.ctx c).part
      rw [howed, hpart]
      exact hcharge n hroom c

/-- The bytes of a DATA frame come. -/
theorem pressed_stateReadData (s : KHttp2) (p : Bytes) (hs : Pressed (some .stateReadData) s) :
    Pressed (s.stateReadData p).2.next (s.stateReadData p).1 := by
  cases hstream : s.state.stream with
  | none =>
    have hskip : s.stateReadData p = s.stateSkipPadded p := by
      unfold stateReadData
      rw [hstream]
    rw [hskip]
    intro c
    have hc := hs c
    simp only [owed, hstream, reduceCtorEq, and_false, if_false] at hc
    have hne : some Handler.stateSkip ≠ some .stateReadData := nofun
    show Pressure ((s.stateSkipPadded p).1.owed (some .stateSkip) c) (s.ctx c).part
    rw [owed_of_ne hne]
    exact hc
  | some c =>
    have hbefore : ∀ c', Pressure (if c = c' then s.state.length else 0) (s.ctx c').part := by
      intro c'
      have hc := hs c'
      simp only [owed, hstream, true_and, Option.some.injEq] at hc
      exact hc
    have htake : ∀ (t : KHttp2) (taken : Bytes), taken.length ≤ s.state.length →
        (t.body = if taken = [] then s.body else (s.takeData c taken).body) → ∀ c',
        Pressure (if c = c' then s.state.length - taken.length else 0) (t.ctx c').part := by
      intro t taken hle hbody c'
      by_cases hempty : taken = []
      · rw [if_pos hempty] at hbody
        have hpart : (t.ctx c').part = (s.ctx c').part := congrArg (fun b => b.part c') hbody
        rw [hpart, hempty, List.length_nil, Nat.sub_zero]
        exact hbefore c'
      · rw [if_neg hempty] at hbody
        have hpart : (t.ctx c').part = ((s.takeData c taken).seen c').part :=
          congrArg (fun b => b.part c') hbody
        rw [hpart]
        have hc := hbefore c'
        by_cases hne : c = c'
        · subst hne
          obtain ⟨merge, heq⟩ := s.seen_takeData c taken
          rw [if_pos rfl] at hc ⊢
          rw [heq]
          exact Pressure.takeData (v := s.seen c) hc c taken merge hle
        · rw [if_neg hne] at hc ⊢
          rw [s.seen_takeData_other hne taken]
          exact hc
    have hcases := stateReadData_cases p hstream
    generalize s.stateReadData p = r at hcases
    cases hcases with
    | waits t taken htaken hshort hbody hlength hheld =>
      intro c'
      have howed : t.owed (some .stateReadData) c' =
          if c = c' then s.state.length - taken.length else 0 := by
        simp only [owed, hheld, hlength, true_and, Option.some.injEq]
      show Pressure (t.owed (some .stateReadData) c') (t.ctx c').part
      rw [howed]
      exact htake t taken (Nat.le_of_lt htaken) hbody c'
    | done t u taken ret htaken hshort ht hu hret hnext =>
      intro c'
      have hnone : ret.next ≠ some .stateReadData := fun h => (hret _ h).2 rfl
      show Pressure (u.owed ret.next c') (u.ctx c').part
      rw [owed_of_ne hnone]
      have htc := htake t taken (Nat.le_of_eq htaken) ht c'
      rw [htaken, Nat.sub_self, ite_self] at htc
      by_cases hend : hasFlag s.state.flags endStreamFlag = true
      · rw [if_pos hend] at hu
        have hpart : (u.ctx c').part = ((t.takeEnd c).seen c').part :=
          congrArg (fun b => b.part c') hu
        rw [hpart]
        by_cases hne : c = c'
        · subst hne
          rw [t.seen_takeEnd c]
          exact Pressure.takeEnd (v := t.seen c) htc c
        · rw [t.seen_takeEnd_other hne]
          exact htc
      · rw [if_neg hend] at hu
        have hpart : (u.ctx c').part = (t.ctx c').part := congrArg (fun b => b.part c') hu
        rw [hpart]
        exact htc

/-- Every handler keeps the pressure bearable. -/
theorem pressed_exec (codes : HuffDecodeCodes) (h : Handler) (s : KHttp2) (p : Bytes)
    (hs : Pressed (some h) s) :
    Pressed (exec codes h s p).2.next (exec codes h s p).1 := by
  by_cases hdata : h = .stateData
  · subst hdata
    exact s.pressed_stateData p hs
  · by_cases hread : h = .stateReadData
    · subst hread
      exact s.pressed_stateReadData p hs
    · have heffects : Effects (· ≠ .data) s (exec codes h s p).1 :=
        effects_exec nofun codes h s p nofun (fun h => h.elim (absurd · hdata) (absurd · hread))
          (fun _ _ => ⟨nofun, nofun⟩) fun _ _ => nofun
      have hnext : (exec codes h s p).2.next ≠ some .stateReadData := by
        by_cases hhead : h = .stateHead
        · subst hhead
          intro hnext
          rcases (s.forward_stateHead p).next _ hnext with hmem | heq
          · exact absurd hmem (by decide)
          · cases heq
        · exact fun hnext => (otherThanData_exec codes s p ⟨hdata, hread⟩ hhead _ hnext).2 rfl
      intro c
      have hc := hs c
      rw [owed_of_ne fun heq => hread (Option.some.inj heq)] at hc
      rw [owed_of_ne hnext]
      exact pressure_effects (fun h => h rfl) heffects c hc

/-- The pressure on the streams depends on the handler to come. -/
theorem indexed_pressed (codes : HuffDecodeCodes) :
    Indexed codes (fun _ _ _ => True) Pressed where
  pinged _ h := h
  store _ _ h := h
  between _ _ heffects hstate h c := by
    have hc := h c
    unfold owed at hc ⊢
    rw [hstate]
    exact pressure_effects (fun h => h.elim nofun nofun) heffects c hc
  exec _ _ _ h _ := pressed_exec codes _ _ _ h

/-! ## Runs -/

/-- The parser of a new connection holds no stream. -/
theorem Starts.stream_eq_none {s : KHttp2} (h : Starts s) : s.state.stream = none := by
  obtain ⟨handler, -, hstate⟩ := h.state
  rw [hstate]
  rfl

/-- No stream of a new connection is under pressure. -/
theorem Starts.pressed {s : KHttp2} (h : Starts s) : Rest Pressed s := by
  refine Or.inr (Or.inl fun c => ?_)
  have howed : s.owed (some s.state.handler) c = 0 := by
    refine if_neg fun hread => ?_
    rw [h.stream_eq_none] at hread
    cases hread.2
  have hpart : (s.ctx c).part = .init none false := congrArg Seen.part (h.seen c)
  rw [howed, hpart]
  exact ⟨Nat.le_refl _, Nat.zero_le _, by decide +kernel, fun e he => by cases he⟩

/-- The bytes of the DATA frame at hand that are still to come for a stream. -/
def coming (s : KHttp2) (c : CtxId) : ℕ := s.owed (some s.state.handler) c

/-- What the streams hold and what their peer may send stays below `limit`, and a reader that
waits for a stream that is open has found it empty, with a quarter of the window left to the peer;
`charged` counts the bytes of a frame that has used the window before they came. -/
def BackPressure (limit : ℕ) (charged : CtxId → ℕ) (s : KHttp2) : Prop :=
  s.deleted = false → ∀ c,
    strLen (s.ctx c).readBuffer + (s.ctx c).recvWindow ≤ limit ∧
      ∀ e ∈ (s.ctx c).readWait, e.header = false → (s.ctx c).inClosed = false →
        strLen (s.ctx c).readBuffer = 0 ∧
          streamRecvWindow / 4 ≤ (s.ctx c).recvWindow + charged c

/-- The most that a stream holds and may be sent: two windows, and the part of a third that does
not yet bring an update. -/
def pressureLimit : ℕ := 2 * streamRecvWindow + streamRecvWindow / 4 - 1

/-- **Receive back-pressure is bounded and does not stall.** In every state of every run, what a
stream holds and what its peer may send is at most `pressureLimit`; and where a reader waits, the
buffer is empty and a quarter of the window is left to the peer or in the frame that is coming. -/
theorem backPressure_run (codes : HuffDecodeCodes) {s : KHttp2} (hs : Starts s)
    (es : List Event) :
    BackPressure pressureLimit (run codes s es).coming (run codes s es) := by
  obtain ⟨hsound, hhalted⟩ := sound_of_starts hs
  have hcalls : Along codes (fun s e => ∀ call ∈ stepCalls codes s e, True) s es :=
    Along.of_forall (fun _ _ _ _ => trivial) s es
  have hrest := rest_run (indexed_pressed codes) es hsound hhalted hs.pressed hcalls
  generalize run codes s es = t at hrest
  intro hlive c
  have hpressure : ∃ owed ≤ t.coming c, Pressure owed (t.ctx c).part := by
    rcases hrest with hdel | hrun | ⟨hstop, -⟩
    · rw [hlive] at hdel
      cases hdel
    · exact ⟨_, Nat.le_refl _, hrun c⟩
    · exact ⟨_, Nat.zero_le _, hstop c⟩
  obtain ⟨owed, hle, h⟩ := hpressure
  constructor
  · have htotal : strLen (t.ctx c).readBuffer + (t.ctx c).recvWindow + owed <
        2 * streamRecvWindow + streamRecvWindow / 4 := h.total
    unfold pressureLimit
    omega
  · intro e he hheader hopen
    obtain ⟨hempty, hwindow⟩ := h.reader e he hheader hopen
    exact ⟨hempty, hwindow.trans (Nat.add_le_add_left hle _)⟩

/-- A request without its body, whose handler waits for a byte of it. -/
def readerWaits : List Event :=
  [.read (clientPreface ++ [0, 0, 1, 1, 4, 0, 0, 0, 1, 0x82]), .call 0 (.read 1)]

/-- The result at a reader that waits. -/
theorem backPressure_readerWaits :
    BackPressure pressureLimit
      (run (fun _ _ => ⟨0, 0, 0, 0⟩) (server 0 0 fun _ => .zero) readerWaits).coming
      (run (fun _ _ => ⟨0, 0, 0, 0⟩) (server 0 0 fun _ => .zero) readerWaits) :=
  backPressure_run _ (.server 0 0 fun _ => .zero) readerWaits

/-! ## Where the window is charged before the bytes come -/

theorem logData_eq (s : KHttp2) (c : CtxId) (bytes : Bytes) :
    ∃ trace, s.logData c bytes = { s with trace := trace } := by
  unfold logData
  split
  · split
    · exact ⟨_, rfl⟩
    · exact ⟨_, rfl⟩
  · exact ⟨_, rfl⟩

/-- Bytes inside of a DATA frame are appended where nobody waits for them. -/
theorem stateReadData_appends {s : KHttp2} {c : CtxId} {p : Bytes}
    (hstream : s.state.stream = some c) (hunread : (s.ctx c).readWait = none) (hne : p ≠ [])
    (hsmall : p.length < 2 ^ 16) (hshort : p.length < s.state.length) :
    ∃ trace, s.stateReadData p =
      ({ s.modify c fun ctx => { ctx with readBuffer := some (ctx.readBuffer.getD [] ++ p) } with
          trace := trace
          state := { s.state with length := s.state.length - p.length } },
        .save .stateReadData []) := by
  let s1 := s.modify c fun ctx => { ctx with readBuffer := some (ctx.readBuffer.getD [] ++ p) }
  obtain ⟨trace, htrace⟩ := s1.logData_eq c p
  refine ⟨trace, ?_⟩
  have hsize : min p.length s.state.length = p.length := Nat.min_eq_left (Nat.le_of_lt hshort)
  have hpos : p.length ≠ 0 := fun h => hne (List.eq_nil_of_length_eq_zero h)
  have hmore : s.state.length - p.length ≠ 0 := by omega
  have hwake : ({ s1 with trace := trace } : KHttp2).wakeReader c false =
      { s1 with trace := trace } := by
    have hnone : (s1.ctx c).readWait = none := by
      simp only [s1, modify, Function.update_self]
      exact hunread
    simp only [wakeReader, hnone]
  unfold stateReadData
  rw [hstream]
  simp only [hsize, if_neg hpos, Nat.mod_eq_of_lt hsmall, List.take_length, List.drop_length]
  rw [htrace, hwake]
  simp only [setState, s1, modify, ne_eq, hmore, not_false_eq_true, if_true]
  rfl

/-- The parser is inside a DATA frame of a stream with a full window that nobody reads. -/
structure Filling (c : CtxId) (held left : ℕ) (s : KHttp2) : Prop where
  live : s.deleted = false
  reading : s.readProcessing = true
  busy : s.processing ≠ 0
  handler : s.state.handler = .stateReadData
  buffer : s.state.buffer = []
  stream : s.state.stream = some c
  length : s.state.length = left
  unread : (s.ctx c).readWait = none
  window : (s.ctx c).recvWindow = streamRecvWindow
  held : strLen (s.ctx c).readBuffer = held

/-- A read inside the frame goes to the buffer of the stream. -/
theorem Filling.read (codes : HuffDecodeCodes) {c : CtxId} {held left : ℕ} {s : KHttp2}
    (h : Filling c held left s) {chunk : Bytes} (hne : chunk ≠ [])
    (hroom : chunk.length ≤ readBufferSize) (hshort : chunk.length < left) :
    Filling c (held + chunk.length) (left - chunk.length) (step codes s (.read chunk)) := by
  have henabled : s.enabled (.read chunk) = true := by
    simp [enabled, h.live, h.reading, hne, h.buffer, hroom]
  have hmax : readBufferSize < 2 ^ 16 := by decide
  let s0 : KHttp2 := { s with pinged := false }.setState fun st => { st with buffer := [] }
  obtain ⟨trace, hout⟩ := stateReadData_appends (s := s0) (c := c) h.stream h.unread hne
    (by omega) (h.length.symm ▸ hshort)
  have hrun : Resumable.run (exec codes) (measure s.state.handler (s.state.buffer ++ chunk) + 1)
      s.state.handler s0 (s.state.buffer ++ chunk) =
        ((s0.stateReadData chunk).1, some (.stateReadData, [])) := by
    have hexec : exec codes .stateReadData s0 chunk = s0.stateReadData chunk := rfl
    rw [h.handler, h.buffer, List.nil_append, Resumable.run, hexec, hout]
  have hread := receive_some (s := { s with pinged := false }) hrun
  have hstep : step codes s (.read chunk) =
      ((s0.stateReadData chunk).1.setState fun st =>
        { st with handler := .stateReadData, buffer := [] }).startRead := by
    rw [step, if_pos henabled]
    show onReadResult codes s chunk = _
    unfold onReadResult
    rw [hread]
  have hidle : ∀ t : KHttp2, t.processing = s.processing → t.startRead = t := by
    intro t ht
    simp [startRead, ht, h.busy]
  have hself := Function.update_self c
    { s.ctx c with readBuffer := some ((s.ctx c).readBuffer.getD [] ++ chunk) } s.ctx
  rw [hstep, hout, hidle]
  swap
  · rfl
  refine ⟨h.live, h.reading, h.busy, rfl, rfl, h.stream, ?_, ?_, ?_, ?_⟩
  · exact congrArg (· - chunk.length) h.length
  · exact (congrArg KHttp2Context.readWait hself).trans h.unread
  · exact (congrArg KHttp2Context.recvWindow hself).trans h.window
  · refine (congrArg (fun ctx => strLen ctx.readBuffer) hself).trans ?_
    show ((s.ctx c).readBuffer.getD [] ++ chunk).length = _
    rw [List.length_append, ← h.held]
    rfl

/-- Reads inside the frame, one after the other. -/
theorem Filling.reads (codes : HuffDecodeCodes) {c : CtxId} {chunk : Bytes} (hne : chunk ≠ [])
    (hroom : chunk.length ≤ readBufferSize) (n : ℕ) {held left : ℕ} {s : KHttp2}
    (h : Filling c held left s) (hshort : n * chunk.length < left) :
    Filling c (held + n * chunk.length) (left - n * chunk.length)
      (run codes s (List.replicate n (.read chunk))) := by
  induction n generalizing held left s with
  | zero => simpa [run] using h
  | succ n ih =>
    rw [Nat.add_mul, Nat.one_mul] at hshort ⊢
    have hnext := ih (h.read codes hne hroom (by omega)) (by omega)
    have hheld : held + (n * chunk.length + chunk.length) =
        held + chunk.length + n * chunk.length := by omega
    have hleft : left - (n * chunk.length + chunk.length) =
        left - chunk.length - n * chunk.length := by omega
    rw [hheld, hleft]
    exact hnext

/-- The header of a DATA frame that uses the whole window of stream 1. -/
def wholeWindowHead : Bytes := [3, 0xff, 0xff, 0, 0, 0, 0, 0, 1]

/-- A read that fills the buffer of the connection. -/
def fullRead : Bytes := List.replicate readBufferSize 0

theorem length_fullRead : fullRead.length = 8192 := List.length_replicate

/-- The handler reads two bytes of such a frame, one by one, and does not read while the next
73728 come. -/
def refilledWithinFrame : List Event :=
  (readerWaits ++ [.read (wholeWindowHead ++ [0]), .call 0 (.read 1), .read [0]]) ++
    List.replicate 9 (.read fullRead)

/-- Neither part holds without the bytes of the frame that is coming: a reader waits with no window
left to the peer, and a stream holds more than a quarter of a window beside a whole one. -/
theorem frameAtHand_not_backPressure :
    ¬BackPressure (streamRecvWindow + streamRecvWindow / 4) (fun _ => 0)
        (run (fun _ _ => ⟨0, 0, 0, 0⟩) (server 0 0 fun _ => .zero)
          (readerWaits ++ [.read wholeWindowHead])) ∧
      ¬BackPressure (streamRecvWindow + streamRecvWindow / 4) (fun _ => 0)
        (run (fun _ _ => ⟨0, 0, 0, 0⟩) (server 0 0 fun _ => .zero) refilledWithinFrame) := by
  constructor
  · intro h
    have hwait := (h (by decide +kernel) 0).2 ⟨true, false, 1⟩ (by decide +kernel) rfl
      (by decide +kernel)
    exact absurd hwait.2 (by decide +kernel)
  · intro h
    have hstart : Filling 0 0 262141 (run (fun _ _ => ⟨0, 0, 0, 0⟩) (server 0 0 fun _ => .zero)
        (readerWaits ++ [.read (wholeWindowHead ++ [0]), .call 0 (.read 1), .read [0]])) := by
      constructor <;> decide +kernel
    have hne : fullRead ≠ [] := fun heq => by
      have hlength := length_fullRead
      rw [heq] at hlength
      cases hlength
    have hfull := hstart.reads (fun _ _ => ⟨0, 0, 0, 0⟩) hne length_fullRead.le 9
      (by rw [length_fullRead]; decide)
    rw [length_fullRead] at hfull
    rw [refilledWithinFrame, run, List.foldl_append] at h
    have hbound := (h hfull.live 0).1
    rw [← run, ← run, hfull.held, hfull.window] at hbound
    exact absurd hbound (by decide)

end KHttp2

end Khttpd
