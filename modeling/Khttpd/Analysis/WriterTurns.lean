import Khttpd.Analysis.Accounts
import Khttpd.Analysis.BodyDelivery

/-!
# Writers take their turns

A fiber that calls `write` or `sendfile` waits; one DATA frame is queued for it; it is resumed with
the number of bytes in the frame, or with an error. `WriterTurn` is where a stream is in this order,
made from the events of the stream alone. It agrees with `write_wait`, so that no writer is resumed
twice, none is forgotten, and no body byte is queued unless a writer waits.
-/

set_option autoImplicit false

namespace Khttpd

/-- A fiber starts to wait in a write. -/
def Ev.waitsWriter : Ev → Bool
  | .waitWrite _ => true
  | _ => false

/-- A fiber that waits in a write is resumed. -/
def Ev.wakesWriter : Ev → Bool
  | .wakeWrite _ _ => true
  | _ => false

/-- Where a stream is between two writes. -/
inductive WriterTurn
  | idle
  /-- A fiber waits, and no byte is queued for it. -/
  | waiting
  /-- A DATA frame with `n` bytes is queued for the fiber that waits. -/
  | sent (n : ℕ)
  deriving DecidableEq, Repr

namespace WriterTurn

/-- The turn after an event of the stream; there is none when the event is out of turn. -/
def after (turn : WriterTurn) : Ev → Option WriterTurn
  | .waitWrite _ => if turn = .idle then some .waiting else none
  | .queued frame =>
    if frame.type = dataFrame ∧ 0 < frame.length then
      if turn = .waiting then some (.sent frame.length) else none
    else some turn
  | .wakeWrite _ got =>
    match turn with
    | .idle => none
    | .waiting => if got = -1 ∨ got = 0 then some .idle else none
    | .sent n => if got = -1 ∨ got = n then some .idle else none
  | _ => some turn

/-- The turn after the events of a stream. -/
def of : List Ev → Option WriterTurn
  | [] => some .idle
  | e :: events => (of events).bind fun turn => turn.after e

/-- The turn that `write_wait` stands for. -/
def ofWait (wait : Option WriteEvent) : WriterTurn :=
  match wait with
  | none => .idle
  | some e => if e.forHup then .idle else if e.len ≤ 0 then .waiting else .sent e.len.toNat

theorem ofWait_forWindow {e : WriteEvent} (h : e.forWindow = true) :
    ofWait (some e) = .waiting := by
  simp only [WriteEvent.forWindow, Bool.and_eq_true, decide_eq_true_eq] at h
  simp [ofWait, WriteEvent.forHup, ← Option.not_isSome, h.2, Int.le_of_lt h.1]

theorem ofWait_forWriting {e : WriteEvent} (h : e.forWriting = true) :
    ofWait (some e) = if e.len ≤ 0 then .waiting else .sent e.len.toNat := by
  simp only [WriteEvent.forWriting, Bool.and_eq_true, decide_eq_true_eq] at h
  simp [ofWait, WriteEvent.forHup, ← Option.not_isSome, h.2]

theorem ofWait_eq_idle (wait : Option WriteEvent) :
    ofWait wait = .idle ↔ (wait.any fun e => e.buf.isSome) = false := by
  cases wait with
  | none => simp [ofWait]
  | some e =>
    cases hbuf : e.buf with
    | none => simp [ofWait, WriteEvent.forHup, hbuf]
    | some buf => by_cases hlen : e.len ≤ 0 <;> simp [ofWait, WriteEvent.forHup, hbuf, hlen]

/-- Every wait was ended once, but for the one that lasts. -/
theorem resumed {events : List Ev} {turn : WriterTurn} (h : of events = some turn) :
    events.countP Ev.waitsWriter =
      events.countP Ev.wakesWriter + if turn = .idle then 0 else 1 := by
  induction events generalizing turn with
  | nil =>
    cases h
    rfl
  | cons e events ih =>
    obtain ⟨old, hold, hafter⟩ := Option.bind_eq_some_iff.mp h
    have hcount := ih hold
    rw [List.countP_cons, List.countP_cons, hcount]
    cases e with
    | waitWrite c =>
      simp only [after] at hafter
      split at hafter <;> cases hafter
      rename_i hidle
      simp [hidle, Ev.waitsWriter, Ev.wakesWriter]
    | wakeWrite c got =>
      cases old with
      | idle => cases hafter
      | waiting =>
        simp only [after] at hafter
        split at hafter <;> cases hafter
        simp [Ev.waitsWriter, Ev.wakesWriter]
      | sent n =>
        simp only [after] at hafter
        split at hafter <;> cases hafter
        simp [Ev.waitsWriter, Ev.wakesWriter]
    | queued frame =>
      simp only [after] at hafter
      split at hafter
      · split at hafter <;> cases hafter
        rename_i hwaiting
        simp [hwaiting, Ev.waitsWriter, Ev.wakesWriter]
      · cases hafter
        rfl
    | _ =>
      cases hafter
      rfl

/-- The event has no part in it. -/
def Aside (e : Ev) : Prop := ∀ turn : WriterTurn, turn.after e = some turn

theorem of_aside {e : Ev} (h : Aside e) (events : List Ev) : of (e :: events) = of events := by
  rw [of]
  cases hturn : of events with
  | none => rfl
  | some turn => exact h turn

theorem aside_frame {frame : QueuedFrame} (h : frame.type = dataFrame → frame.length = 0) :
    Aside (.queued frame) := fun _ =>
  if_neg fun hdata : frame.type = dataFrame ∧ 0 < frame.length => by
    have hzero := h hdata.1
    omega

/-- The events that do not belong to readers and writers have no part in it. -/
theorem of_filter (events : List Ev) : of (events.filter Ev.isBody) = of events := by
  induction events with
  | nil => rfl
  | cons e events ih =>
    rw [List.filter_cons]
    cases hbody : e.isBody with
    | true => rw [if_pos rfl, of, of, ih]
    | false =>
      have haside : Aside e := by
        intro turn
        cases e <;> first | rfl | cases hbody
      rw [of_aside haside, ← ih]
      rfl

end WriterTurn

open WriterTurn

namespace Seen

/-- The events of a stream agree with its `write_wait`, and the writer that is being served is
resumed by exactly one buffer. -/
structure InTurn (v : Seen) : Prop where
  turn : WriterTurn.of v.events = some (ofWait v.part.writeWait)
  buffs : v.buffs = if v.part.writeWait.any WriteEvent.forWriting then 1 else 0

/-- What a change may do to a writer. A stream that is made anew while a writer waits on it loses
its node, or gets one. -/
structure Turns (c : CtxId) (v w : Seen) : Prop where
  opened : openings c v.events ≤ openings c w.events
  unlinked : v.part.node = none →
    w.part.node = none ∨ openings c v.events < openings c w.events
  waits : w.part.writeSuspended = true → v.part.writeSuspended = true
  turn : v.InTurn → w.InTurn ∨ v.part.writeSuspended = true ∧
    (w.part.node = none ∨ openings c v.events < openings c w.events)

theorem Turns.refl (c : CtxId) (v : Seen) : Turns c v v :=
  ⟨Nat.le_refl _, Or.inl, id, Or.inl⟩

theorem Turns.trans {c : CtxId} {u v w : Seen} (huv : Turns c u v) (hvw : Turns c v w) :
    Turns c u w := by
  have h1 := huv.opened
  have h2 := hvw.opened
  have hafter : v.part.node = none ∨ openings c u.events < openings c v.events →
      w.part.node = none ∨ openings c u.events < openings c w.events := by
    rintro (hnone | hlt)
    · exact (hvw.unlinked hnone).imp_right fun h => by omega
    · exact Or.inr (by omega)
  refine ⟨h1.trans h2, fun h => hafter (huv.unlinked h), fun h => huv.waits (hvw.waits h),
    fun h => ?_⟩
  rcases huv.turn h with hv | ⟨hwaits, hlost⟩
  · refine (hvw.turn hv).imp_right fun ⟨hwaits, hlost⟩ => ⟨huv.waits hwaits, ?_⟩
    exact hlost.imp_right fun h => by omega
  · exact Or.inr ⟨hwaits, hafter hlost⟩

/-- A change that writers have no part in. -/
theorem Turns.aside {c : CtxId} {v w : Seen}
    (hevents : WriterTurn.of w.events = WriterTurn.of v.events)
    (hopened : openings c v.events ≤ openings c w.events)
    (hnode : v.part.node = none → w.part.node = none ∨ openings c v.events < openings c w.events)
    (hwait : w.part.writeWait = v.part.writeWait) (hbuffs : w.buffs = v.buffs) :
    Turns c v w := by
  refine ⟨hopened, hnode, ?_, fun h => Or.inl ⟨?_, ?_⟩⟩
  · rw [Part.writeSuspended, hwait]
    exact id
  · rw [hevents, hwait]
    exact h.turn
  · rw [hbuffs, hwait]
    exact h.buffs

/-- Events that writers have no part in and that open no stream. -/
structure Rests (c : CtxId) (old new : List Ev) : Prop where
  turn : WriterTurn.of new = WriterTurn.of old
  opened : openings c new = openings c old

theorem Rests.refl (c : CtxId) (events : List Ev) : Rests c events events := ⟨rfl, rfl⟩

theorem Rests.cons {c : CtxId} {old new : List Ev} (h : Rests c old new) {e : Ev}
    (haside : Aside e) (hopens : e.opens c = false) : Rests c old (e :: new) :=
  ⟨(of_aside haside new).trans h.turn, (openings_cons hopens new).trans h.opened⟩

theorem Rests.onRead {c : CtxId} {old : List Ev} {v : Seen} (h : Rests c old v.events)
    (e : Option ReadEvent) (got : ℤ) : Rests c old (v.onRead c e got).events := by
  unfold Seen.onRead
  split
  · exact h.cons (fun _ => rfl) rfl
  · exact h

theorem Rests.logData {c : CtxId} {old : List Ev} {v : Seen} (h : Rests c old v.events)
    (bytes : Bytes) (merge : Bool) : Rests c old (v.logData c bytes merge).events := by
  refine ⟨?_, (openings_logData v bytes merge).trans h.opened⟩
  have hdata : ∀ (bytes : Bytes) (events : List Ev),
      WriterTurn.of (.data c bytes :: events) = WriterTurn.of events :=
    fun _ events => of_aside (fun _ => rfl) events
  rw [← h.turn]
  unfold Seen.logData
  split
  · rename_i c' old events _ hevents
    rw [hevents]
    split
    · rename_i hc
      subst hc
      rw [hdata, hdata]
    · rw [log, hdata, hevents]
  · exact hdata _ _

theorem Rests.keepData (c : CtxId) (v : Seen) (taken : Bytes) (merge : Bool) :
    Rests c v.events ((v.set fun part => { part with
      readBuffer := some (part.readBuffer.getD [] ++ taken.take (taken.length % 2 ^ 16)) }).logData
        c taken merge).events :=
  Rests.logData (v := v.set _) (.refl c v.events) taken merge

theorem Rests.wakeReader {c : CtxId} {old : List Ev} {v : Seen} (h : Rests c old v.events)
    (fin : Bool) : Rests c old (v.wakeReader c fin).events := by
  unfold Seen.wakeReader
  split
  · exact h
  · cases fin with
    | true => exact Rests.onRead (v := v.set _) h _ _
    | false => exact Rests.onRead (h.cons (fun _ => rfl) rfl) _ _

theorem buffs_onRead (v : Seen) (c : CtxId) (e : Option ReadEvent) (got : ℤ) :
    (v.onRead c e got).buffs = v.buffs := by
  unfold Seen.onRead
  split <;> rfl

theorem buffs_logData (v : Seen) (c : CtxId) (bytes : Bytes) (merge : Bool) :
    (v.logData c bytes merge).buffs = v.buffs := by
  unfold Seen.logData
  split
  · split <;> rfl
  · rfl

/-- A change that only adds such events. -/
theorem Turns.rests {c : CtxId} {v w : Seen} (hevents : Rests c v.events w.events)
    (hnode : v.part.node = none → w.part.node = none)
    (hwait : w.part.writeWait = v.part.writeWait) (hbuffs : w.buffs = v.buffs) :
    Turns c v w :=
  .aside hevents.turn hevents.opened.ge (fun h => Or.inl (hnode h)) hwait hbuffs

/-- Where nobody waits, nothing is queued for a writer. -/
theorem InTurn.idle {v : Seen} (h : v.InTurn) (hidle : v.part.writeSuspended = false) :
    WriterTurn.of v.events = some .idle ∧ v.buffs = 0 := by
  obtain ⟨hturn, hbuffs⟩ := h
  cases hwait : v.part.writeWait with
  | none =>
    rw [hwait] at hturn hbuffs
    exact ⟨hturn, hbuffs⟩
  | some e =>
    rw [Part.writeSuspended, hwait, Option.any_some] at hidle
    have hhup : e.forHup = true := by
      rw [WriteEvent.forHup, ← Option.not_isSome, hidle, Bool.not_false]
    rw [hwait, ofWait, if_pos hhup] at hturn
    rw [hwait, Option.any_some, WriteEvent.forWriting, hidle, Bool.and_false] at hbuffs
    exact ⟨hturn, hbuffs⟩

/-- A change after which nobody waits to write, of a stream on which nobody did. -/
theorem Turns.idle {c : CtxId} {v w : Seen} (hevents : Rests c v.events w.events)
    (hnode : v.part.node = none → w.part.node = none)
    (hold : v.part.writeSuspended = false) (hnew : w.part.writeSuspended = false)
    (hbuffs : w.buffs = v.buffs) : Turns c v w := by
  refine ⟨hevents.opened.ge, fun h => Or.inl (hnode h), fun h => ?_, fun h => Or.inl ?_⟩
  · exact absurd (hnew.symm.trans h) Bool.false_ne_true
  · obtain ⟨hturn, hnone⟩ := h.idle hold
    have hwait : ofWait w.part.writeWait = .idle ∧
        w.part.writeWait.any WriteEvent.forWriting = false := by
      cases hwait : w.part.writeWait with
      | none => exact ⟨rfl, rfl⟩
      | some e =>
        rw [Part.writeSuspended, hwait, Option.any_some] at hnew
        have hhup : e.forHup = true := by
          rw [WriteEvent.forHup, ← Option.not_isSome, hnew, Bool.not_false]
        exact ⟨if_pos hhup, by rw [Option.any_some, WriteEvent.forWriting, hnew, Bool.and_false]⟩
    exact ⟨by rw [hevents.turn, hturn, hwait.1], by rw [hbuffs, hnone, hwait.2]; rfl⟩

end Seen

namespace KHttp2

open Seen

variable {kinds : Kind → Prop}

/-- A DATA frame is queued for a writer that waits. -/
theorem turns_send {c : CtxId} {v : Seen} {e : WriteEvent} {total : ℕ} (fin : Bool)
    {frame : QueuedFrame} (hwait : v.part.writeWait = some e) (hwindow : e.forWindow = true)
    (htype : frame.type = dataFrame) (hlength : frame.length = total) :
    Turns c v { (v.set fun part => { part with
      writeWait := some { e with len := total }
      outClosed := part.outClosed || fin }).log (.queued frame) with buffs := v.buffs + 1 } := by
  have hneg : e.len < 0 ∧ e.buf.isSome = true := by
    simpa only [WriteEvent.forWindow, Bool.and_eq_true, decide_eq_true_eq] using hwindow
  have hwriting : ({ e with len := total } : WriteEvent).forWriting = true := by
    simp [WriteEvent.forWriting, hneg.2]
  have hopens : openings c (.queued frame :: v.events) = openings c v.events := openings_cons rfl _
  refine ⟨hopens.ge, Or.inl, fun _ => ?_, fun h => Or.inl ⟨?_, ?_⟩⟩
  · rw [Part.writeSuspended, hwait]
    exact hneg.2
  · have hturn := h.turn
    rw [hwait, ofWait_forWindow hwindow] at hturn
    change (WriterTurn.of v.events).bind (fun turn => turn.after (.queued frame)) =
      some (ofWait (some { e with len := total }))
    rw [hturn, Option.bind_some, ofWait_forWriting hwriting]
    simp only [after, htype, hlength, true_and, if_true]
    by_cases hzero : total = 0
    · simp [hzero]
    · rw [if_pos (Nat.pos_of_ne_zero hzero), if_neg (by omega), Int.toNat_natCast]
  · have hbuffs := h.buffs
    have hnot : e.forWriting = false := by
      rw [WriteEvent.forWriting, decide_eq_false (by omega), Bool.false_and]
    rw [hwait, Option.any_some, hnot] at hbuffs
    change v.buffs + 1 = if (some { e with len := total }).any WriteEvent.forWriting then 1 else 0
    rw [Option.any_some, hwriting, hbuffs]
    rfl

/-- The buffer of a writer is gone, and the writer is resumed. -/
theorem turns_clean {c : CtxId} {v : Seen} (fin : Bool) (hbuffs : 0 < v.buffs) :
    Turns c v (v.clean c fin) := by
  have hpart : (v.clean c fin).part = { v.part with writeWait := none } := by
    simp only [Seen.clean, part_onWrite, part_set]
  refine ⟨?_, fun h => Or.inl (by rw [hpart]; exact h), fun h => ?_, fun h => Or.inl ?_⟩
  · have hset : Grows c v.events ({ v with buffs := v.buffs - 1 }.set fun part =>
        { part with writeWait := none }).events := .refl c _
    exact (hset.onWrite _ _).opened.ge
  · rw [hpart] at h
    cases h
  · -- a buffer is queued only for a writer that is being served
    obtain ⟨hturn, hone⟩ := h
    obtain ⟨e, hwait, hwriting⟩ : ∃ e, v.part.writeWait = some e ∧ e.forWriting = true := by
      refine Option.any_eq_true .. |>.mp ?_
      by_contra hnot
      rw [if_neg hnot] at hone
      exact absurd hone (Nat.ne_of_gt hbuffs)
    rw [hwait, Option.any_some, hwriting, if_pos rfl] at hone
    rw [hwait, ofWait_forWriting hwriting] at hturn
    simp only [WriteEvent.forWriting, Bool.and_eq_true, decide_eq_true_eq] at hwriting
    have hhup : e.forHup = false := by
      rw [WriteEvent.forHup, ← Option.not_isSome, hwriting.2, Bool.not_true]
    have hclean : v.clean c fin = ({ v with buffs := 0 }.set fun part =>
        { part with writeWait := none }).log (.wakeWrite c (if fin then -1 else e.len)) := by
      simp only [Seen.clean, hwait, Seen.onWrite, hhup, hone, Bool.false_eq_true, if_false]
      rfl
    rw [hclean]
    refine ⟨?_, rfl⟩
    change (WriterTurn.of v.events).bind
      (fun turn => turn.after (.wakeWrite c (if fin then -1 else e.len))) = some .idle
    rw [hturn, Option.bind_some]
    by_cases hzero : e.len ≤ 0
    · have hlen : e.len = 0 := le_antisymm hzero hwriting.1
      cases fin <;> simp [after, hlen]
    · have hlen : ((e.len.toNat : ℕ) : ℤ) = e.len := Int.toNat_of_nonneg hwriting.1
      cases fin <;> simp [after, hzero, hlen]

/-- A stream is reset: a writer that waits is resumed, one that is being served goes on. -/
theorem turns_reset {c : CtxId} {v : Seen} (rst : Option QueuedFrame) (clear : Bool)
    (hrst : ∀ frame ∈ rst, frame.type = rstStreamFrame) : Turns c v (v.reset c rst clear) := by
  obtain ⟨u, heq, hevents, hnode, hwait, hbuffs⟩ : ∃ u : Seen,
      v.reset c rst clear =
        u.onWrite c (v.part.writeWait.filter fun e => !e.forWriting) (-1) ∧
      Rests c v.events u.events ∧ u.part.node = v.part.node ∧
      u.part.writeWait = v.part.writeWait.filter WriteEvent.forWriting ∧ u.buffs = v.buffs := by
    refine ⟨_, rfl, Rests.onRead ?_ _ _, ?_, ?_, ?_⟩
    · have hreset : Rests c v.events (.reset c :: v.events) :=
        (Rests.refl c _).cons (fun _ => rfl) rfl
      cases rst with
      | none => cases clear <;> exact hreset
      | some frame =>
        have haside : Aside (.queued frame) := aside_frame fun h => by
          have hframe := (hrst frame rfl).symm.trans h
          cases hframe
        cases clear <;> exact hreset.cons haside rfl
    · rw [part_onRead]
      cases rst <;> cases clear <;> rfl
    · rw [part_onRead]
      cases rst <;> cases clear <;> rfl
    · rw [buffs_onRead]
      cases rst <;> cases clear <;> rfl
  rw [heq]
  cases hsome : v.part.writeWait with
  | none =>
    rw [hsome] at hwait
    exact .rests hevents (fun h => hnode.trans h) (hwait.trans hsome.symm) hbuffs
  | some e =>
    rw [hsome] at hwait
    cases hwriting : e.forWriting with
    | true =>
      rw [Option.filter_some, hwriting, if_pos rfl] at hwait
      have hnobody : (some e).filter (fun e : WriteEvent => !e.forWriting) = none := by
        simp [hwriting]
      rw [hnobody]
      exact .rests hevents (fun h => hnode.trans h) (hwait.trans hsome.symm) hbuffs
    | false =>
      rw [Option.filter_some, hwriting, if_neg Bool.false_ne_true] at hwait
      have hall : (some e).filter (fun e : WriteEvent => !e.forWriting) = some e := by
        simp [hwriting]
      rw [hall]
      cases hhup : e.forHup with
      | true =>
        have hsame : u.onWrite c (some e) (-1) = u := by
          simp only [Seen.onWrite, hhup, if_true]
        have hbuf : e.buf.isSome = false := by
          rw [← Option.not_isNone, ← WriteEvent.forHup, hhup, Bool.not_true]
        rw [hsame]
        refine .idle hevents (fun h => hnode.trans h) ?_ ?_ hbuffs
        · rw [Part.writeSuspended, hsome, Option.any_some, hbuf]
        · rw [Part.writeSuspended, hwait]
          rfl
      | false =>
        have hbuf : e.buf.isSome = true := by
          rw [← Option.not_isNone, ← WriteEvent.forHup, hhup, Bool.not_false]
        have hwindow : e.forWindow = true := by
          simp only [WriteEvent.forWriting, hbuf, Bool.and_true,
            decide_eq_false_iff_not] at hwriting
          simp only [WriteEvent.forWindow, hbuf, Bool.and_true, decide_eq_true_eq]
          omega
        have hlog : u.onWrite c (some e) (-1) = u.log (.wakeWrite c (-1)) := by
          simp only [Seen.onWrite, hhup, Bool.false_eq_true, if_false]
        have hopens : openings c (.wakeWrite c (-1) :: u.events) = openings c v.events :=
          (openings_cons rfl _).trans hevents.opened
        rw [hlog]
        refine ⟨hopens.ge, fun h => Or.inl (hnode.trans h), fun _ => ?_, fun h => Or.inl ⟨?_, ?_⟩⟩
        · rw [Part.writeSuspended, hsome, Option.any_some, hbuf]
        · have hturn := h.turn
          rw [hsome, ofWait_forWindow hwindow] at hturn
          change (WriterTurn.of u.events).bind (fun turn => turn.after (.wakeWrite c (-1))) =
            some (ofWait u.part.writeWait)
          rw [hevents.turn, hturn, hwait]
          rfl
        · have hone := h.buffs
          rw [hsome, Option.any_some, hwriting] at hone
          change u.buffs = if u.part.writeWait.any WriteEvent.forWriting then 1 else 0
          rw [hbuffs, hone, hwait]
          rfl

/-- A stream is made anew. -/
theorem turns_anew {c : CtxId} {v w : Seen}
    (hevents : WriterTurn.of w.events = WriterTurn.of v.events)
    (hopened : openings c v.events ≤ openings c w.events)
    (hnew : w.part.node = none ∨ openings c v.events < openings c w.events)
    (hwait : w.part.writeWait = none) (hbuffs : w.buffs = v.buffs) : Turns c v w := by
  refine ⟨hopened, fun _ => hnew, fun h => ?_, fun h => ?_⟩
  · rw [Part.writeSuspended, hwait] at h
    cases h
  · cases hsuspended : v.part.writeSuspended with
    | true => exact Or.inr ⟨rfl, hnew⟩
    | false =>
      obtain ⟨hturn, hnone⟩ := h.idle hsuspended
      refine Or.inl ⟨?_, ?_⟩
      · rw [hevents, hturn, hwait]
        rfl
      · rw [hbuffs, hnone, hwait]
        rfl

/-- A reader is resumed. -/
theorem turns_wakeReader (c : CtxId) (v : Seen) (fin : Bool) : Turns c v (v.wakeReader c fin) := by
  refine .rests (Rests.wakeReader (.refl c _) fin) (fun h => ?_) ?_ ?_
  · exact (open_wakeReader v fin).1.trans h
  · rw [part_wakeReader]
    cases v.part.readWait with
    | none => rfl
    | some e => rfl
  · unfold Seen.wakeReader
    split
    · rfl
    · cases fin <;> exact buffs_onRead ..

/-- Writers take their turns in every change but the start of a write. -/
theorem turns_change (hwrite : ¬kinds .write) (hdrop : ¬kinds .drop) {c : CtxId} {v w : Seen}
    (h : Change kinds c v w) : Turns c v w := by
  have hrests := Rests.refl c v.events
  cases h with
  | queued frame hdata hheaders =>
    exact .rests (hrests.cons (aside_frame fun h => absurd h hdata) rfl) id rfl rfl
  | link sid hnone =>
    have hopened : openings c (.openNode c sid :: v.events) = openings c v.events + 1 :=
      openings_open c sid v.events
    refine .aside (of_aside (fun _ => rfl) _) ?_ (fun _ => Or.inr ?_) rfl rfl
    · exact (Nat.le_succ _).trans hopened.ge
    · exact (Nat.lt_succ_self _).trans_eq hopened.symm
  | output frame hkind htype =>
    refine .rests (hrests.cons (aside_frame fun h => ?_) rfl) id rfl rfl
    rcases htype with htype | ⟨-, hlength⟩
    · have hframe := htype.symm.trans h
      cases hframe
    · exact hlength
  | closeOut fin _ => exact .rests hrests id rfl rfl
  | closeIn => exact .rests hrests id rfl rfl
  | hup w hold hnew =>
    refine .idle hrests id hold ?_ rfl
    cases w with
    | none => rfl
    | some e =>
      have hhup := hnew e rfl
      rw [WriteEvent.forHup, ← Option.not_isSome] at hhup
      have hbuf : e.buf.isSome = false := by simpa using hhup
      exact hbuf
  | suspend e hkind _ _ => exact absurd hkind hwrite
  | send e total fin frame hwait hwindow htype hlength =>
    exact turns_send fin hwait hwindow htype hlength
  | clean fin hbuffs => exact turns_clean fin hbuffs
  | reset rst clear hrst => exact turns_reset rst clear hrst
  | refill frame hopen hlow htype =>
    have haside : Aside (.queued frame) := aside_frame fun h => by
      have hframe := htype.symm.trans h
      cases hframe
    exact .rests ((hrests.cons (fun _ => rfl) rfl).cons haside rfl) id rfl rfl
  | copy len _ =>
    exact .rests ((hrests.cons (fun _ => rfl) rfl).cons (fun _ => rfl) rfl) id rfl rfl
  | returns got _ _ => exact .rests (hrests.cons (fun _ => rfl) rfl) id rfl rfl
  | readWait len _ _ _ _ => exact .rests hrests id rfl rfl
  | headerWait w _ => exact .rests hrests id rfl rfl
  | headerWake w _ _ =>
    have hset : Rests c v.events (v.set fun part => { part with readWait := w }).events := hrests
    refine .rests (hset.onRead _ _) (fun h => ?_) ?_ (buffs_onRead ..)
    · rw [part_onRead]
      exact h
    · rw [part_onRead]
      rfl
  | headersIn fin _ _ =>
    cases fin with
    | true => exact .rests (hrests.cons (fun _ => rfl) rfl) id rfl rfl
    | false => exact .rests hrests id rfl rfl
  | openStream sid fin =>
    have hopened : ∀ events : List Ev, openings c events = openings c v.events →
        openings c v.events < openings c (.openNode c sid :: events) := fun events h => by
      rw [openings_open, h]
      exact Nat.lt_succ_self _
    cases fin with
    | true =>
      have hend : openings c (.endStream c :: v.events) = openings c v.events := openings_cons rfl _
      have hlt := hopened _ hend
      exact turns_anew ((of_aside (fun _ => rfl) _).trans (of_aside (fun _ => rfl) _)) hlt.le
        (Or.inr hlt) rfl rfl
    | false =>
      have hlt := hopened _ rfl
      exact turns_anew (of_aside (fun _ => rfl) _) hlt.le (Or.inr hlt) rfl rfl
  | newStream => exact turns_anew rfl (Nat.le_refl _) (Or.inl rfl) rfl rfl
  | release rst hrst h =>
    have hidle : v.part.writeSuspended = false := h.resolve_right hdrop
    obtain ⟨hnode, hwait, hbuffs, hevents⟩ : (v.release c rst).part.node = none ∧
        (v.release c rst).part.writeWait = none ∧ (v.release c rst).buffs = v.buffs ∧
        Rests c v.events (v.release c rst).events := by
      have hreset : Rests c v.events (.reset c :: v.events) := hrests.cons (fun _ => rfl) rfl
      unfold Seen.release
      cases rst with
      | none =>
        simp only [Option.elim]
        split
        · exact ⟨rfl, rfl, rfl, hreset⟩
        · exact ⟨rfl, rfl, rfl, hrests⟩
      | some frame =>
        have haside : Aside (.queued frame) := aside_frame fun h => by
          have hframe := (hrst frame rfl).symm.trans h
          cases hframe
        simp only [Option.elim]
        split
        · exact ⟨rfl, rfl, rfl, hreset.cons haside rfl⟩
        · exact ⟨rfl, rfl, rfl, hrests.cons haside rfl⟩
    refine .idle hevents (fun _ => hnode) hidle ?_ hbuffs
    rw [Part.writeSuspended, hwait]
    rfl
  | chargeStream length _ _ => exact .rests hrests id rfl rfl
  | takeData taken merge _ =>
    refine Turns.trans ?_ (turns_wakeReader c _ false)
    refine .rests (Rests.keepData c v taken merge) (fun h => ?_) ?_ (buffs_logData ..)
    · rw [part_logData]
      exact h
    · rw [part_logData]
      rfl
  | takeEnd _ =>
    refine Turns.trans ?_ (turns_wakeReader c _ true)
    exact .rests (hrests.cons (fun _ => rfl) rfl) id rfl rfl

theorem turns_changes (hwrite : ¬kinds .write) (hdrop : ¬kinds .drop) {c : CtxId} {v w : Seen}
    (h : Changes kinds c v w) : Turns c v w := by
  induction h with
  | refl => exact .refl c v
  | tail _ h ih => exact ih.trans (turns_change hwrite hdrop h)

/-- No change takes back that a stream was opened. -/
theorem openings_change {c : CtxId} {v w : Seen} (h : Change kinds c v w) :
    openings c v.events ≤ openings c w.events := by
  have hrests := Rests.refl c v.events
  cases h with
  | link sid _ =>
    have hopened : openings c (.openNode c sid :: v.events) = openings c v.events + 1 :=
      openings_open c sid v.events
    exact (Nat.le_succ _).trans hopened.ge
  | clean fin hbuffs => exact (turns_clean fin hbuffs).opened
  | reset rst clear hrst => exact (turns_reset rst clear hrst).opened
  | headerWake w _ _ =>
    have hset : Rests c v.events (v.set fun part => { part with readWait := w }).events := hrests
    exact (hset.onRead _ _).opened.ge
  | headersIn fin _ _ => cases fin <;> exact Nat.le_of_eq rfl
  | openStream sid fin =>
    have hopened : ∀ events : List Ev, openings c events = openings c v.events →
        openings c v.events ≤ openings c (.openNode c sid :: events) := fun events h => by
      rw [openings_open, h]
      exact Nat.le_succ _
    cases fin <;> exact hopened _ rfl
  | release rst _ _ =>
    unfold Seen.release
    cases rst <;> simp only [Option.elim] <;> split <;> exact Nat.le_of_eq rfl
  | takeData taken merge _ =>
    exact ((Rests.keepData c v taken merge).wakeReader false).opened.ge
  | takeEnd _ =>
    have hset : Rests c v.events ((v.set fun part => { part with inClosed := true }).log
        (.endStream c)).events := hrests.cons (fun _ => rfl) rfl
    exact (hset.wakeReader true).opened.ge
  | _ => exact Nat.le_of_eq rfl

end KHttp2

/-! ## The streams that are held -/

/-- The streams that fibers hold, those in the pool, how many are counted, and whether the
connection was deleted. -/
structure Roll where
  owners : List CtxId
  pooled : List CtxId
  processing : ℤ
  clientModel : Bool
  nextCtx : ℕ
  deleted : Bool

namespace Roll

/-- A stream in the pool is held by no fiber, and belongs to a client. -/
structure Listed (r : Roll) : Prop where
  server : r.clientModel = false → r.pooled = []
  known : r.clientModel = true → ∀ c ∈ r.owners ++ r.pooled, c < r.nextCtx
  distinct : r.clientModel = true → (r.owners ++ r.pooled).Nodup

/-- How many streams are counted that nobody holds. -/
def slack (r : Roll) : ℤ := r.processing - r.owners.length - r.pooled.length

/-- A stream is handed back. -/
def drop (r : Roll) (c : CtxId) : Roll :=
  { r with owners := r.owners.erase c, processing := r.processing - 1 }

/-- What an effect does to the roll. -/
inductive Change (r : Roll) : Roll → Prop
  | same : Change r r
  | opened : Change r { r with nextCtx := r.nextCtx + 1 }
  | made (hclient : r.clientModel = true) : Change r { r with
      owners := r.nextCtx :: r.owners, processing := r.processing + 1, nextCtx := r.nextCtx + 1 }
  | started (c : CtxId) (hserver : r.clientModel = false) : Change r { r with
      owners := c :: r.owners, processing := r.processing + 1 }
  | released (c : CtxId) (h : c ∈ r.owners ∨ r.clientModel = false) : Change r (r.drop c)
  | kept (c : CtxId) (hclient : r.clientModel = true) (howner : c ∈ r.owners) : Change r { r with
      owners := r.owners.erase c, pooled := c :: r.pooled }
  | destroyed (c : CtxId) (h : c ∈ r.pooled) :
      Change r ({ r with pooled := r.pooled.erase c }.drop c)
  | ended (hprocessing : r.processing = 0) : Change r { r with deleted := true }
  | cutOff (c : CtxId) (hprocessing : r.processing = 0) (hserver : r.clientModel = false) :
      Change r { r.drop c with deleted := true }

variable {r r' : Roll}

theorem Listed.client (h : r.Listed) {c : CtxId} (hc : c ∈ r.pooled) : r.clientModel = true := by
  by_contra hserver
  rw [h.server (Bool.eq_false_iff.mpr hserver)] at hc
  cases hc

/-- A stream in the pool is held by no fiber. -/
theorem Listed.apart (h : r.Listed) {c : CtxId} (hc : c ∈ r.pooled) : c ∉ r.owners := fun howner =>
  List.disjoint_of_nodup_append (h.distinct (h.client hc)) howner hc

theorem Listed.drop (h : r.Listed) (c : CtxId) : (r.drop c).Listed := by
  have hsub : (r.owners.erase c ++ r.pooled).Sublist (r.owners ++ r.pooled) :=
    (List.erase_sublist ..).append_right _
  exact ⟨h.server, fun hc c' hc' => h.known hc c' (hsub.subset hc'),
    fun hc => (h.distinct hc).sublist hsub⟩

/-- The lists stay in order. -/
theorem Listed.change (h : r.Listed) (hr : Change r r') : r'.Listed := by
  cases hr with
  | same => exact h
  | opened => exact ⟨h.server, fun hc c hmem => Nat.lt_succ_of_lt (h.known hc c hmem), h.distinct⟩
  | made hclient =>
    refine ⟨fun hs => absurd (hs.symm.trans hclient) Bool.false_ne_true, fun _ c hc => ?_,
      fun _ => ?_⟩
    · rcases List.mem_cons.mp hc with rfl | hc
      · exact Nat.lt_succ_self _
      · exact Nat.lt_succ_of_lt (h.known hclient c hc)
    · exact List.nodup_cons.mpr
        ⟨fun hc => Nat.lt_irrefl _ (h.known hclient _ hc), h.distinct hclient⟩
  | started c hserver =>
    exact ⟨h.server, fun hc => absurd (hserver.symm.trans hc) Bool.false_ne_true,
      fun hc => absurd (hserver.symm.trans hc) Bool.false_ne_true⟩
  | released c _ => exact h.drop c
  | kept c hclient howner =>
    have hperm : (r.owners.erase c ++ c :: r.pooled).Perm (r.owners ++ r.pooled) :=
      List.perm_middle.trans ((List.perm_cons_erase howner).symm.append_right _)
    exact ⟨fun hs => absurd (hs.symm.trans hclient) Bool.false_ne_true,
      fun _ c' hc' => h.known hclient c' (hperm.mem_iff.mp hc'),
      fun _ => hperm.nodup_iff.mpr (h.distinct hclient)⟩
  | destroyed c hmem =>
    have hclient := h.client hmem
    have hsub : (r.owners ++ r.pooled.erase c).Sublist (r.owners ++ r.pooled) :=
      (List.erase_sublist ..).append_left _
    have hless : Listed { r with pooled := r.pooled.erase c } :=
      ⟨fun hs => absurd (hs.symm.trans hclient) Bool.false_ne_true,
        fun _ c' hc' => h.known hclient c' (hsub.subset hc'),
        fun _ => (h.distinct hclient).sublist hsub⟩
    exact hless.drop c
  | ended _ => exact ⟨h.server, h.known, h.distinct⟩
  | cutOff c _ _ =>
    have hless := h.drop c
    exact ⟨hless.server, hless.known, hless.distinct⟩

/-- No stream is counted that nobody held, and on a client none is forgotten. -/
theorem Listed.slack (h : r.Listed) (hr : Change r r') : r'.slack ≤ r.slack ∧
    r'.clientModel = r.clientModel ∧ (r.clientModel = true → r'.slack = r.slack) := by
  have hlen : ∀ (l : List CtxId) (c : CtxId), c ∈ l → ((l.erase c).length : ℤ) = l.length - 1 :=
    fun l c hc => by
      have hpos := List.length_pos_of_mem hc
      rw [List.length_erase_of_mem hc]
      omega
  have hdrop : ∀ c, (r.drop c).slack ≤ r.slack := fun c => by
    by_cases hmem : c ∈ r.owners
    · simp only [Roll.slack, Roll.drop, hlen _ c hmem]
      omega
    · simp only [Roll.slack, Roll.drop, List.erase_of_not_mem hmem]
      omega
  cases hr with
  | same => exact ⟨le_rfl, rfl, fun _ => rfl⟩
  | opened => exact ⟨le_rfl, rfl, fun _ => rfl⟩
  | made _ | started _ _ =>
    simp only [Roll.slack, List.length_cons, Nat.cast_succ]
    refine ⟨?_, trivial, fun _ => ?_⟩ <;> omega
  | released c howner =>
    by_cases hmem : c ∈ r.owners
    · simp only [Roll.slack, Roll.drop, hlen _ c hmem]
      refine ⟨?_, trivial, fun _ => ?_⟩ <;> omega
    · have hserver := howner.resolve_left hmem
      exact ⟨hdrop c, rfl, fun hc => absurd (hserver.symm.trans hc) Bool.false_ne_true⟩
  | kept c _ howner =>
    simp only [Roll.slack, hlen _ c howner, List.length_cons, Nat.cast_succ]
    refine ⟨?_, trivial, fun _ => ?_⟩ <;> omega
  | destroyed c hmem =>
    simp only [Roll.slack, Roll.drop, List.erase_of_not_mem (h.apart hmem), hlen _ c hmem]
    refine ⟨?_, trivial, fun _ => ?_⟩ <;> omega
  | ended _ => exact ⟨le_rfl, rfl, fun _ => rfl⟩
  | cutOff c _ hserver =>
    exact ⟨hdrop c, rfl, fun hc => absurd (hserver.symm.trans hc) Bool.false_ne_true⟩

/-- A connection is deleted only when no stream is counted. -/
theorem Change.deleted (hr : Change r r') (h : r'.deleted = true) :
    r.deleted = true ∨ r.processing = 0 := by
  cases hr with
  | ended hprocessing => exact Or.inr hprocessing
  | cutOff c hprocessing _ => exact Or.inr hprocessing
  | _ => exact Or.inl h

end Roll

namespace KHttp2

variable {kinds : Kind → Prop}

/-- The roll of a connection. -/
def roll (s : KHttp2) : Roll :=
  ⟨s.owners, s.pooled, s.processing, s.clientModel, s.nextCtx, s.deleted⟩

theorem roll_of_body {s t : KHttp2} (h : t.body = s.body) : t.roll = s.roll := by
  have h1 : t.owners = s.owners := congrArg Body.owners h
  have h2 : t.pooled = s.pooled := congrArg Body.pooled h
  have h3 : t.processing = s.processing := congrArg Body.processing h
  have h4 : t.clientModel = s.clientModel := congrArg Body.clientModel h
  have h5 : t.nextCtx = s.nextCtx := congrArg Body.nextCtx h
  have h6 : t.deleted = s.deleted := congrArg Body.deleted h
  rw [roll, h1, h2, h3, h4, h5, h6, roll]

theorem roll_of_calm {s t : KHttp2} (h : Calm s t) : t.roll = s.roll := by
  rw [roll, h.owners, h.pooled, h.processing, h.clientModel, h.nextCtx, h.deleted, roll]

/-- The roll and the nodes stay as they are. -/
structure SameRoll (s t : KHttp2) : Prop where
  roll : t.roll = s.roll
  node : ∀ c, (t.ctx c).node = (s.ctx c).node

theorem SameRoll.refl (s : KHttp2) : SameRoll s s := ⟨rfl, fun _ => rfl⟩

theorem SameRoll.trans {s t u : KHttp2} (hst : SameRoll s t) (htu : SameRoll t u) :
    SameRoll s u := ⟨htu.roll.trans hst.roll, fun c => (htu.node c).trans (hst.node c)⟩

theorem SameRoll.of_calm {s t : KHttp2} (h : Calm s t) : SameRoll s t :=
  ⟨roll_of_calm h, fun c => (h.ctx c).node⟩

theorem sameRoll_modify {s : KHttp2} {c : CtxId} {f : KHttp2Context → KHttp2Context}
    (h : (f (s.ctx c)).node = (s.ctx c).node) : SameRoll s (s.modify c f) := by
  refine ⟨rfl, fun c' => ?_⟩
  by_cases hc : c' = c
  · subst hc
    simpa only [modify, Function.update_self] using h
  · simp only [modify, Function.update_of_ne hc]

theorem sameRoll_sendData (s : KHttp2) (c : CtxId) (e : WriteEvent) (len : ℕ) :
    SameRoll s (s.sendData c e len) := by
  unfold sendData
  extract_lets ctx payload totalLen left fin bufs h h' src header s1 s2 s3
  have h1 : SameRoll s s1 := by
    dsimp only [s1]
    split
    · exact .of_calm s.calm_setFault
    · exact .refl s
  have h2 : SameRoll s1 s2 := sameRoll_modify rfl
  exact h1.trans (h2.trans ⟨rfl, fun _ => rfl⟩)

/-- What `release_stream` leaves alone. -/
theorem roll_releaseStream (s : KHttp2) (c : CtxId) :
    (s.releaseStream c).roll = s.roll ∧
      ∀ c', c' ≠ c → ((s.releaseStream c).ctx c').node = (s.ctx c').node := by
  unfold releaseStream
  extract_lets ctx s1 s2 s3 s4
  have h2 : SameRoll s1 s2 := sameRoll_modify rfl
  have h3 : SameRoll s2 s3 := .trans (sameRoll_modify rfl) (.of_calm (calm_log _ rfl))
  have h4 : SameRoll s1 s4 := by
    refine h2.trans ?_
    dsimp only [s4]
    split
    · split
      · exact h3.trans (.of_calm (s3.calm_sendRstStream _ _ _))
      · exact h3
    · exact .refl s2
  split
  · refine ⟨?_, fun c' hc => ?_⟩
    · cases ctx.node with
      | none => exact h4.roll
      | some id => exact h4.roll
    · simp only [modify, Function.update_of_ne hc]
      cases ctx.node with
      | none => exact h4.node c'
      | some id => exact h4.node c'
  · exact ⟨h4.roll, fun c' _ => h4.node c'⟩

theorem roll_releaseAdminCount (s : KHttp2) (c : CtxId) :
    (s.releaseAdminCount c).roll = s.roll.drop c := by
  unfold releaseAdminCount
  extract_lets s1 s2
  have h1 : s1.roll = s.roll := by
    dsimp only [s1]
    split <;> rfl
  have h2 : s2.roll = s1.roll := by
    dsimp only [s2]
    split <;> rfl
  have hdrop : ({ s2.log (.releaseAdmin c) with
      processing := s2.processing - 1, owners := s2.owners.erase c } : KHttp2).roll =
        s2.roll.drop c := rfl
  rw [hdrop, h2, h1]

theorem roll_release (s : KHttp2) (c : CtxId) :
    ((s.releaseStream c).releaseAdminCount c).roll = s.roll.drop c ∧
      ∀ c', c' ≠ c →
        (((s.releaseStream c).releaseAdminCount c).ctx c').node = (s.ctx c').node := by
  obtain ⟨hroll, hnode⟩ := s.roll_releaseStream c
  refine ⟨by rw [roll_releaseAdminCount, hroll], fun c' hc => ?_⟩
  obtain ⟨mark, hctx⟩ := (s.releaseStream c).releaseAdminCount_ctx c c'
  rw [hctx]
  exact hnode c' hc

/-- A connection that is deleted lets one stream of a server go, at most. -/
theorem roll_tryDelete (s : KHttp2) : Roll.Change s.roll s.tryDelete.roll := by
  unfold tryDelete
  split
  · rename_i hdestroy
    simp only [canDestroy, Bool.and_eq_true, decide_eq_true_eq] at hdestroy
    have hprocessing := hdestroy.1.1
    unfold delete
    extract_lets s1 taken
    let s2 : KHttp2 := { s1 with writeBuffer := taken.1 }
    have hclean : (s2.removeBuff taken.2 true).roll = s2.roll :=
      roll_of_calm (s2.calm_removeBuff taken.2 true)
    have hend : ({ s2.removeBuff taken.2 true with deleted := true } : KHttp2).roll =
        { s1.roll with deleted := true } :=
      congrArg (fun r : Roll => { r with deleted := true }) hclean
    rw [hend]
    dsimp only [s1]
    unfold releaseStateStream
    split
    · exact .ended hprocessing
    · rename_i c hstream
      extract_lets u1 u2 u3
      dsimp only [u3]
      split
      · rename_i hopen
        simp only [Bool.and_eq_true, Bool.not_eq_true'] at hopen
        have hdestroyed : (u2.destroyNode c (u2.ctx c).node).roll = u1.roll := by
          have hnode : ∀ node, (u2.destroyNode c node).roll = u2.roll := fun node => by
            cases node <;> rfl
          rw [hnode]
          dsimp only [u2]
          split <;> rfl
        have hsink : (s.sinkEnd c).roll = s.roll := roll_of_calm (s.calm_sinkEnd c hopen.2)
        have hu1 : u1.roll = (s.sinkEnd c).roll.drop c := ((s.sinkEnd c).roll_release c).1
        have hstate : ((u2.destroyNode c (u2.ctx c).node).setState fun st =>
            { st with stream := none }).roll = s.roll.drop c := by
          rw [← hsink, ← hu1, ← hdestroyed]
          rfl
        rw [hstate]
        exact .cutOff c hprocessing hopen.2
      · exact .ended hprocessing
  · exact .same

/-- The fiber that waits in a write holds its stream. -/
def Staffed (s : KHttp2) : Prop := ∀ c, (s.ctx c).writeSuspended = true → c ∈ s.owners

/-- A stream on which a writer waits is not handed back. -/
def HoldsOn (s t : KHttp2) : Prop :=
  s.roll.Listed → s.Attended → Staffed s → ∀ c, (s.ctx c).writeSuspended = true →
    c ∈ t.owners ∧ ((s.ctx c).node.isSome → (t.ctx c).node.isSome)

theorem SameRoll.effect {s t : KHttp2} (h : SameRoll s t) :
    Roll.Change s.roll t.roll ∧ HoldsOn s t := by
  have howners : t.owners = s.owners := congrArg Roll.owners h.roll
  refine ⟨?_, fun _ _ hstaffed c hc =>
    ⟨howners.symm ▸ hstaffed c hc, fun hnode => (h.node c).symm ▸ hnode⟩⟩
  rw [h.roll]
  exact .same

/-- What an effect does to the roll and to the nodes. -/
theorem roll_effect {s t : KHttp2} (hdrop : ¬kinds .drop) (h : Effect kinds s t) :
    Roll.Change s.roll t.roll ∧ HoldsOn s t := by
  cases h with
  | soft h _ =>
    refine SameRoll.effect ⟨roll_of_body h, fun c => ?_⟩
    exact congrArg (fun b : Body => (b.part c).node) h
  | frameHead sid length type flags _ => exact SameRoll.effect ⟨rfl, fun _ => rfl⟩
  | push frame bufs _ _ _ => exact SameRoll.effect ⟨rfl, fun _ => rfl⟩
  | startWrite => exact SameRoll.effect (.of_calm s.calm_startWrite)
  | linkNode c _ _ =>
    refine ⟨.same, fun _ _ hstaffed c' hc' => ⟨hstaffed c' hc', fun hnode => ?_⟩⟩
    by_cases hc : c' = c
    · subst hc
      simp only [linkNode, modify, Function.update_self, Option.isSome_some]
    · simpa only [linkNode, modify, newNode, log, Function.update_of_ne hc] using hnode
  | output c frame bufs _ _ _ _ => exact SameRoll.effect ⟨rfl, fun _ => rfl⟩
  | closeOut c fin _ => exact SameRoll.effect (sameRoll_modify rfl)
  | closeIn c => exact SameRoll.effect (sameRoll_modify rfl)
  | hup c w _ _ => exact SameRoll.effect (sameRoll_modify rfl)
  | suspend c e _ _ _ _ =>
    have h : SameRoll (s.log (.waitWrite c)) ((s.log (.waitWrite c)).modify c fun ctx =>
      { ctx with writeWait := some e }) := sameRoll_modify rfl
    exact SameRoll.effect ⟨h.roll, h.node⟩
  | send c e len _ _ _ =>
    have h := s.sameRoll_sendData c e len
    exact SameRoll.effect ⟨h.roll, h.node⟩
  | written got _ =>
    let u : KHttp2 := { s with writeBuffer := (s.writeBuffer.readSuccess got).1 }
    have h := SameRoll.of_calm (u.calm_removeBuff (s.writeBuffer.readSuccess got).2 false)
    exact SameRoll.effect ⟨h.roll, h.node⟩
  | stopWrite _ => exact SameRoll.effect ⟨rfl, fun _ => rfl⟩
  | reset c rst clear =>
    refine SameRoll.effect ?_
    unfold resetWith
    extract_lets ctx s1 s2 s3
    have h1 : SameRoll s s1 := .of_calm (s.calm_resetStream c).1
    have h2 : SameRoll s1 s2 := by
      cases rst with
      | none => exact .refl s1
      | some r => exact .of_calm (s1.calm_sendRstStream _ _ _)
    have h3 : SameRoll s2 s3 := by
      dsimp only [s3]
      split
      · exact sameRoll_modify rfl
      · exact .refl s2
    exact h1.trans (h2.trans (h3.trans (.of_calm (s3.calm_wakeReset c ctx))))
  | closeStreams read status => exact SameRoll.effect (.of_calm (s.calm_closeStreams read status))
  | tryDelete =>
    refine ⟨s.roll_tryDelete, fun _ hattended hstaffed c hc => ?_⟩
    rcases Bool.eq_false_or_eq_true s.canDestroy with hdestroy | hdestroy
    · exact absurd ((hattended.last hdestroy c).symm.trans hc) Bool.false_ne_true
    · rw [tryDelete, hdestroy, if_neg Bool.false_ne_true]
      exact ⟨hstaffed c hc, id⟩
  | refill c _ _ =>
    exact SameRoll.effect
      (SameRoll.trans (.of_calm (s.calm_sendWindowUpdate _ _ _)) (sameRoll_modify rfl))
  | copy c len _ =>
    exact SameRoll.effect
      (SameRoll.trans (.of_calm (s.calm_copyReadBuffer c len)) ⟨rfl, fun _ => rfl⟩)
  | returns c got _ _ => exact SameRoll.effect ⟨rfl, fun _ => rfl⟩
  | readWait c len _ _ _ _ => exact SameRoll.effect (sameRoll_modify rfl)
  | headerWait c w _ => exact SameRoll.effect (sameRoll_modify rfl)
  | headerWake c w _ _ =>
    exact SameRoll.effect (SameRoll.trans (sameRoll_modify rfl) (.of_calm (calm_onRead _ c _ 0)))
  | headersIn c fin _ _ =>
    have h : SameRoll s (s.modify c fun ctx => { ctx with inClosed := fin }) := sameRoll_modify rfl
    refine SameRoll.effect (h.trans ?_)
    unfold logEnd
    split
    · exact ⟨rfl, fun _ => rfl⟩
    · exact .refl _
  | openStream p _ =>
    obtain ⟨ctx, st, trace, hnode, -, -, -, -, -, -, -, heq⟩ := s.headersNewStream_spec p
    rw [heq]
    refine ⟨.opened, fun _ _ hstaffed c hc => ⟨hstaffed c hc, fun hsome => ?_⟩⟩
    by_cases hc : c = s.nextCtx
    · subst hc
      simp only [Function.update_self, hnode, Option.isSome_some]
    · simpa only [Function.update_of_ne hc] using hsome
  | newClientStream processing admin hclient hprocessing =>
    rw [newClientStream_spec { s with processing := processing } admin hclient, hprocessing]
    refine ⟨.made hclient, fun hlisted _ hstaffed c hc =>
      ⟨List.mem_cons_of_mem _ (hstaffed c hc), fun hsome => ?_⟩⟩
    have hlt := hlisted.known hclient c (List.mem_append_left _ (hstaffed c hc))
    have hne : c ≠ s.nextCtx := Nat.ne_of_lt hlt
    simpa only [Function.update_of_ne hne] using hsome
  | start c _ hserver =>
    refine ⟨.started c hserver,
      fun _ _ hstaffed c' hc' => ⟨List.mem_cons_of_mem _ (hstaffed c' hc'), fun hsome => ?_⟩⟩
    by_cases hc : c' = c
    · subst hc
      simpa only [startRequest, log, modify, setState, Function.update_self] using hsome
    · simpa only [startRequest, log, modify, setState, Function.update_of_ne hc] using hsome
  | release c h =>
    obtain ⟨howner, hidle⟩ := h.resolve_right hdrop
    obtain ⟨hroll, hnode⟩ := s.roll_release c
    have howners : ((s.releaseStream c).releaseAdminCount c).owners = s.owners.erase c :=
      congrArg Roll.owners hroll
    rw [hroll]
    refine ⟨.released c (Or.inl howner), fun _ _ hstaffed c' hc => ?_⟩
    have hne : c' ≠ c := fun heq => Bool.false_ne_true (hidle.symm.trans (heq ▸ hc))
    rw [howners, hnode c' hne]
    exact ⟨(List.mem_erase_of_ne hne).mpr (hstaffed c' hc), id⟩
  | gc c hclient howner h =>
    obtain ⟨hroll, hnode⟩ := s.roll_releaseStream c
    refine ⟨?_, fun _ _ hstaffed c' hc => ?_⟩
    · have hgc : (s.gc c).roll = { (s.releaseStream c).roll with
          owners := s.owners.erase c, pooled := c :: s.pooled } := rfl
      rw [hgc, hroll]
      exact .kept c hclient howner
    · have hne : c' ≠ c := fun heq => Bool.false_ne_true (h.symm.trans (heq ▸ hc))
      have hgc : (s.gc c).ctx c' = (s.releaseStream c).ctx c' := rfl
      rw [hgc, hnode c' hne]
      exact ⟨(List.mem_erase_of_ne hne).mpr (hstaffed c' hc), id⟩
  | destroyPooled c h =>
    let u : KHttp2 := { s with pooled := s.pooled.erase c }
    obtain ⟨hroll, hnode⟩ := u.roll_release c
    have howners : ((u.releaseStream c).releaseAdminCount c).owners = s.owners.erase c :=
      congrArg Roll.owners hroll
    rw [hroll]
    refine ⟨.destroyed c h, fun hlisted _ hstaffed c' hc => ?_⟩
    have hne : c' ≠ c := fun heq => hlisted.apart h (heq ▸ hstaffed c' hc)
    rw [howners, hnode c' hne]
    exact ⟨(List.mem_erase_of_ne hne).mpr (hstaffed c' hc), id⟩
  | charge length _ _ => exact SameRoll.effect ⟨rfl, fun _ => rfl⟩
  | chargeRefill _ =>
    have h := SameRoll.of_calm
      (s.calm_sendWindowUpdate none 0 (connectionRecvWindow - s.recvWindow))
    exact SameRoll.effect ⟨h.roll, h.node⟩
  | chargeStream c length _ _ => exact SameRoll.effect (sameRoll_modify rfl)
  | takeData c taken _ =>
    unfold takeData
    extract_lets bytes s1
    have h1 : SameRoll s s1 := sameRoll_modify rfl
    have h2 : SameRoll s1 (s1.logData c taken) := by
      unfold logData
      split
      · split <;> exact ⟨rfl, fun _ => rfl⟩
      · exact ⟨rfl, fun _ => rfl⟩
    exact SameRoll.effect (h1.trans (h2.trans (.of_calm (calm_wakeReader _ c false))))
  | takeEnd c _ =>
    have h1 : SameRoll s (s.modify c fun ctx => { ctx with inClosed := true }) :=
      sameRoll_modify rfl
    have h2 : SameRoll s ((s.modify c fun ctx => { ctx with inClosed := true }).log
        (.endStream c)) := ⟨h1.roll, h1.node⟩
    exact SameRoll.effect (h2.trans (.of_calm (calm_wakeReader _ c true)))

/-! ## Effects -/

/-- Writers are in turn, on streams that hold their nodes, and none waits on a connection that was
deleted. -/
structure Manned (s : KHttp2) : Prop where
  staffed : Staffed s
  node : ∀ c, (s.ctx c).writeSuspended = true → (s.ctx c).node.isSome
  turn : ∀ c, (s.seen c).InTurn
  gone : s.deleted = true → ∀ c, (s.ctx c).writeSuspended = false

/-- Where every stream that is held is counted, nobody waits when none is counted. -/
theorem Staffed.idle {s : KHttp2} (hs : Staffed s) (hslack : 0 ≤ s.roll.slack)
    (hprocessing : s.processing = 0) (c : CtxId) : (s.ctx c).writeSuspended = false := by
  refine Bool.eq_false_iff.mpr fun hc => ?_
  have hpos := List.length_pos_of_mem (hs c hc)
  simp only [Roll.slack, roll, hprocessing] at hslack
  omega

theorem Staffed.attended {s : KHttp2} (hs : Staffed s) (hlisted : s.roll.Listed)
    (hslack : 0 ≤ s.roll.slack) : s.Attended where
  pooled c hc := Bool.eq_false_iff.mpr fun hsuspended =>
    hlisted.apart (r := s.roll) hc (hs c hsuspended)
  last hdestroy := by
    simp only [canDestroy, Bool.and_eq_true, decide_eq_true_eq] at hdestroy
    exact hs.idle hslack hdestroy.1.1

/-- What an effect does to the writer of a stream. -/
theorem turns_effect {s t : KHttp2} (hwrite : ¬kinds .write) (hdrop : ¬kinds .drop)
    (hattended : s.Attended) (h : Effect kinds s t) (c : CtxId) :
    Seen.Turns c (s.seen c) (t.seen c) :=
  turns_changes hwrite hdrop (changes_effect c h (fun _ => id) (Or.inr hattended))

/-- An effect keeps writers in turn when it opens no stream on which a writer waits. -/
theorem Manned.effect {s t : KHttp2} (hwrite : ¬kinds .write) (hdrop : ¬kinds .drop)
    (hlisted : s.roll.Listed) (hslack : 0 ≤ s.roll.slack) (hs : Manned s) (h : Effect kinds s t)
    (hopened : ∀ c, (s.ctx c).writeSuspended = true →
      openings c t.trace = openings c s.trace) : Manned t := by
  have hattended := hs.staffed.attended hlisted hslack
  obtain ⟨hroll, hholds⟩ := roll_effect hdrop h
  have hstays := hholds hlisted hattended hs.staffed
  have hturns := turns_effect hwrite hdrop hattended h
  have hback : ∀ c, (t.ctx c).writeSuspended = true → (s.ctx c).writeSuspended = true :=
    fun c => (hturns c).waits
  refine ⟨fun c hc => (hstays c (hback c hc)).1,
    fun c hc => (hstays c (hback c hc)).2 (hs.node c (hback c hc)), fun c => ?_, fun hdel c => ?_⟩
  · rcases (hturns c).turn (hs.turn c) with hturn | ⟨hwaits, hnone | hlt⟩
    · exact hturn
    · have hnode := (hstays c hwaits).2 (hs.node c hwaits)
      exact absurd hnone (Option.isSome_iff_ne_none.mp hnode)
    · rw [openings_seen, openings_seen, hopened c hwaits] at hlt
      exact absurd hlt (Nat.lt_irrefl _)
  · refine Bool.eq_false_iff.mpr fun hc => Bool.false_ne_true ?_
    rcases hroll.deleted hdel with hold | hprocessing
    · exact (hs.gone hold c).symm.trans (hback c hc)
    · exact (hs.staffed.idle hslack hprocessing c).symm.trans (hback c hc)

/-- The lists stay in order, and no stream is counted anew that nobody holds. -/
theorem listed_effects {s t : KHttp2} (hdrop : ¬kinds .drop) (hlisted : s.roll.Listed)
    (h : Effects kinds s t) : t.roll.Listed ∧ t.roll.slack ≤ s.roll.slack ∧
      t.clientModel = s.clientModel ∧ (s.clientModel = true → t.roll.slack = s.roll.slack) := by
  induction h with
  | refl => exact ⟨hlisted, le_rfl, rfl, fun _ => rfl⟩
  | tail _ h ih =>
    obtain ⟨hlist, hslack, hmodel, hclient⟩ := ih
    have hroll := (roll_effect hdrop h).1
    obtain ⟨hslack', hmodel', hclient'⟩ := hlist.slack hroll
    refine ⟨hlist.change hroll, hslack'.trans hslack, hmodel'.trans hmodel, fun hc => ?_⟩
    exact (hclient' (hmodel.trans hc)).trans (hclient hc)

/-- No effect takes back that a stream was opened. -/
theorem openings_effects {s t : KHttp2} (h : Effects kinds s t) (c : CtxId) :
    openings c s.trace ≤ openings c t.trace := by
  rw [← openings_seen, ← openings_seen]
  induction h with
  | refl => exact Nat.le_refl _
  | tail _ heffect ih =>
    have hchanges : Changes (fun kind => kinds kind ∨ kind = .drop) c _ _ :=
      changes_effect c heffect (fun _ => Or.inl) (Or.inl (Or.inr rfl))
    refine Relation.ReflTransGen.rec
      (motive := fun v _ => openings c _ ≤ openings c v.events) ih ?_ hchanges
    exact fun _ hchange hle => hle.trans (openings_change hchange)

/-- Effects keep writers in turn when they open no stream on which a writer waits. -/
theorem Manned.effects {s t : KHttp2} (hwrite : ¬kinds .write) (hdrop : ¬kinds .drop)
    (hlisted : s.roll.Listed) (hslack : 0 ≤ t.roll.slack) (hs : Manned s) (h : Effects kinds s t)
    (hopened : ∀ c, (s.ctx c).writeSuspended = true →
      openings c t.trace = openings c s.trace) :
    Manned t ∧ ∀ c, (t.ctx c).writeSuspended = true → (s.ctx c).writeSuspended = true := by
  induction h with
  | refl => exact ⟨hs, fun _ => id⟩
  | @tail u t hpath h ih =>
    obtain ⟨hlist, -, -, -⟩ := listed_effects hdrop hlisted hpath
    have hslack' : 0 ≤ u.roll.slack := hslack.trans (hlist.slack (roll_effect hdrop h).1).1
    have hbetween : ∀ c, (s.ctx c).writeSuspended = true →
        openings c u.trace = openings c s.trace ∧ openings c t.trace = openings c u.trace :=
      fun c hc => by
        have h1 := openings_effects hpath c
        have h2 := openings_effects (.single h) c
        have h3 := hopened c hc
        omega
    obtain ⟨hu, hback⟩ := ih hslack' fun c hc => (hbetween c hc).1
    have hattended := hu.staffed.attended hlist hslack'
    have hturns := turns_effect hwrite hdrop hattended h
    exact ⟨hu.effect hwrite hdrop hlist hslack' h fun c hc => (hbetween c (hback c hc)).2,
      fun c hc => hback c ((hturns c).waits hc)⟩

/-! ## Writing -/

theorem deleted_sendHeader (s : KHttp2) (c : CtxId) (bodyEnd : Bool) :
    (s.sendHeader c bodyEnd).deleted = s.deleted := by
  have hstart : ∀ u : KHttp2, u.startWrite.deleted = u.deleted := fun u => by
    unfold startWrite
    split <;> rfl
  unfold sendHeader
  split
  · rfl
  · extract_lets s1 s2
    have h2 : s2.deleted = s.deleted := by
      dsimp only [s2]
      split <;> rfl
    split
    · exact (hstart _).trans h2
    · exact h2

/-- A writer that sends or waits for window opens no stream. -/
theorem openings_onWriteWindowReady (s : KHttp2) {c : CtxId} (hnode : (s.ctx c).node.isSome)
    (c' : CtxId) : openings c' (s.onWriteWindowReady c).trace = openings c' s.trace := by
  unfold onWriteWindowReady
  split
  · rfl
  · rename_i e hwait
    extract_lets len
    split
    · rw [← openings_seen, ← openings_seen, seen_of_body (s.body_addQueue c)]
    · obtain ⟨-, -, htrace⟩ := s.sendData_spec c e len.toNat hnode
      have hqueue : openings c' ((s.sendData c e len.toNat).flushQueue c).trace =
          openings c' (s.sendData c e len.toNat).trace := by
        rw [← openings_seen, ← openings_seen, seen_of_body (body_flushQueue _ c)]
      refine hqueue.trans ?_
      rw [htrace]
      exact openings_cons rfl _

/-- `write` and `sendfile` return at once, or send what comes before the body and wait. -/
theorem writeWait_cases {s : KHttp2} (hs : Sound s) {c : CtxId} (sendfile : Bool) (buf : WaitBuf)
    (length : ℕ) (howner : c ∈ s.owners) (hidle : (s.ctx c).writeSuspended = false)
    (hopened : (s.ctx c).opened = true) (hkind : kinds .output) :
    Effects kinds s (s.writeWait c sendfile buf length).1 ∨
      ∃ (u : KHttp2) (e : WriteEvent), Effects kinds s u ∧ u.owners = s.owners ∧
        u.deleted = s.deleted ∧ (u.ctx c).node.isSome ∧ (u.ctx c).writeWait = none ∧
        e.forWindow = true ∧
        (s.writeWait c sendfile buf length).1 = ((u.log (.waitWrite c)).modify c fun ctx =>
          { ctx with writeWait := some e }).onWriteWindowReady c := by
  unfold writeWait
  extract_lets s1 s2 s3
  have h1 : Effects kinds s s1 := .single (.hup c none hidle fun e he => by cases he)
  have hself : s1.ctx c = { s.ctx c with writeWait := none } := by
    simp only [s1, modify, Function.update_self]
  split
  · exact Or.inl h1
  · rename_i hopen
    have hread : s1.readProcessing = true := by
      simp only [isWriteClosed, Bool.or_eq_true, Bool.not_eq_true', not_or,
        Bool.not_eq_false] at hopen
      exact hopen.1.1
    have h2 : Effects kinds s1 s2 ∧ s2.owners = s.owners ∧ s2.deleted = s.deleted ∧
        (s2.ctx c).node.isSome ∧ (s2.ctx c).writeWait = none := by
      dsimp only [s2]
      by_cases hsome : (s1.ctx c).sendHeader.isSome = true
      · rw [if_pos hsome]
        have hnode : s1.clientModel = true ∨ (s1.ctx c).node.isSome := by
          cases hclient : s1.clientModel with
          | true => exact Or.inl rfl
          | false =>
            rw [hself]
            exact Or.inr ((hs.served hclient).owned c howner).1
        obtain ⟨howners, hwait⟩ := s1.sendHeader_keeps c ((s1.ctx c).contentLeft = 0)
        exact ⟨s1.effects_sendHeader c _ hkind, howners, s1.deleted_sendHeader c _,
          (sendHeader_spec _ hread hsome hnode).1, hwait.trans (by rw [hself])⟩
      · rw [if_neg hsome]
        have hor : (s.ctx c).node.isSome = true ∨ (s.ctx c).sendHeader.isSome = true := by
          simpa only [KHttp2Context.opened, Bool.or_eq_true] using hopened
        rw [hself] at hsome ⊢
        exact ⟨.refl, rfl, rfl, hor.resolve_right hsome, rfl⟩
    obtain ⟨h2, howners, hdeleted, hnode, hnone⟩ := h2
    refine Or.inr ⟨s2.modify c fun ctx => { ctx with sendfile := sendfile }, ⟨some buf, length, -1⟩,
      h1.trans (h2.trans (effects_soft (body_modify rfl) rfl)), howners, hdeleted, ?_, ?_, rfl, ?_⟩
    · simpa only [modify, Function.update_self] using hnode
    · simpa only [modify, Function.update_self] using hnone
    · simp only [s3, modify, log, Function.update_self, Function.update_idem]

/-- A fiber that holds its stream, which has its node, starts to wait. -/
theorem Manned.suspend {s : KHttp2} (hs : Manned s) {c : CtxId} (howner : c ∈ s.owners)
    (hdeleted : s.deleted = false) (hnode : (s.ctx c).node.isSome)
    (hwait : (s.ctx c).writeWait = none) {e : WriteEvent} (hwindow : e.forWindow = true) :
    Manned ((s.log (.waitWrite c)).modify c fun ctx => { ctx with writeWait := some e }) := by
  have hself : ((s.log (.waitWrite c)).modify c fun ctx => { ctx with writeWait := some e }).ctx c =
      { s.ctx c with writeWait := some e } := by
    simp only [modify, log, Function.update_self]
  have hother : ∀ c', c' ≠ c → ((s.log (.waitWrite c)).modify c fun ctx =>
      { ctx with writeWait := some e }).ctx c' = s.ctx c' := fun c' hc => by
    simp only [modify, log, Function.update_of_ne hc]
  refine ⟨fun c' hc' => ?_, fun c' hc' => ?_, fun c' => ?_, fun hdel => ?_⟩
  · by_cases hc : c' = c
    · exact hc ▸ howner
    · rw [hother c' hc] at hc'
      exact hs.staffed c' hc'
  · by_cases hc : c' = c
    · subst hc
      rw [hself]
      exact hnode
    · rw [hother c' hc] at hc' ⊢
      exact hs.node c' hc'
  · by_cases hc : c = c'
    · subst hc
      have hold := hs.turn c
      have hnone : (s.seen c).part.writeWait = none := hwait
      have hturn := hold.turn
      have hbuffs := hold.buffs
      rw [hnone] at hturn hbuffs
      rw [seen_modify _ c _ (fun part => { part with writeWait := some e }) rfl,
        s.seen_log c rfl rfl]
      have hnot : e.forWriting = false := by
        simp only [WriteEvent.forWindow, Bool.and_eq_true, decide_eq_true_eq] at hwindow
        rw [WriteEvent.forWriting, decide_eq_false (by omega), Bool.false_and]
      refine ⟨?_, ?_⟩
      · change (WriterTurn.of (s.seen c).events).bind (fun turn => turn.after (.waitWrite c)) =
          some (ofWait (some e))
        rw [hturn, ofWait_forWindow hwindow]
        rfl
      · change (s.seen c).buffs = if (some e).any WriteEvent.forWriting then 1 else 0
        rw [hbuffs, Option.any_some, hnot]
        rfl
    · rw [seen_modify_other _ hc, s.seen_log_other c' fun _ habout => hc ?_]
      · exact hs.turn c'
      · exact Option.some.inj habout
  · exact absurd (hdeleted.symm.trans hdel) Bool.false_ne_true

/-! ## Runs -/

/-- The lists of streams are in order, and as long as every stream that is held is counted, its
writers are in turn. -/
structure Tended (s : KHttp2) : Prop where
  listed : s.roll.Listed
  manned : 0 ≤ s.roll.slack → Manned s
  opened : Opened s
  client : s.clientModel = true → s.roll.slack = 0

/-- A stream on which a writer waits is not opened anew. -/
theorem Manned.once {s t : KHttp2} (hs : Manned s) (hopened : Opened s) (ht : Opened t)
    (h : Effects kinds s t) {c : CtxId} (hc : (s.ctx c).writeSuspended = true) :
    openings c t.trace = openings c s.trace := by
  have hold := hopened.linked c (hs.node c hc)
  have hgrows := openings_effects h c
  have hnew := ht.once c
  omega

theorem Tended.effects {s t : KHttp2} (hwrite : ¬kinds .write) (hdrop : ¬kinds .drop)
    (hs : Tended s) (ht : Opened t) (h : Effects kinds s t) : Tended t := by
  obtain ⟨hlisted, hslack, hmodel, hclient⟩ := listed_effects hdrop hs.listed h
  refine ⟨hlisted, fun hpos => ?_, ht, fun hc => ?_⟩
  · have hmanned := hs.manned (hpos.trans hslack)
    exact (hmanned.effects hwrite hdrop hs.listed hpos h fun c hc =>
      hmanned.once hs.opened ht h hc).1
  · have hold := hmodel.symm.trans hc
    exact (hclient hold).trans (hs.client hold)

/-- A write. -/
theorem Tended.writeWait {s : KHttp2} (hsound : Sound s) (hs : Tended s) {c : CtxId}
    (sendfile : Bool) (buf : WaitBuf) (length : ℕ) (howner : c ∈ s.owners)
    (hidle : (s.ctx c).writeSuspended = false) (hopened : (s.ctx c).opened = true)
    (hdeleted : s.deleted = false) (ht : Opened (s.writeWait c sendfile buf length).1) :
    Tended (s.writeWait c sendfile buf length).1 := by
  have houtput : (· = Kind.output) .output := rfl
  rcases writeWait_cases hsound sendfile buf length howner hidle hopened houtput with
    h | ⟨u, e, hu, howners, hdel, hnode, hwait, hwindow, heq⟩
  · exact hs.effects (by decide) (by decide) ht h
  · rw [heq] at ht ⊢
    let v := (u.log (.waitWrite c)).modify c fun ctx => { ctx with writeWait := some e }
    have hself : v.ctx c = { u.ctx c with writeWait := some e } := by
      simp only [v, modify, log, Function.update_self]
    have hvnode : (v.ctx c).node.isSome := by
      rw [hself]
      exact hnode
    have hv : Effects (· = .output) v (v.onWriteWindowReady c) := by
      refine v.effects_onWriteWindowReady c ?_
      rw [hself]
      exact hwindow
    have hroll : v.roll = u.roll := rfl
    -- neither the wait nor what is sent opens a stream
    have hlast : ∀ c', openings c' (v.onWriteWindowReady c).trace = openings c' v.trace :=
      v.openings_onWriteWindowReady hvnode
    have hwaits : ∀ c', openings c' v.trace = openings c' u.trace := fun c' => openings_cons rfl _
    obtain ⟨hlistedu, hslacku, hmodelu, hclientu⟩ := listed_effects (by decide) hs.listed hu
    obtain ⟨hlistedt, hslackt, hmodelt, hclientt⟩ :=
      listed_effects (by decide) (hroll.symm ▸ hlistedu) hv
    refine ⟨hlistedt, fun hpos => ?_, ht, fun hc => ?_⟩
    · have hposu : 0 ≤ u.roll.slack := hpos.trans hslackt
      have hmanned := hs.manned (hposu.trans hslacku)
      have hstays : ∀ c', (s.ctx c').writeSuspended = true →
          openings c' u.trace = openings c' s.trace := fun c' hc' => by
        have hold := hs.opened.linked c' (hmanned.node c' hc')
        have hgrows := openings_effects hu c'
        have hnew := ht.once c'
        rw [hlast, hwaits] at hnew
        omega
      have hmannedu := (hmanned.effects (by decide) (by decide) hs.listed hposu hu hstays).1
      have hmannedv : Manned v :=
        hmannedu.suspend (howners.symm ▸ howner) (hdel.trans hdeleted) hnode hwait hwindow
      exact (hmannedv.effects (by decide) (by decide) (hroll.symm ▸ hlistedu) hpos hv
        fun c' _ => hlast c').1
    · have hclient : s.clientModel = true := (hmodelu.symm.trans (hmodelt.symm.trans hc))
      have hclient' : u.clientModel = true := hmodelu.trans hclient
      exact (hclientt hclient').trans ((hclientu hclient).trans (hs.client hclient))

theorem Tended.of_body {s t : KHttp2} (hs : Tended s) (hquiet : Quiet s t)
    (hbody : t.body = s.body) : Tended t := by
  have hroll := roll_of_body hbody
  have hpart : ∀ c, (t.ctx c).part = (s.ctx c).part := fun c => congrArg (fun b => b.part c) hbody
  have hwaits : ∀ c, (t.ctx c).writeSuspended = (s.ctx c).writeSuspended := fun c =>
    congrArg Part.writeSuspended (hpart c)
  have hnode : ∀ c, (t.ctx c).node = (s.ctx c).node := fun c => congrArg Part.node (hpart c)
  refine ⟨hroll.symm ▸ hs.listed, fun hpos => ?_, hs.opened.quiet hquiet, fun hc => ?_⟩
  · obtain ⟨hstaffed, hlinked, hturn, hgone⟩ := hs.manned (hroll ▸ hpos)
    refine ⟨fun c hc => ?_, fun c hc => ?_, fun c => ?_, fun hdel c => ?_⟩
    · have howners : t.owners = s.owners := congrArg Body.owners hbody
      exact howners.symm ▸ hstaffed c (hwaits c ▸ hc)
    · exact hnode c ▸ hlinked c (hwaits c ▸ hc)
    · exact seen_of_body hbody c ▸ hturn c
    · have hold : s.deleted = true := (congrArg Body.deleted hbody).symm.trans hdel
      exact (hwaits c).trans (hgone hold c)
  · have hold : s.clientModel = true := (congrArg Body.clientModel hbody).symm.trans hc
    exact hroll ▸ hs.client hold

/-- Writers are tended as long as no request is dropped that was not started. -/
theorem persistent_tended (codes : HuffDecodeCodes) :
    Persistent codes (fun h s _ => ¬(h = .stateComplete ∧ s.incomplete = true)) Tended where
  store hquiet hbody hs := hs.of_body hquiet hbody
  exec {h s p} hsound _ hdrops hs := by
    have hpath : Path (fun _ => True) s (KHttp2.exec codes h s p).1 :=
      pathOut_exec codes hsound (fun _ _ => trivial) (fun _ _ _ _ => trivial) (fun _ _ => trivial)
        fun _ _ => trivial
    have heffects : Effects (fun kind => kind ≠ .write ∧ kind ≠ .drop) s
        (KHttp2.exec codes h s p).1 :=
      effects_exec (by decide) codes h s p (fun _ => by decide) (fun _ => by decide)
        (fun hcomplete hincomplete => (hdrops ⟨hcomplete, hincomplete⟩).elim) fun _ _ => by decide
    exact hs.effects (fun h => h.1 rfl) (fun h => h.2 rfl) (hs.opened.path hsound hpath) heffects
  startRead {s} hsound hs := by
    have hend : PathOut (fun _ => True) s (s.startRead, .null) := s.pathOut_startRead .null
    have heffects : Effects (fun _ => False) s s.startRead := s.effects_startRead
    exact hs.effects id id (hs.opened.path hsound (hend fun _ _ => trivial)) heffects
  act {s e} hsound hpath henabled hread hs := by
    have ht := hs.opened.path hsound hpath
    cases hwrites : e.writes with
    | false =>
      have heffects : Effects (· = .output) s (KHttp2.act codes s e) :=
        effects_act_of codes s e henabled hread rfl fun h =>
          absurd (hwrites.symm.trans h) Bool.false_ne_true
      exact hs.effects (by decide) (by decide) ht heffects
    | true =>
      cases e with
      | call c op =>
        simp only [enabled, Bool.and_eq_true, Bool.not_eq_true', List.contains_iff_mem] at henabled
        obtain ⟨hdeleted, howner, hready⟩ := henabled
        cases op with
        | write buf length =>
          simp only [Op.ready, Bool.and_eq_true, Bool.not_eq_true'] at hready
          exact hs.writeWait hsound false _ length howner hready.1 hready.2 hdeleted ht
        | sendfile file length =>
          simp only [Op.ready, Bool.and_eq_true, Bool.not_eq_true'] at hready
          exact hs.writeWait hsound true _ length howner hready.1 hready.2 hdeleted ht
        | _ => cases hwrites
      | _ => cases hwrites

theorem roll_greet (s : KHttp2) : s.greet.roll = s.roll := by
  have h : Calm s (s.sendSettings.sendWindowUpdate none 0
      (connectionRecvWindow - defaultWindow)).1 :=
    s.calm_sendSettings.trans (calm_sendWindowUpdate _ _ _ _)
  unfold greet
  extract_lets r
  split
  · exact (roll_of_calm (calm_startWrite _)).trans (roll_of_calm h)
  · exact roll_of_calm h

/-- Nobody writes on a connection that starts. -/
theorem Starts.tended {s : KHttp2} (h : Starts s) : Tended s := by
  have hidle : ∀ c, (s.ctx c).writeSuspended = false := fun c =>
    congrArg (fun v : Seen => v.part.writeSuspended) (h.seen c)
  have hmanned : Manned s := by
    refine ⟨fun c hc => ?_, fun c hc => ?_, fun c => ?_, fun _ => hidle⟩
    · exact absurd ((hidle c).symm.trans hc) Bool.false_ne_true
    · exact absurd ((hidle c).symm.trans hc) Bool.false_ne_true
    · rw [h.seen c]
      exact ⟨rfl, rfl⟩
  have hserver : ∀ (now timeOut : ℕ) (junk : ℕ → Http2FrameHeader) (h : Handler),
      ((init now timeOut junk).setState fun st => { st with handler := h }).greet.startRead.roll =
        (init now timeOut junk).roll := by
    intro now timeOut junk h
    obtain ⟨-, -, hnow, hlast, hpeer⟩ :=
      ((init now timeOut junk).setState fun st => { st with handler := h }).greet_keeps
    rw [startRead_new (hnow.trans hlast.symm) hpeer, roll_greet]
    rfl
  have hroll : s.roll.Listed ∧ s.roll.slack = 0 := by
    have hempty : ∀ (now timeOut : ℕ) (junk : ℕ → Http2FrameHeader),
        (init now timeOut junk).roll.Listed ∧ (init now timeOut junk).roll.slack = 0 :=
      fun now timeOut junk => ⟨⟨fun _ => rfl, fun hc => Bool.noConfusion hc,
        fun hc => Bool.noConfusion hc⟩, rfl⟩
    cases h with
    | server now timeOut junk =>
      exact (hserver now timeOut junk .statePreface).symm ▸ hempty now timeOut junk
    | serverH2c now timeOut junk =>
      exact (hserver now timeOut junk .statePrefaceEnd).symm ▸ hempty now timeOut junk
    | client now timeOut junk =>
      let t : KHttp2 := { init now timeOut junk with
        clientModel := true
        hasAdminStream := true
        lastSelfSid := 1
        processing := 1
        writeBuffer := (init now timeOut junk).writeBuffer.push [.ofBytes clientPreface] }
      have hgreet : t.greet.roll = ⟨[], [], 1, true, 0, false⟩ := t.roll_greet
      have hnew : (t.greet.newClientStream true).roll = ⟨[0], [], 1, true, 1, false⟩ := by
        have hclient : t.greet.clientModel = true := congrArg Roll.clientModel hgreet
        have hnext : t.greet.nextCtx = 0 := congrArg Roll.nextCtx hgreet
        have howners : t.greet.owners = [] := congrArg Roll.owners hgreet
        rw [newClientStream_spec t.greet true hclient]
        show (⟨t.greet.nextCtx :: t.greet.owners, t.greet.roll.pooled, t.greet.roll.processing,
          t.greet.roll.clientModel, t.greet.nextCtx + 1, t.greet.roll.deleted⟩ : Roll) = _
        rw [hgreet, hnext, howners]
      show (t.greet.newClientStream true).roll.Listed ∧
        (t.greet.newClientStream true).roll.slack = 0
      rw [hnew]
      exact ⟨⟨fun hc => Bool.noConfusion hc, fun _ => by decide, fun _ => by decide⟩, by decide⟩
  exact ⟨hroll.1, fun _ => hmanned, h.opened, fun _ => hroll.2⟩

/-- What happened on a stream, latest first. -/
def eventsOf (s : KHttp2) (c : CtxId) : List Ev := s.trace.filter fun e => e.about = some c

/-- Writers are served one after the other: what happened on a stream is in turn and agrees with
its `write_wait`, each wait was ended once unless it lasts, a writer that waits holds its stream
and the stream has its node, one buffer refers to a writer that is being written and none to any
other, and no writer is left when the connection is deleted. -/
structure ServesWriters (s : KHttp2) : Prop where
  turn : ∀ c, WriterTurn.of (s.eventsOf c) = some (ofWait (s.ctx c).writeWait)
  resumed : ∀ c, (s.eventsOf c).countP Ev.waitsWriter =
    (s.eventsOf c).countP Ev.wakesWriter + if (s.ctx c).writeSuspended then 1 else 0
  buffs : ∀ c, s.writeBuffer.header.countP (fun buff => buff.ctx = some c) =
    if (s.ctx c).writeWait.any WriteEvent.forWriting then 1 else 0
  held : ∀ c, (s.ctx c).writeSuspended = true → c ∈ s.owners ∧ (s.ctx c).node.isSome
  gone : s.deleted = true → ∀ c, (s.ctx c).writeSuspended = false

theorem Manned.servesWriters {s : KHttp2} (hs : Manned s) : ServesWriters s := by
  have hturn : ∀ c, WriterTurn.of (s.eventsOf c) = some (ofWait (s.ctx c).writeWait) := fun c => by
    have hevents : (s.seen c).events = (s.eventsOf c).filter Ev.isBody := by
      show (s.trace.filter Ev.isBody).filter _ = (s.trace.filter _).filter Ev.isBody
      simp only [List.filter_filter, Bool.and_comm]
    rw [← of_filter, ← hevents]
    exact (hs.turn c).turn
  refine ⟨hturn, fun c => ?_, fun c => (hs.turn c).buffs,
    fun c hc => ⟨hs.staffed c hc, hs.node c hc⟩, hs.gone⟩
  rw [WriterTurn.resumed (hturn c)]
  cases hsuspended : (s.ctx c).writeSuspended with
  | false => rw [if_pos ((ofWait_eq_idle _).mpr hsuspended), if_neg Bool.false_ne_true]
  | true =>
    have hbusy : ofWait (s.ctx c).writeWait ≠ .idle := fun hidle =>
      Bool.false_ne_true (((ofWait_eq_idle _).mp hidle).symm.trans hsuspended)
    rw [if_neg hbusy, if_pos rfl]

/-- In every state that a run reaches in which no request is dropped before it is started, writers
are served one after the other. -/
theorem servesWriters_run (codes : HuffDecodeCodes) {s : KHttp2} (hs : Starts s) (es : List Event)
    (hdrops : DropsNothing codes s es) : ServesWriters (run codes s es) := by
  obtain ⟨hsound, hhalted⟩ := sound_of_starts hs
  have htended : Tended (run codes s es) := by
    refine (persistent_tended codes).run es hsound hhalted
      (Along.imp (fun t e hdrop => ?_) es hdrops) hs.tended
    rintro call hcall ⟨hcomplete, hincomplete⟩
    exact hdrop (Or.inl ⟨call, hcall, hincomplete, Or.inl hcomplete⟩)
  refine (htended.manned (le_of_eq ?_)).servesWriters
  have hpath : Path (fun slip => slip ≠ .dropIncomplete) s (run codes s es) :=
    path_run codes es hsound hhalted (Along.imp (fun t e hdrop slip hslip heq => by
      subst heq
      exact hdrop hslip) es hdrops)
  cases hmodel : (run codes s es).clientModel with
  | true => exact (htended.client hmodel).symm
  | false =>
    -- a server counts the requests that run, and keeps no stream in a pool
    have hserver : s.clientModel = false := (hsound.clientModel_path hpath).symm.trans hmodel
    have hcount := (balanced_path (fun h => h rfl) hsound hserver (hs.balanced hserver).1 hpath)
      |>.processing
    have hpooled : (run codes s es).pooled = [] := htended.listed.server hmodel
    simp only [Roll.slack, roll, hpooled, List.length_nil]
    simp only [ledger, links] at hcount
    omega

/-- Two writes, of which the second is reset by the peer before the socket breaks. -/
def writesCutShort : List Event :=
  [.read (clientPreface ++ [0, 0, 1, 1, 5, 0, 0, 0, 1, 0x82]), .call 0 (.addStatus 200),
    .call 0 (.setContentLength 10), .call 0 (.write [[1, 2, 3]] 3), .written 68,
    .call 0 (.write [[4]] 1), .read [0, 0, 4, 3, 0, 0, 0, 0, 1, 0, 0, 0, 8], .writeError]

/-- The result at these writes: the first is resumed with its bytes, the second with an error. -/
theorem servesWriters_run_writesCutShort :
    ServesWriters (run (fun _ _ => ⟨0, 0, 0, 0⟩) (server 0 0 fun _ => .zero) writesCutShort) ∧
      ((run (fun _ _ => ⟨0, 0, 0, 0⟩) (server 0 0 fun _ => .zero) writesCutShort).eventsOf 0).filter
        (fun e => e.waitsWriter || e.wakesWriter) =
          [.wakeWrite 0 (-1), .waitWrite 0, .wakeWrite 0 3, .waitWrite 0] :=
  ⟨servesWriters_run _ (.server 0 0 fun _ => .zero) _ (by decide +kernel), by decide +kernel⟩

end KHttp2

end Khttpd
