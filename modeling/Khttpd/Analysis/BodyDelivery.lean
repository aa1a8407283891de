import Khttpd.Analysis.DataFrames
import Khttpd.Analysis.Opened
import Khttpd.Analysis.Persistent

/-!
# Bodies are delivered exactly

The bytes of a body reach its reader on two ways: a reader that waits gets them when they come,
and what nobody waits for is kept in the read buffer. On a stream that is not reset the bytes
handed to its readers, followed by those in the buffer, are the bytes that came in DATA frames: none
is lost, none comes twice, and the order is kept.
-/

set_option autoImplicit false

namespace Khttpd

/-- The body bytes that an event brings to a stream. -/
def Ev.brings (c : CtxId) : Ev → Bytes
  | .data c' bytes => if c' = c then bytes else []
  | _ => []

/-- The body bytes that an event hands to a reader of a stream. -/
def Ev.hands (c : CtxId) : Ev → Bytes
  | .copied c' bytes => if c' = c then bytes else []
  | _ => []

/-- The body of a stream as far as it came. -/
def broughtTo (c : CtxId) : List Ev → Bytes
  | [] => []
  | e :: trace => broughtTo c trace ++ e.brings c

/-- What the readers of a stream got. -/
def handedTo (c : CtxId) : List Ev → Bytes
  | [] => []
  | e :: trace => handedTo c trace ++ e.hands c

/-- What is seen of a stream has all of its body. -/
theorem broughtTo_filter (c : CtxId) (trace : List Ev) :
    broughtTo c ((trace.filter Ev.isBody).filter fun e => e.about = some c) =
      broughtTo c trace := by
  induction trace with
  | nil => rfl
  | cons e trace ih =>
    rw [List.filter_cons]
    cases hbody : e.isBody with
    | false =>
      have hnone : e.brings c = [] := by cases e <;> first | rfl | cases hbody
      simp only [Bool.false_eq_true, if_false, broughtTo, hnone, List.append_nil, ih]
    | true =>
      rw [if_pos rfl, List.filter_cons]
      by_cases habout : e.about = some c
      · simp only [habout, decide_true, if_true, broughtTo, ih]
      · have hnone : e.brings c = [] := by
          cases e with
          | data c' bytes => exact if_neg fun hc => habout (congrArg some hc)
          | _ => rfl
        simp only [habout, decide_false, Bool.false_eq_true, if_false, broughtTo, hnone,
          List.append_nil, ih]

theorem handedTo_filter (c : CtxId) (trace : List Ev) :
    handedTo c ((trace.filter Ev.isBody).filter fun e => e.about = some c) =
      handedTo c trace := by
  induction trace with
  | nil => rfl
  | cons e trace ih =>
    rw [List.filter_cons]
    cases hbody : e.isBody with
    | false =>
      have hnone : e.hands c = [] := by cases e <;> first | rfl | cases hbody
      simp only [Bool.false_eq_true, if_false, handedTo, hnone, List.append_nil, ih]
    | true =>
      rw [if_pos rfl, List.filter_cons]
      by_cases habout : e.about = some c
      · simp only [habout, decide_true, if_true, handedTo, ih]
      · have hnone : e.hands c = [] := by
          cases e with
          | copied c' bytes => exact if_neg fun hc => habout (congrArg some hc)
          | _ => rfl
        simp only [habout, decide_false, Bool.false_eq_true, if_false, handedTo, hnone,
          List.append_nil, ih]

namespace Seen

/-- Nothing came yet. -/
structure Untouched (v : Seen) (c : CtxId) : Prop where
  brought : broughtTo c v.events = []
  handed : handedTo c v.events = []
  buffer : v.part.readBuffer.getD [] = []

/-- Every byte that came was handed out or is kept. A reader that waits finds nothing kept. -/
structure Exact (v : Seen) (c : CtxId) : Prop where
  whole : broughtTo c v.events = handedTo c v.events ++ v.part.readBuffer.getD []
  reader : ∀ e ∈ v.part.readWait, e.header = false → v.part.readBuffer.getD [] = []

/-- The body of an open stream is exact. -/
def Delivers (v : Seen) (c : CtxId) : Prop :=
  v.part.node.isSome → v.part.rst = false → v.Exact c

theorem Untouched.exact {v : Seen} {c : CtxId} (h : v.Untouched c) : v.Exact c where
  whole := by rw [h.brought, h.handed, h.buffer, List.append_nil]
  reader _ _ _ := h.buffer

/-- An event that is neither about body bytes nor opens a stream. -/
def Plain (c : CtxId) (e : Ev) : Prop := e.brings c = [] ∧ e.hands c = [] ∧ e.opens c = false

/-- A change that adds such events only. -/
structure Grows (c : CtxId) (old new : List Ev) : Prop where
  brought : broughtTo c new = broughtTo c old
  handed : handedTo c new = handedTo c old
  opened : openings c new = openings c old

theorem Grows.refl (c : CtxId) (events : List Ev) : Grows c events events := ⟨rfl, rfl, rfl⟩

theorem Grows.cons {c : CtxId} {old new : List Ev} (h : Grows c old new) {e : Ev}
    (he : Plain c e) : Grows c old (e :: new) where
  brought := by rw [broughtTo, he.1, List.append_nil, h.brought]
  handed := by rw [handedTo, he.2.1, List.append_nil, h.handed]
  opened := (openings_cons he.2.2 new).trans h.opened

theorem Grows.onRead {c : CtxId} {old : List Ev} {v : Seen} (h : Grows c old v.events)
    (e : Option ReadEvent) (got : ℤ) : Grows c old (v.onRead c e got).events := by
  unfold Seen.onRead
  split
  · exact h.cons ⟨rfl, rfl, rfl⟩
  · exact h

theorem Grows.onWrite {c : CtxId} {old : List Ev} {v : Seen} (h : Grows c old v.events)
    (e : Option WriteEvent) (got : ℤ) : Grows c old (v.onWrite c e got).events := by
  unfold Seen.onWrite
  split
  · split
    · exact h
    · exact h.cons ⟨rfl, rfl, rfl⟩
  · exact h

/-- A change of a stream, as far as its body goes: its openings are counted, a stream that is not
touched stays so, and a stream that is not opened anew keeps its body exact. -/
structure Keeps (c : CtxId) (v w : Seen) : Prop where
  opened : openings c v.events ≤ openings c w.events
  untouched : v.Untouched c → w.Untouched c
  delivers : openings c w.events = openings c v.events → v.Delivers c → w.Delivers c

theorem Keeps.refl (c : CtxId) (v : Seen) : Keeps c v v := ⟨Nat.le_refl _, id, fun _ h => h⟩

theorem Keeps.trans {c : CtxId} {u v w : Seen} (huv : Keeps c u v) (hvw : Keeps c v w) :
    Keeps c u w where
  opened := huv.opened.trans hvw.opened
  untouched h := hvw.untouched (huv.untouched h)
  delivers heq h := by
    have h1 := huv.opened
    have h2 := hvw.opened
    exact hvw.delivers (by omega) (huv.delivers (by omega) h)

/-- A change that leaves the buffer alone and adds plain events. -/
theorem Keeps.of_grows {c : CtxId} {v w : Seen} (hevents : Grows c v.events w.events)
    (hbuffer : w.part.readBuffer = v.part.readBuffer)
    (hreader : w.part.node.isSome → w.part.rst = false → v.part.node.isSome ∧ v.part.rst = false ∧
      ∀ e ∈ w.part.readWait, e.header = false → v.Exact c → v.part.readBuffer.getD [] = []) :
    Keeps c v w where
  opened := hevents.opened.ge
  untouched h := ⟨hevents.brought.trans h.brought, hevents.handed.trans h.handed, by
    rw [hbuffer]
    exact h.buffer⟩
  delivers _ h hnode hrst := by
    obtain ⟨hnode, hrst, hwait⟩ := hreader hnode hrst
    have hold := h hnode hrst
    refine ⟨?_, fun e he hheader => ?_⟩
    · rw [hevents.brought, hevents.handed, hbuffer]
      exact hold.whole
    · rw [hbuffer]
      exact hwait e he hheader hold

end Seen

namespace KHttp2

open Seen

/-- Every change but the taking of DATA. -/
theorem keeps_change {kinds : Kind → Prop} (hdata : ¬kinds .data) {c : CtxId} {v w : Seen}
    (h : Change kinds c v w) : Keeps c v w := by
  have hquiet : ∀ {w : Seen}, Grows c v.events w.events → w.part.readBuffer = v.part.readBuffer →
      w.part.readWait = v.part.readWait →
      (w.part.node.isSome → w.part.rst = false → v.part.node.isSome ∧ v.part.rst = false) →
      Keeps c v w := by
    intro w hevents hbuffer hwait hopen
    refine .of_grows hevents hbuffer fun hnode hrst => ?_
    obtain ⟨hnode, hrst⟩ := hopen hnode hrst
    exact ⟨hnode, hrst, fun e he hheader hold => hold.reader e (hwait ▸ he) hheader⟩
  cases h with
  | queued frame _ _ =>
    exact hquiet ((Grows.refl c _).cons ⟨rfl, rfl, rfl⟩) rfl rfl fun h h' => ⟨h, h'⟩
  | link sid hnone =>
    have hopened : openings c (.openNode c sid :: v.events) = openings c v.events + 1 :=
      openings_open c sid v.events
    refine ⟨?_, fun h => ⟨?_, ?_, h.buffer⟩, fun heq => ?_⟩
    · exact (Nat.le_succ _).trans hopened.ge
    · exact (List.append_nil _).trans h.brought
    · exact (List.append_nil _).trans h.handed
    · exact absurd (hopened.symm.trans heq) (Nat.succ_ne_self _)
  | output frame _ _ =>
    exact hquiet ((Grows.refl c _).cons ⟨rfl, rfl, rfl⟩) rfl rfl fun h h' => ⟨h, h'⟩
  | closeOut fin _ => exact hquiet (.refl c _) rfl rfl fun h h' => ⟨h, h'⟩
  | closeIn => exact hquiet (.refl c _) rfl rfl fun h h' => ⟨h, h'⟩
  | hup w _ _ => exact hquiet (.refl c _) rfl rfl fun h h' => ⟨h, h'⟩
  | suspend e _ _ _ =>
    exact hquiet ((Grows.refl c _).cons ⟨rfl, rfl, rfl⟩) rfl rfl fun h h' => ⟨h, h'⟩
  | send e total fin frame _ _ _ _ =>
    exact hquiet ((Grows.refl c _).cons ⟨rfl, rfl, rfl⟩) rfl rfl fun h h' => ⟨h, h'⟩
  | clean fin _ =>
    have hpart : (v.clean c fin).part = { v.part with writeWait := none } := by
      simp only [Seen.clean, Seen.part_onWrite, Seen.part_set]
    refine hquiet ?_ (by rw [hpart]) (by rw [hpart]) fun hnode hrst => ?_
    · have hset : Grows c v.events ({ v with buffs := v.buffs - 1 }.set fun part =>
          { part with writeWait := none }).events := .refl c _
      exact hset.onWrite _ _
    · rw [hpart] at hnode hrst
      exact ⟨hnode, hrst⟩
  | reset rst clear hrst =>
    have hpart : (v.reset c rst clear).part.rst = true ∧
        (v.part.readBuffer.getD [] = [] → (v.reset c rst clear).part.readBuffer.getD [] = []) := by
      unfold Seen.reset
      simp only [Seen.part_onWrite, Seen.part_onRead]
      cases hbuffer : v.part.readBuffer <;> cases clear <;> cases rst <;> simp [hbuffer]
    have hevents : Grows c v.events (v.reset c rst clear).events := by
      unfold Seen.reset
      refine Grows.onWrite (Grows.onRead ?_ _ _) _ _
      have hreset : Grows c v.events (.reset c :: v.events) := (Grows.refl c _).cons ⟨rfl, rfl, rfl⟩
      cases clear <;> cases rst
      · exact hreset
      · exact hreset.cons ⟨rfl, rfl, rfl⟩
      · exact hreset
      · exact hreset.cons ⟨rfl, rfl, rfl⟩
    refine ⟨hevents.opened.ge, fun h => ⟨?_, ?_, hpart.2 h.buffer⟩, fun _ _ _ hopen => ?_⟩
    · exact hevents.brought.trans h.brought
    · exact hevents.handed.trans h.handed
    · exact absurd (hopen.symm.trans hpart.1) Bool.false_ne_true
  | refill frame hopen hlow _ =>
    exact hquiet (((Grows.refl c _).cons ⟨rfl, rfl, rfl⟩).cons ⟨rfl, rfl, rfl⟩) rfl rfl
      fun h h' => ⟨h, h'⟩
  | copy len hfull =>
    have hne : v.part.readBuffer.getD [] ≠ [] := fun h => hfull (by rw [strLen, h]; rfl)
    refine ⟨?_, fun h => absurd h.buffer hne, fun _ hold hnode hrst => ⟨?_, fun e he hheader => ?_⟩⟩
    · exact Nat.le_of_eq rfl
    · have hwhole := (hold hnode hrst).whole
      simp only [Seen.log, Seen.set, broughtTo, handedTo, Ev.brings, Ev.hands, if_true,
        List.append_nil, Option.getD_some, List.append_assoc, List.take_append_drop]
      exact hwhole
    · exact absurd ((hold hnode hrst).reader e he hheader) hne
  | returns got _ _ =>
    exact hquiet ((Grows.refl c _).cons ⟨rfl, rfl, rfl⟩) rfl rfl fun h h' => ⟨h, h'⟩
  | readWait len hempty _ hopen hwindow =>
    refine .of_grows (.refl c _) rfl fun hnode hrst => ⟨hnode, hrst, fun _ _ _ _ => ?_⟩
    exact List.eq_nil_of_length_eq_zero hempty
  | headerWait w hw =>
    refine .of_grows (.refl c _) rfl fun hnode hrst => ⟨hnode, hrst, fun e he hheader hold => ?_⟩
    rcases hw e he with htrue | ⟨e', he', heq⟩
    · exact absurd (htrue.symm.trans hheader) Bool.noConfusion
    · exact hold.reader e' he' (heq.trans hheader)
  | headerWake w hw _ =>
    have hpart : ((v.set fun part => { part with readWait := w }).onRead c v.part.readWait 0).part =
        { v.part with readWait := w } := by
      simp only [Seen.part_onRead, Seen.part_set]
    have hset : Grows c v.events (v.set fun part => { part with readWait := w }).events := .refl c _
    refine .of_grows (hset.onRead _ _) (by rw [hpart]) fun hnode hrst => ?_
    rw [hpart] at hnode hrst ⊢
    refine ⟨hnode, hrst, fun e he hheader hold => ?_⟩
    obtain ⟨e', he', heq⟩ := hw e he
    exact hold.reader e' he' (heq.trans hheader)
  | headersIn fin _ hopen =>
    cases fin with
    | true => exact hquiet ((Grows.refl c _).cons ⟨rfl, rfl, rfl⟩) rfl rfl fun h h' => ⟨h, h'⟩
    | false => exact hquiet (.refl c _) rfl rfl fun h h' => ⟨h, h'⟩
  | openStream sid fin =>
    have hevents : ∃ events, Grows c v.events events ∧
        ((if fin then (v.set fun _ => .init (some sid) fin).log (.endStream c)
          else v.set fun _ => .init (some sid) fin).log (.openNode c sid)).events =
            .openNode c sid :: events := by
      cases fin with
      | true => exact ⟨_, (Grows.refl c _).cons ⟨rfl, rfl, rfl⟩, rfl⟩
      | false => exact ⟨_, .refl c _, rfl⟩
    have hbuffer : ((if fin then (v.set fun _ => .init (some sid) fin).log (.endStream c)
        else v.set fun _ => .init (some sid) fin).log (.openNode c sid)).part.readBuffer.getD [] =
          [] := by
      cases fin <;> rfl
    obtain ⟨events, hgrows, heq⟩ := hevents
    have hopened : openings c (.openNode c sid :: events) = openings c v.events + 1 :=
      (openings_open c sid events).trans (congrArg (· + 1) hgrows.opened)
    refine ⟨?_, fun h => ⟨?_, ?_, hbuffer⟩, fun hsame => ?_⟩
    · rw [heq, hopened]
      exact Nat.le_succ _
    · rw [heq]
      exact (List.append_nil _).trans (hgrows.brought.trans h.brought)
    · rw [heq]
      exact (List.append_nil _).trans (hgrows.handed.trans h.handed)
    · rw [heq, hopened] at hsame
      exact absurd hsame (Nat.succ_ne_self _)
  | newStream =>
    refine ⟨Nat.le_refl _, fun h => ⟨h.brought, h.handed, rfl⟩, fun _ _ hnode => ?_⟩
    cases hnode
  | release rst hrst _ =>
    have hpart : (v.release c rst).part.node = none ∧
        (v.release c rst).part.readBuffer = v.part.readBuffer := by
      unfold Seen.release
      cases rst <;> simp only [Option.elim] <;> split <;>
        simp only [Seen.part_log, Seen.part_set, and_self]
    have hevents : Grows c v.events (v.release c rst).events := by
      unfold Seen.release
      have hreset : Grows c v.events (.reset c :: v.events) := (Grows.refl c _).cons ⟨rfl, rfl, rfl⟩
      cases rst <;> simp only [Option.elim] <;> split
      · exact hreset
      · exact .refl c _
      · exact hreset.cons ⟨rfl, rfl, rfl⟩
      · exact (Grows.refl c _).cons ⟨rfl, rfl, rfl⟩
    refine .of_grows hevents hpart.2 fun hnode => ?_
    rw [hpart.1] at hnode
    cases hnode
  | chargeStream length hkind _ => exact absurd hkind hdata
  | takeData taken merge hkind => exact absurd hkind hdata
  | takeEnd hkind => exact absurd hkind hdata

/-- All effects but the taking of DATA. -/
theorem keeps_effects {kinds : Kind → Prop} (hdata : ¬kinds .data) {s t : KHttp2}
    (h : Effects kinds s t) (c : CtxId) : Keeps c (s.seen c) (t.seen c) := by
  let kinds' : Kind → Prop := fun kind => kinds kind ∨ kind = .drop
  have hkinds : ¬kinds' .data := fun h => h.elim hdata nofun
  induction h with
  | refl => exact .refl c _
  | tail _ heffect ih =>
    have hchanges : Changes kinds' c _ _ :=
      changes_effect c heffect (fun _ => Or.inl) (Or.inl (Or.inr rfl))
    refine Relation.ReflTransGen.rec (motive := fun v _ => Keeps c _ v) ih ?_ hchanges
    exact fun _ hchange hv => hv.trans (keeps_change hkinds hchange)

end KHttp2

namespace Seen

variable {c : CtxId}

theorem brought_logData (v : Seen) (bytes : Bytes) (merge : Bool) :
    broughtTo c (v.logData c bytes merge).events = broughtTo c v.events ++ bytes := by
  unfold logData
  split
  · rename_i c' old events _ hevents
    rw [hevents]
    split
    · rename_i hc
      subst hc
      simp only [broughtTo, Ev.brings, if_true, List.append_assoc]
    · simp only [log, hevents, broughtTo, Ev.brings, if_true]
  · simp only [log, broughtTo, Ev.brings, if_true]

theorem handed_logData (v : Seen) (bytes : Bytes) (merge : Bool) :
    handedTo c (v.logData c bytes merge).events = handedTo c v.events := by
  unfold logData
  split
  · rename_i c' old events _ hevents
    rw [hevents]
    split
    · simp only [handedTo, Ev.hands]
    · simp only [log, hevents, handedTo, Ev.hands, List.append_nil]
  · simp only [log, handedTo, Ev.hands, List.append_nil]

theorem openings_logData (v : Seen) (bytes : Bytes) (merge : Bool) :
    openings c (v.logData c bytes merge).events = openings c v.events := by
  have hplain : ∀ (bytes : Bytes) (events : List Ev),
      openings c (.data c bytes :: events) = openings c events := fun _ _ => openings_cons rfl _
  unfold logData
  split
  · rename_i c' old events _ hevents
    rw [hevents]
    split
    · rename_i hc
      subst hc
      rw [hplain, hplain]
    · rw [log, hplain, hevents]
  · exact hplain _ _

/-- What a reader that is resumed leaves of the body. -/
structure Passes (c : CtxId) (v w : Seen) : Prop where
  brought : broughtTo c w.events = broughtTo c v.events
  opened : openings c w.events = openings c v.events
  whole : handedTo c w.events ++ w.part.readBuffer.getD [] =
    handedTo c v.events ++ v.part.readBuffer.getD []

theorem Passes.onRead {v w : Seen} (h : Passes c v w) (e : Option ReadEvent) (got : ℤ) :
    Passes c v (w.onRead c e got) := by
  have hgrows := Grows.onRead (Grows.refl c w.events) e got
  refine ⟨hgrows.brought.trans h.brought, hgrows.opened.trans h.opened, ?_⟩
  rw [hgrows.handed, part_onRead]
  exact h.whole

/-- A reader that waits is resumed with the end, or with what is kept as far as it has room. -/
theorem passes_wakeReader (v : Seen) (fin : Bool) : Passes c v (v.wakeReader c fin) := by
  unfold wakeReader
  split
  · exact ⟨rfl, rfl, rfl⟩
  · rename_i e hsome
    cases fin with
    | true =>
      rw [if_pos rfl]
      refine Passes.onRead ?_ (some e) 0
      exact ⟨rfl, rfl, rfl⟩
    | false =>
      refine Passes.onRead ⟨List.append_nil _, openings_cons rfl _, ?_⟩ (some e) _
      simp only [log, set, handedTo, Ev.hands, if_true, Option.getD_some, List.append_assoc,
        List.take_append_drop]

/-- Nobody waits after the reader is resumed. -/
theorem readWait_wakeReader (v : Seen) (fin : Bool) :
    (v.wakeReader c fin).part.readWait = none := by
  rw [part_wakeReader]
  cases hwait : v.part.readWait with
  | none => exact hwait
  | some e => rfl

/-- The stream that a reader waits on stays what it is. -/
theorem open_wakeReader (v : Seen) (fin : Bool) :
    (v.wakeReader c fin).part.node = v.part.node ∧ (v.wakeReader c fin).part.rst = v.part.rst := by
  rw [part_wakeReader]
  cases v.part.readWait with
  | none => exact ⟨rfl, rfl⟩
  | some e => exact ⟨rfl, rfl⟩

/-- Bytes that are kept and then passed on. -/
theorem Delivers.pass {v w : Seen} (h : v.Delivers c) (fin : Bool)
    (hopen : w.part.node = v.part.node ∧ w.part.rst = v.part.rst)
    (hwhole : v.Exact c →
      broughtTo c w.events = handedTo c w.events ++ w.part.readBuffer.getD []) :
    (w.wakeReader c fin).Delivers c := by
  intro hnode hrst
  have hpass := passes_wakeReader (c := c) w fin
  obtain ⟨hsame, hsame'⟩ := open_wakeReader (c := c) w fin
  rw [hsame, hopen.1] at hnode
  rw [hsame', hopen.2] at hrst
  refine ⟨?_, fun e he => ?_⟩
  · rw [hpass.brought, hpass.whole]
    exact hwhole (h hnode hrst)
  · rw [readWait_wakeReader] at he
    cases he

/-- The bytes of a DATA frame that come in one read. -/
theorem Delivers.takeData {v : Seen} (h : v.Delivers c) {taken : Bytes}
    (hshort : taken.length < 2 ^ 16) (merge : Bool) : (v.takeData c taken merge).Delivers c := by
  unfold Seen.takeData
  extract_lets bytes w
  have hbytes : bytes = taken := by
    rw [show bytes = taken.take (taken.length % 2 ^ 16) from rfl, Nat.mod_eq_of_lt hshort,
      List.take_length]
  refine Delivers.pass h false ?_ fun hexact => ?_
  · simp only [part_logData, w, part_set, and_self]
  · rw [brought_logData, handed_logData, part_logData]
    simp only [w, set, hbytes, Option.getD_some, ← List.append_assoc, hexact.whole]

/-- The end of a DATA frame that ends the stream. -/
theorem Delivers.takeEnd {v : Seen} (h : v.Delivers c) : (v.takeEnd c).Delivers c := by
  refine Delivers.pass h true ⟨rfl, rfl⟩ fun hexact => ?_
  simp only [log, set, broughtTo, handedTo, Ev.brings, Ev.hands, List.append_nil]
  exact hexact.whole

theorem openings_takeData (v : Seen) (taken : Bytes) (merge : Bool) :
    openings c (v.takeData c taken merge).events = openings c v.events :=
  (passes_wakeReader _ false).opened.trans (openings_logData _ _ merge)

theorem openings_takeEnd (v : Seen) : openings c (v.takeEnd c).events = openings c v.events :=
  (passes_wakeReader _ true).opened.trans (openings_cons rfl _)

end Seen

namespace KHttp2

open Seen

/-! ## The handlers of DATA frames -/

/-- What is seen of a stream has all of its openings. -/
theorem openings_seen (s : KHttp2) (c : CtxId) :
    openings c (s.seen c).events = openings c s.trace := by
  simp only [openings, seen, body, Body.seen, List.countP_filter]
  congr 1
  funext e
  cases e with
  | openNode c' sid => by_cases hc : c' = c <;> simp [Ev.opens, Ev.isBody, Ev.about, hc]
  | _ => simp [Ev.opens]

/-- Every body is delivered exactly, and a stream that was not opened has none. -/
structure Delivered (s : KHttp2) : Prop where
  opened : Opened s
  untouched : ∀ c, openings c s.trace = 0 → (s.seen c).Untouched c
  delivers : ∀ c, (s.seen c).Delivers c

/-- A step that keeps bodies exact. -/
theorem Delivered.of_keeps {s t : KHttp2} (hs : Delivered s) (ht : Opened t)
    (h : ∀ c, Keeps c (s.seen c) (t.seen c)) : Delivered t := by
  have hgrows : ∀ c, openings c s.trace ≤ openings c t.trace := fun c => by
    rw [← openings_seen s, ← openings_seen t]
    exact (h c).opened
  have huntouched : ∀ c, openings c s.trace = 0 → (t.seen c).Untouched c :=
    fun c hc => (h c).untouched (hs.untouched c hc)
  refine ⟨ht, fun c hc => huntouched c (Nat.le_zero.mp (hc ▸ hgrows c)), fun c => ?_⟩
  by_cases hzero : openings c s.trace = 0
  · exact fun _ _ => (huntouched c hzero).exact
  · refine (h c).delivers ?_ (hs.delivers c)
    have hone := ht.once c
    have hle := hgrows c
    rw [openings_seen s, openings_seen t]
    omega

/-- The head of a DATA frame. -/
theorem keeps_stateData (s : KHttp2) (p : Bytes) (c : CtxId) :
    Keeps c (s.seen c) ((s.stateData p).1.seen c) := by
  have hcharge : ∀ (t : KHttp2) (c' : CtxId) (length : ℕ),
      Keeps c (t.seen c) ((t.useStreamWindow c' length).seen c) := by
    intro t c' length
    by_cases hc : c' = c
    · subst hc
      rw [useStreamWindow, t.seen_modify c' _
        (fun part => { part with recvWindow := part.recvWindow - length }) rfl]
      exact .of_grows (.refl c' _) rfl
        fun hnode hrst => ⟨hnode, hrst, fun e he hheader hold => hold.reader e he hheader⟩
    · rw [useStreamWindow, t.seen_modify_other hc]
      exact .refl c _
  have hstart := s.stateData_cases p
  generalize s.stateData p = start at hstart
  cases hstart with
  | failed t status hstill =>
    have heffects : Effects (· ≠ .data) s (t.fail status).1 :=
      (effects_parse hstill.body (by decide)).trans (t.effects_fail status)
    exact keeps_effects (fun h => h rfl) heffects c
  | waits _ => exact .refl c _
  | flows t q hstill hsid hstream hflags hlength hwindow =>
    obtain ⟨hstate, hctx, hnode, hseen⟩ := t.useRecvWindow_keeps
    have hout : DataOut (· ≠ .data) t.useRecvWindow.1 q
        (t.useRecvWindow.1.dataStream t.useRecvWindow.2 q) := dataStream_cases _ _ _ (by decide)
    have hsame : t.useRecvWindow.1.seen c = s.seen c := by
      rw [hseen c, seen_of_body hstill.body]
    generalize t.useRecvWindow.1 = u at hout hsame
    generalize u.dataStream t.useRecvWindow.2 q = r at hout
    rw [← hsame]
    cases hout with
    | refused w heffects _ _ => exact keeps_effects (fun h => h rfl) heffects c
    | closed n w hn hroom hclosed heffects _ hstill =>
      exact (hcharge u n.stream u.state.length).trans (keeps_effects (fun h => h rfl) heffects c)
    | taken n w hn hroom hopen heffects hseen hstate =>
      exact (hcharge u n.stream u.state.length).trans (keeps_effects (fun h => h rfl) heffects c)

/-- The bytes of a DATA frame come, in a read that is no longer than the buffer. -/
theorem delivered_stateReadData {s : KHttp2} {p : Bytes} (hp : p.length < 2 ^ 16)
    (hs : Delivered s) (ht : Opened (s.stateReadData p).1) :
    Delivered (s.stateReadData p).1 := by
  cases hstream : s.state.stream with
  | none =>
    have hskip : s.stateReadData p = s.stateSkipPadded p := by
      unfold stateReadData
      rw [hstream]
    rw [hskip] at ht ⊢
    exact hs.of_keeps ht fun c => .refl c _
  | some c =>
    have hopen := hs.opened.stream c hstream
    -- what is taken reaches the one stream, which was opened, and no other
    have htake : ∀ (t : KHttp2) (taken : Bytes), taken.length ≤ p.length →
        (t.body = if taken = [] then s.body else (s.takeData c taken).body) →
        (t.seen c).Delivers c ∧ openings c (t.seen c).events = 1 ∧
          ∀ c', c ≠ c' → t.seen c' = s.seen c' := by
      intro t taken hle hbody
      have hone : openings c (s.seen c).events = 1 := (s.openings_seen c).trans hopen
      by_cases hempty : taken = []
      · rw [if_pos hempty] at hbody
        have hsame := fun c' => seen_of_body hbody c'
        rw [hsame]
        exact ⟨hs.delivers c, hone, fun c' _ => hsame c'⟩
      · rw [if_neg hempty] at hbody
        obtain ⟨merge, heq⟩ := s.seen_takeData c taken
        rw [seen_of_body hbody, heq]
        refine ⟨(hs.delivers c).takeData (Nat.lt_of_le_of_lt hle hp) merge,
          (openings_takeData _ _ merge).trans hone, fun c' hc => ?_⟩
        rw [seen_of_body hbody, s.seen_takeData_other hc taken]
    have hdone : ∀ (t : KHttp2), Opened t → (t.seen c).Delivers c →
        openings c (t.seen c).events = 1 → (∀ c', c ≠ c' → t.seen c' = s.seen c') →
        Delivered t := by
      intro t ht hdelivers hone hother
      have hsame : ∀ c', c ≠ c' → openings c' t.trace = openings c' s.trace := fun c' hc => by
        rw [← openings_seen t, ← openings_seen s, hother c' hc]
      refine ⟨ht, fun c' hc' => ?_, fun c' => ?_⟩
      · by_cases hc : c = c'
        · subst hc
          rw [← openings_seen t, hone] at hc'
          cases hc'
        · rw [hother c' hc]
          exact hs.untouched c' ((hsame c' hc).symm.trans hc')
      · by_cases hc : c = c'
        · subst hc
          exact hdelivers
        · rw [hother c' hc]
          exact hs.delivers c'
    have hcases := stateReadData_cases p hstream
    generalize s.stateReadData p = r at hcases ht
    cases hcases with
    | waits t taken htaken hshort hbody hlength hheld =>
      obtain ⟨hdelivers, hone, hother⟩ := htake t taken hshort hbody
      exact hdone t ht hdelivers hone hother
    | done t u taken ret htaken hshort hbody hu hret hnext =>
      obtain ⟨hdelivers, hone, hother⟩ := htake t taken hshort hbody
      by_cases hend : hasFlag s.state.flags endStreamFlag = true
      · rw [if_pos hend] at hu
        refine hdone u ht ?_ ?_ fun c' hc => ?_
        · rw [seen_of_body hu, t.seen_takeEnd c]
          exact hdelivers.takeEnd
        · rw [seen_of_body hu, t.seen_takeEnd c]
          exact (openings_takeEnd _).trans hone
        · rw [seen_of_body hu, t.seen_takeEnd_other hc]
          exact hother c' hc
      · rw [if_neg hend] at hu
        have hsame := fun c' => seen_of_body hu c'
        refine hdone u ht ?_ ?_ fun c' hc => (hsame c').trans (hother c' hc)
        · rw [hsame]
          exact hdelivers
        · rw [hsame]
          exact hone

/-- Every handler keeps bodies exact. -/
theorem delivered_exec (codes : HuffDecodeCodes) {h : Handler} {s : KHttp2} {p : Bytes}
    (hsound : Sound s) (hp : p.length ≤ readBufferSize) (hs : Delivered s) :
    Delivered (exec codes h s p).1 := by
  have hpath : Path (fun _ => True) s (exec codes h s p).1 :=
    pathOut_exec codes hsound (fun _ _ => trivial) (fun _ _ _ _ => trivial) (fun _ _ => trivial)
      fun _ _ => trivial
  have ht := hs.opened.path hsound hpath
  by_cases hdata : h = .stateData
  · subst hdata
    exact hs.of_keeps ht (s.keeps_stateData p)
  · by_cases hread : h = .stateReadData
    · subst hread
      exact delivered_stateReadData (Nat.lt_of_le_of_lt hp (by decide)) hs ht
    · have heffects : Effects (· ≠ .data) s (exec codes h s p).1 :=
        effects_exec nofun codes h s p nofun (fun h => h.elim (absurd · hdata) (absurd · hread))
          (fun _ _ => ⟨nofun, nofun⟩) fun _ _ => nofun
      exact hs.of_keeps ht fun c => keeps_effects (fun h => h rfl) heffects c

/-! ## Runs -/

/-- A step between two reads. -/
theorem Delivered.between {s t : KHttp2} (hsound : Sound s) (hs : Delivered s)
    (hpath : Path (fun _ => True) s t) (heffects : Effects Kind.betweenReads s t) :
    Delivered t :=
  hs.of_keeps (hs.opened.path hsound hpath)
    fun c => keeps_effects (fun h => by rcases h with h | h <;> cases h) heffects c

/-- A step that only stores something for the parser. -/
theorem Delivered.store {s t : KHttp2} (hs : Delivered s) (hquiet : Quiet s t)
    (hbody : t.body = s.body) : Delivered t :=
  hs.of_keeps (hs.opened.quiet hquiet) fun c => by
    rw [seen_of_body hbody]
    exact .refl c _

/-- Bodies stay exact whatever happens. -/
theorem persistent_delivered (codes : HuffDecodeCodes) :
    Persistent codes (fun _ _ _ => True) Delivered where
  store hquiet hbody hs := hs.store hquiet hbody
  exec hsound hp _ hs := delivered_exec codes hsound hp hs
  startRead {s} hsound hs := by
    have hend : PathOut (fun _ => True) s (s.startRead, .null) := s.pathOut_startRead .null
    exact hs.between hsound (hend fun _ _ => trivial) s.effects_startRead
  act {s e} hsound hpath henabled hread hs := hs.between hsound hpath
    (effects_act codes s e henabled hread (Or.inl rfl) (Or.inr rfl))

/-- Nothing came to a connection that starts. -/
theorem Starts.delivered {s : KHttp2} (h : Starts s) : Delivered s := by
  have huntouched : ∀ c, (s.seen c).Untouched c := fun c => by
    rw [h.seen c]
    exact ⟨rfl, rfl, rfl⟩
  exact ⟨h.opened, fun c _ => huntouched c, fun c _ _ => (huntouched c).exact⟩

/-- Every reachable state keeps bodies exact. -/
theorem delivered_run (codes : HuffDecodeCodes) {s : KHttp2} (hs : Starts s) (es : List Event) :
    Delivered (run codes s es) := by
  obtain ⟨hsound, hhalted⟩ := sound_of_starts hs
  exact (persistent_delivered codes).run es hsound hhalted
    (Along.of_forall (fun _ _ _ _ => trivial) s es) hs.delivered

/-! ## What a reader is told -/

/-- What `read` does before it looks at the buffer: it leaves the buffer, what was handed out and
the closing marks of the stream alone. -/
structure ReadsOn (c : CtxId) (s t : KHttp2) : Prop where
  buffer : (t.ctx c).readBuffer = (s.ctx c).readBuffer
  rst : (t.ctx c).rst = (s.ctx c).rst
  inClosed : (t.ctx c).inClosed = (s.ctx c).inClosed
  handed : handedTo c t.trace = handedTo c s.trace

theorem ReadsOn.trans {c : CtxId} {s t u : KHttp2} (hst : ReadsOn c s t) (htu : ReadsOn c t u) :
    ReadsOn c s u :=
  ⟨htu.buffer.trans hst.buffer, htu.rst.trans hst.rst, htu.inClosed.trans hst.inClosed,
    htu.handed.trans hst.handed⟩

theorem readsOn_modify {c : CtxId} {s : KHttp2} {f : KHttp2Context → KHttp2Context}
    (hbuffer : (f (s.ctx c)).readBuffer = (s.ctx c).readBuffer)
    (hrst : (f (s.ctx c)).rst = (s.ctx c).rst)
    (hclosed : (f (s.ctx c)).inClosed = (s.ctx c).inClosed) : ReadsOn c s (s.modify c f) := by
  refine ⟨?_, ?_, ?_, rfl⟩
  all_goals simp only [modify, Function.update_self]
  · exact hbuffer
  · exact hrst
  · exact hclosed

/-- A step that changes no stream and hands nothing out. -/
theorem ReadsOn.of_ctx {c : CtxId} {s t : KHttp2} (hctx : t.ctx = s.ctx)
    (hhanded : handedTo c t.trace = handedTo c s.trace) : ReadsOn c s t := by
  refine ⟨?_, ?_, ?_, hhanded⟩
  all_goals rw [hctx]

theorem readsOn_startWrite (s : KHttp2) (c : CtxId) : ReadsOn c s s.startWrite := by
  unfold startWrite
  split <;> exact .of_ctx rfl rfl

theorem readsOn_pushEmptyData (s : KHttp2) (c : CtxId) (flags : UInt8) :
    ReadsOn c s (s.pushEmptyData c flags) := by
  unfold pushEmptyData
  extract_lets s1
  have h1 : ReadsOn c s s1 := by
    dsimp only [s1]
    split <;> exact .of_ctx rfl rfl
  exact h1.trans (.of_ctx rfl (List.append_nil _))

theorem readsOn_checkRecvWindow (s : KHttp2) (c : CtxId) :
    ReadsOn c s (s.checkRecvWindow c).1 := by
  unfold checkRecvWindow
  extract_lets ctx r
  split
  · exact .of_ctx rfl rfl
  · split
    · have hr : ReadsOn c s r.1 := by
        simp only [r, sendWindowUpdate]
        split
        · exact .of_ctx rfl rfl
        · exact .of_ctx rfl ((List.append_nil _).trans (List.append_nil _))
      have hwindow : ReadsOn c r.1 (r.1.modify c fun ctx =>
          { ctx with recvWindow := streamRecvWindow }) := readsOn_modify rfl rfl rfl
      exact hr.trans hwindow
    · exact .of_ctx rfl rfl

/-- `read` looks at the buffer, and then at the closing marks. -/
theorem read_eq (s : KHttp2) (c : CtxId) (len : ℕ) :
    ∃ u, ReadsOn c s u ∧ s.read c len =
      if strLen (u.ctx c).readBuffer ≠ 0 then
        ((u.copyReadBuffer c len).1.log (.readReturns c (u.copyReadBuffer c len).2),
          some ((u.copyReadBuffer c len).2 : ℤ))
      else if (u.ctx c).rst then (u.log (.readReturns c (-1)), some (-1))
      else if (u.ctx c).inClosed then (u.log (.readReturns c 0), some 0)
      else ((u.modify c fun ctx => { ctx with readWait := some ⟨true, false, len⟩ }).addQueue c,
        none) := by
  unfold read
  extract_lets s1 ctx s2 r s3
  have h1 : ReadsOn c s s1 := readsOn_modify rfl rfl rfl
  have h2 : ReadsOn c s1 s2 := by
    dsimp only [s2]
    split
    · exact (readsOn_modify rfl rfl rfl).trans (readsOn_pushEmptyData _ c _)
    · exact .of_ctx rfl rfl
  have h3 : ReadsOn c r.1 s3 := by
    dsimp only [s3]
    split
    · exact r.1.readsOn_startWrite c
    · exact .of_ctx rfl rfl
  exact ⟨s3, h1.trans (h2.trans ((s2.readsOn_checkRecvWindow c).trans h3)), rfl⟩

/-- Bodies of streams that are not reset are delivered exactly: the readers got a prefix of what
came, and the rest is kept; a reader waits only when it got everything; a call of `read` that ends
the body comes after the end of the stream when everything was handed out, and one that returns
bytes hands out the next ones. -/
structure DeliversBodies (s : KHttp2) : Prop where
  whole : ∀ c, (s.ctx c).node.isSome → (s.ctx c).rst = false →
    broughtTo c s.trace = handedTo c s.trace ++ (s.ctx c).readBuffer.getD []
  waiting : ∀ c, (s.ctx c).node.isSome → (s.ctx c).rst = false → (s.ctx c).bodyReader = true →
    handedTo c s.trace = broughtTo c s.trace
  ends : ∀ c len, (s.ctx c).node.isSome → (s.ctx c).rst = false → 0 < len →
    (s.read c len).2 = some 0 →
      (s.ctx c).inClosed = true ∧ handedTo c s.trace = broughtTo c s.trace
  gives : ∀ c len n, (s.ctx c).node.isSome → (s.ctx c).rst = false →
    (s.read c len).2 = some n → 0 < n → n ≤ len ∧
      handedTo c (s.read c len).1.trace =
        (broughtTo c s.trace).take ((handedTo c s.trace).length + n.toNat)

/-- In every reachable state bodies are delivered exactly. -/
theorem deliversBodies_run (codes : HuffDecodeCodes) {s : KHttp2} (hs : Starts s)
    (es : List Event) : DeliversBodies (run codes s es) := by
  have hdelivered := delivered_run codes hs es
  generalize run codes s es = t at hdelivered
  have hexact : ∀ c, (t.ctx c).node.isSome → (t.ctx c).rst = false →
      broughtTo c t.trace = handedTo c t.trace ++ (t.ctx c).readBuffer.getD [] ∧
        ∀ e ∈ (t.ctx c).readWait, e.header = false → (t.ctx c).readBuffer.getD [] = [] := by
    intro c hnode hrst
    have hseen := hdelivered.delivers c hnode hrst
    have hwhole := hseen.whole
    simp only [seen, body, Body.seen, broughtTo_filter, handedTo_filter] at hwhole
    exact ⟨hwhole, hseen.reader⟩
  refine ⟨fun c hnode hrst => (hexact c hnode hrst).1, fun c hnode hrst hreader => ?_,
    fun c len hnode hrst hlen hread => ?_, fun c len n hnode hrst hread hn => ?_⟩
  · obtain ⟨hwhole, hwait⟩ := hexact c hnode hrst
    cases hsome : (t.ctx c).readWait with
    | none =>
      rw [KHttp2Context.bodyReader, hsome] at hreader
      cases hreader
    | some e =>
      simp only [KHttp2Context.bodyReader, hsome, Option.any_some, Bool.and_eq_true,
        Bool.not_eq_true'] at hreader
      rw [hwhole, hwait e hsome hreader.2, List.append_nil]
  · obtain ⟨hwhole, -⟩ := hexact c hnode hrst
    obtain ⟨u, hu, heq⟩ := t.read_eq c len
    rw [heq, hu.buffer, hu.rst, hrst, hu.inClosed] at hread
    by_cases hempty : strLen (t.ctx c).readBuffer = 0
    · simp only [hempty, ne_eq, not_true_eq_false, if_false, Bool.false_eq_true] at hread
      have hnil : (t.ctx c).readBuffer.getD [] = [] := List.eq_nil_of_length_eq_zero hempty
      refine ⟨?_, by rw [hwhole, hnil, List.append_nil]⟩
      by_contra hopen
      rw [if_neg hopen] at hread
      cases hread
    · -- a read with room for a byte gets one
      rw [if_pos hempty] at hread
      have hgot : (u.copyReadBuffer c len).2 = min (strLen (t.ctx c).readBuffer) len := by
        simp only [copyReadBuffer, hu.buffer]
        rfl
      have hzero := Option.some.inj hread
      rw [hgot] at hzero
      omega
  · obtain ⟨hwhole, -⟩ := hexact c hnode hrst
    obtain ⟨u, hu, heq⟩ := t.read_eq c len
    have hgot : (u.copyReadBuffer c len).2 = min ((t.ctx c).readBuffer.getD []).length len := by
      simp only [copyReadBuffer, hu.buffer]
    rw [heq] at hread ⊢
    by_cases hempty : strLen (u.ctx c).readBuffer = 0
    · simp only [hempty, hu.rst, hrst, ne_eq, not_true_eq_false, if_false,
        Bool.false_eq_true] at hread
      split at hread
      · obtain rfl := Option.some.inj hread
        exact absurd hn (lt_irrefl 0)
      · cases hread
    · rw [if_pos hempty] at hread ⊢
      have heqn : ((u.copyReadBuffer c len).2 : ℤ) = n := Option.some.inj hread
      rw [hgot] at heqn
      refine ⟨by omega, ?_⟩
      have hcount : n.toNat = min ((t.ctx c).readBuffer.getD []).length len := by omega
      have htrace : handedTo c
          ((u.copyReadBuffer c len).1.log (.readReturns c (u.copyReadBuffer c len).2)).trace =
            handedTo c t.trace ++ ((t.ctx c).readBuffer.getD []).take len := by
        simp only [copyReadBuffer, log, modify, handedTo, Ev.hands, if_true, List.append_nil,
          hu.handed, hu.buffer]
      have htake : ((t.ctx c).readBuffer.getD []).take
          (min ((t.ctx c).readBuffer.getD []).length len) =
            ((t.ctx c).readBuffer.getD []).take len := by
        rw [Nat.min_comm, ← List.take_take, List.take_length]
      rw [htrace, hwhole, hcount, List.take_length_add_append, htake]

/-- A body of seven bytes in two frames, of which the first is cut by a read. -/
def bodyInPieces : List Event :=
  [.read (clientPreface ++ [0, 0, 1, 1, 4, 0, 0, 0, 1, 0x83] ++ [0, 0, 5, 0, 0, 0, 0, 0, 1, 1, 2]),
    .call 0 (.read 1), .read [3, 4, 5], .call 0 (.read 9), .call 0 (.read 4),
    .read [0, 0, 2, 0, 1, 0, 0, 0, 1, 6, 7]]

/-- The result at this body: the readers got it all. -/
theorem deliversBodies_run_bodyInPieces :
    DeliversBodies (run (fun _ _ => ⟨0, 0, 0, 0⟩) (server 0 0 fun _ => .zero) bodyInPieces) ∧
      handedTo 0 (run (fun _ _ => ⟨0, 0, 0, 0⟩) (server 0 0 fun _ => .zero) bodyInPieces).trace =
        [1, 2, 3, 4, 5, 6, 7] :=
  ⟨deliversBodies_run _ (.server 0 0 fun _ => .zero) _, by decide +kernel⟩

end KHttp2

end Khttpd
