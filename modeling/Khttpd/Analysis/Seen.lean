import Khttpd.Analysis.EffectSteps

/-!
# What happens to one stream

An effect on readers and writers, seen from one stream: its fields, the queued buffers that
resume its writer, and the events that are about it. Most effects concern another stream and are
not seen at all. `Change` lists what is seen, so that an invariant of one stream is proved on a
small state.
-/

set_option autoImplicit false

namespace Khttpd

/-- The stream that an event is about. -/
def Ev.about : Ev → Option CtxId
  | .openNode c _ | .data c _ | .endStream c | .reset c | .copied c _ | .readReturns c _
  | .wakeRead c _ _ | .waitWrite c | .wakeWrite c _ => some c
  | .queued frame => frame.stream
  | .windowUpdateSent c _ => c
  | _ => none

/-- What is seen of a connection from one stream. -/
structure Seen where
  part : Part
  buffs : ℕ
  events : List Ev

/-- What a connection shows to a stream. -/
def Body.seen (b : Body) (c : CtxId) : Seen where
  part := b.part c
  buffs := b.writeBuffer.header.countP fun buff => buff.ctx = some c
  events := b.trace.filter fun e => e.about = some c

namespace Seen

/-- Record an event. -/
def log (v : Seen) (e : Ev) : Seen := { v with events := e :: v.events }

/-- Change fields of the stream. -/
def set (v : Seen) (f : Part → Part) : Seen := { v with part := f v.part }

/-- The reader is resumed. -/
def onRead (v : Seen) (c : CtxId) (e : Option ReadEvent) (got : ℤ) : Seen :=
  match e with
  | some ⟨true, header, _⟩ => v.log (.wakeRead c header got)
  | _ => v

/-- The writer is resumed; the callback of `readhup` is not seen. -/
def onWrite (v : Seen) (c : CtxId) (e : Option WriteEvent) (got : ℤ) : Seen :=
  match e with
  | some e => if e.forHup then v else v.log (.wakeWrite c got)
  | none => v

/-- `k` more buffers are there. -/
def hold (v : Seen) (k : ℕ) : Seen := { v with buffs := v.buffs + k }

theorem hold_onRead (v : Seen) (k : ℕ) (c : CtxId) (e : Option ReadEvent) (got : ℤ) :
    (v.hold k).onRead c e got = (v.onRead c e got).hold k := by
  unfold onRead
  split <;> rfl

theorem hold_onWrite (v : Seen) (k : ℕ) (c : CtxId) (e : Option WriteEvent) (got : ℤ) :
    (v.hold k).onWrite c e got = (v.onWrite c e got).hold k := by
  unfold onWrite
  split
  · split <;> rfl
  · rfl

/-- The body reader is resumed, with bytes or with the end. -/
def wakeReader (v : Seen) (c : CtxId) (fin : Bool) : Seen :=
  match v.part.readWait with
  | none => v
  | some e =>
    let v := v.set fun part => { part with readWait := none }
    if fin then v.onRead c (some e) 0
    else
      let bytes := v.part.readBuffer.getD []
      ((v.set fun part => { part with readBuffer := some (bytes.drop e.bufLen) }).log
        (.copied c (bytes.take e.bufLen))).onRead c (some e) (min bytes.length e.bufLen : ℕ)

/-- DATA bytes are recorded, in an event of their own or as more of the last event. -/
def logData (v : Seen) (c : CtxId) (bytes : Bytes) (merge : Bool) : Seen :=
  match merge, v.events with
  | true, .data c' old :: events =>
    if c = c' then { v with events := .data c (old ++ bytes) :: events } else v.log (.data c bytes)
  | _, _ => v.log (.data c bytes)

/-- A DATA frame, or a piece of it, is taken. -/
def takeData (v : Seen) (c : CtxId) (taken : Bytes) (merge : Bool) : Seen :=
  let bytes := taken.take (taken.length % 2 ^ 16)
  let v := v.set fun part => { part with readBuffer := some (part.readBuffer.getD [] ++ bytes) }
  (v.logData c taken merge).wakeReader c false

/-- END_STREAM of a DATA frame is taken. -/
def takeEnd (v : Seen) (c : CtxId) : Seen :=
  ((v.set fun part => { part with inClosed := true }).log (.endStream c)).wakeReader c true

/-- A buffer that resumes the writer is gone. -/
def clean (v : Seen) (c : CtxId) (fin : Bool) : Seen :=
  let e := v.part.writeWait
  ({ v with buffs := v.buffs - 1 }.set fun part => { part with writeWait := none }).onWrite c e
    (if fin then -1 else e.elim 0 WriteEvent.len)

/-- The stream is reset, with RST_STREAM or not. -/
def reset (v : Seen) (c : CtxId) (rst : Option QueuedFrame) (clear : Bool) : Seen :=
  let old := v.part
  let v := (v.set fun part => { part with
    inClosed := true
    outClosed := true
    rst := true
    readWait := none
    writeWait := part.writeWait.filter WriteEvent.forWriting }).log (.reset c)
  let v := rst.elim v fun frame => v.log (.queued frame)
  let v := if clear then v.set fun part =>
      { part with readBuffer := part.readBuffer.map fun _ => [] }
    else v
  (v.onRead c old.readWait (-1)).onWrite c (old.writeWait.filter fun e => !e.forWriting) (-1)

theorem hold_reset (v : Seen) (k : ℕ) (c : CtxId) :
    (v.hold k).reset c none false = (v.reset c none false).hold k := by
  unfold reset
  rw [← hold_onWrite, ← hold_onRead]
  rfl

/-- The stream is handed back. -/
def release (v : Seen) (c : CtxId) (rst : Option QueuedFrame) : Seen :=
  let fin := !v.part.outClosed || !v.part.inClosed
  let v := v.set fun part => { part with readWait := none, writeWait := none }
  let v := if fin then
      (v.set fun part => { part with inClosed := true, outClosed := true, rst := true }).log
        (.reset c)
    else v
  let v := rst.elim v fun frame => v.log (.queued frame)
  v.set fun part => { part with node := none }

end Seen

namespace Seen

variable (v : Seen) (c : CtxId)

@[simp] theorem part_log (e : Ev) : (v.log e).part = v.part := rfl

@[simp] theorem part_set (f : Part → Part) : (v.set f).part = f v.part := rfl

@[simp] theorem part_hold (k : ℕ) : (v.hold k).part = v.part := rfl

@[simp] theorem part_onRead (e : Option ReadEvent) (got : ℤ) :
    (v.onRead c e got).part = v.part := by
  unfold onRead
  split <;> rfl

@[simp] theorem part_onWrite (e : Option WriteEvent) (got : ℤ) :
    (v.onWrite c e got).part = v.part := by
  unfold onWrite
  split
  · split <;> rfl
  · rfl

@[simp] theorem part_logData (bytes : Bytes) (merge : Bool) :
    (v.logData c bytes merge).part = v.part := by
  unfold logData
  split
  · split <;> rfl
  · rfl

/-- The fields of a stream after its body reader is resumed. -/
theorem part_wakeReader (fin : Bool) : (v.wakeReader c fin).part =
    match v.part.readWait with
    | none => v.part
    | some e => { v.part with
        readWait := none
        readBuffer := if fin then v.part.readBuffer
          else some ((v.part.readBuffer.getD []).drop e.bufLen) } := by
  unfold wakeReader
  cases v.part.readWait with
  | none => rfl
  | some e =>
    cases fin with
    | true => simp
    | false => simp

end Seen

/-- A fiber waits in `write` or `sendfile`. -/
def Part.writeSuspended (part : Part) : Bool := part.writeWait.any fun e => e.buf.isSome

/-- A fiber waits in `read`. -/
def Part.bodyReader (part : Part) : Bool := part.readWait.any fun e => e.fiber && !e.header

/-- The part of a new stream. -/
def Part.init (node : Option ℕ) (fin : Bool) : Part where
  node := node
  inClosed := fin
  outClosed := false
  rst := false
  recvWindow := streamRecvWindow
  writeWait := none
  readWait := none
  readBuffer := none

namespace KHttp2

/-- What a stream sees of an effect. -/
inductive Change (kinds : Kind → Prop) (c : CtxId) (v : Seen) : Seen → Prop
  | queued (frame : QueuedFrame) (hdata : frame.type ≠ dataFrame)
      (hheaders : frame.type ≠ headersFrame) : Change kinds c v (v.log (.queued frame))
  | link (sid : ℕ) (hnone : v.part.node = none) :
      Change kinds c v ((v.log (.openNode c sid)).set fun part => { part with node := some sid })
  | output (frame : QueuedFrame) (hkind : kinds .output)
      (htype : frame.type = headersFrame ∨ frame.type = dataFrame ∧ frame.length = 0) :
      Change kinds c v (v.log (.queued frame))
  | closeOut (fin : Bool) (hkind : kinds .output) :
      Change kinds c v (v.set fun part => { part with outClosed := part.outClosed || fin })
  | closeIn : Change kinds c v (v.set fun part => { part with inClosed := true })
  | hup (w : Option WriteEvent) (hold : v.part.writeSuspended = false)
      (hnew : ∀ e ∈ w, e.forHup = true) :
      Change kinds c v (v.set fun part => { part with writeWait := w })
  | suspend (e : WriteEvent) (hkind : kinds .write) (hold : v.part.writeSuspended = false)
      (hwindow : e.forWindow = true) :
      Change kinds c v ((v.log (.waitWrite c)).set fun part => { part with writeWait := some e })
  | send (e : WriteEvent) (total : ℕ) (fin : Bool) (frame : QueuedFrame)
      (hwait : v.part.writeWait = some e) (hwindow : e.forWindow = true)
      (htype : frame.type = dataFrame) (hlength : frame.length = total) :
      Change kinds c v { (v.set fun part => { part with
        writeWait := some { e with len := total }
        outClosed := part.outClosed || fin }).log (.queued frame) with buffs := v.buffs + 1 }
  | clean (fin : Bool) (hbuffs : 0 < v.buffs) : Change kinds c v (v.clean c fin)
  | reset (rst : Option QueuedFrame) (clear : Bool)
      (hrst : ∀ frame ∈ rst, frame.type = rstStreamFrame) :
      Change kinds c v (v.reset c rst clear)
  | refill (frame : QueuedFrame) (hopen : v.part.inClosed = false)
      (hlow : v.part.recvWindow + strLen v.part.readBuffer < streamRecvWindow / 4)
      (htype : frame.type = windowUpdateFrame) :
      Change kinds c v (((v.log (.windowUpdateSent (some c)
        (streamRecvWindow - v.part.recvWindow))).log (.queued frame)).set fun part =>
          { part with recvWindow := streamRecvWindow })
  | copy (len : ℕ) (hfull : strLen v.part.readBuffer ≠ 0) :
      Change kinds c v (((v.set fun part =>
        { part with readBuffer := some ((part.readBuffer.getD []).drop len) }).log
          (.copied c ((v.part.readBuffer.getD []).take len))).log
            (.readReturns c (min (v.part.readBuffer.getD []).length len : ℕ)))
  | returns (got : ℤ) (hempty : strLen v.part.readBuffer = 0)
      (h : v.part.rst = true ∧ got = -1 ∨
        v.part.rst = false ∧ v.part.inClosed = true ∧ got = 0) :
      Change kinds c v (v.log (.readReturns c got))
  | readWait (len : ℕ) (hempty : strLen v.part.readBuffer = 0) (hrst : v.part.rst = false)
      (hopen : v.part.inClosed = false) (hwindow : streamRecvWindow / 4 ≤ v.part.recvWindow) :
      Change kinds c v (v.set fun part => { part with readWait := some ⟨true, false, len⟩ })
  | headerWait (w : Option ReadEvent)
      (hw : ∀ e ∈ w, e.header = true ∨ ∃ e' ∈ v.part.readWait, e'.header = e.header) :
      Change kinds c v (v.set fun part => { part with readWait := w })
  | headerWake (w : Option ReadEvent)
      (hw : ∀ e ∈ w, ∃ e' ∈ v.part.readWait, e'.header = e.header)
      (hkind : v.part.bodyReader = true → v.part.inClosed = false → kinds .interim) :
      Change kinds c v ((v.set fun part => { part with readWait := w }).onRead c v.part.readWait 0)
  | headersIn (fin : Bool) (hrst : v.part.rst = false) (hopen : v.part.inClosed = false) :
      Change kinds c v (if fin then
        (v.set fun part => { part with inClosed := fin }).log (.endStream c)
      else v.set fun part => { part with inClosed := fin })
  | openStream (sid : ℕ) (fin : Bool) :
      Change kinds c v ((if fin then (v.set fun _ => .init (some sid) fin).log (.endStream c)
        else v.set fun _ => .init (some sid) fin).log (.openNode c sid))
  | newStream : Change kinds c v (v.set fun _ => .init none false)
  | release (rst : Option QueuedFrame) (hrst : ∀ frame ∈ rst, frame.type = rstStreamFrame)
      (h : v.part.writeSuspended = false ∨ kinds .drop) : Change kinds c v (v.release c rst)
  | chargeStream (length : ℕ) (hkind : kinds .data) (h : length ≤ v.part.recvWindow) :
      Change kinds c v (v.set fun part => { part with recvWindow := part.recvWindow - length })
  | takeData (taken : Bytes) (merge : Bool) (hkind : kinds .data) :
      Change kinds c v (v.takeData c taken merge)
  | takeEnd (hkind : kinds .data) : Change kinds c v (v.takeEnd c)

/-- What a stream sees of a sequence of effects. -/
abbrev Changes (kinds : Kind → Prop) (c : CtxId) : Seen → Seen → Prop :=
  Relation.ReflTransGen (Change kinds c)

/-- What a stream sees of a connection. -/
def seen (s : KHttp2) (c : CtxId) : Seen := s.body.seen c

theorem seen_of_body {s t : KHttp2} (h : t.body = s.body) (c : CtxId) : t.seen c = s.seen c := by
  rw [seen, h, seen]

theorem seen_log (s : KHttp2) (c : CtxId) {e : Ev} (hbody : e.isBody = true)
    (habout : e.about = some c) : (s.log e).seen c = (s.seen c).log e := by
  simp [seen, body, Body.seen, log, Seen.log, hbody, habout]

/-- An event about something else is not seen. -/
theorem seen_log_other (s : KHttp2) (c : CtxId) {e : Ev}
    (h : e.isBody = true → e.about ≠ some c) : (s.log e).seen c = s.seen c := by
  simp only [seen, body, Body.seen, log]
  cases hbody : e.isBody with
  | false => simp only [List.filter_cons, hbody, Bool.false_eq_true, if_false]
  | true => simp [hbody, h hbody]

theorem seen_modify (s : KHttp2) (c : CtxId) (f : KHttp2Context → KHttp2Context) (g : Part → Part)
    (h : (f (s.ctx c)).part = g (s.ctx c).part) :
    (s.modify c f).seen c = (s.seen c).set g := by
  simp only [seen, body, Body.seen, modify, Seen.set, Function.update_self, h]

/-- What happens to another stream is not seen. -/
theorem seen_modify_other (s : KHttp2) {c c' : CtxId} (hne : c' ≠ c)
    (f : KHttp2Context → KHttp2Context) : (s.modify c' f).seen c = s.seen c := by
  simp only [seen, body, Body.seen, modify, Function.update_of_ne (Ne.symm hne)]

/-- Buffers that resume nobody, or another writer, are not seen. -/
theorem seen_push (s : KHttp2) (c : CtxId) (bufs : List Http2Buff)
    (hbufs : ∀ b ∈ bufs, b.ctx ≠ some c) :
    { s with writeBuffer := s.writeBuffer.push bufs }.seen c = s.seen c := by
  have hcount : bufs.countP (fun buff => buff.ctx = some c) = 0 := by
    refine List.countP_eq_zero.mpr fun b hb => ?_
    simpa only [decide_eq_true_eq] using hbufs b hb
  simp only [seen, body, Body.seen, KHttp2WriteBuffer.push, List.countP_append,
    hcount, Nat.add_zero]

theorem seen_startWrite (s : KHttp2) (c : CtxId) : s.startWrite.seen c = s.seen c := by
  unfold startWrite
  split <;> rfl

theorem seen_onRead (s : KHttp2) (c : CtxId) (e : Option ReadEvent) (got : ℤ) :
    (s.onRead c e got).seen c = (s.seen c).onRead c e got := by
  unfold onRead Seen.onRead
  cases e with
  | none => rfl
  | some e =>
    obtain ⟨fiber, header, len⟩ := e
    cases fiber with
    | true => exact s.seen_log c rfl rfl
    | false => rfl

theorem seen_onRead_other (s : KHttp2) {c c' : CtxId} (hne : c' ≠ c) (e : Option ReadEvent)
    (got : ℤ) : (s.onRead c' e got).seen c = s.seen c := by
  unfold onRead
  split
  · exact s.seen_log_other c fun _ h => hne (Option.some.inj h)
  · rfl

theorem seen_onWrite (s : KHttp2) (c : CtxId) (e : Option WriteEvent) (got : ℤ) :
    (s.onWrite c e got).seen c = (s.seen c).onWrite c e got := by
  unfold onWrite Seen.onWrite
  cases e with
  | none => rfl
  | some e =>
    cases hhup : e.forHup with
    | true =>
      simp only [hhup, if_true]
      exact s.seen_log_other c fun h => by cases h
    | false =>
      simp only [hhup, Bool.false_eq_true, if_false]
      exact s.seen_log c rfl rfl

theorem seen_onWrite_other (s : KHttp2) {c c' : CtxId} (hne : c' ≠ c) (e : Option WriteEvent)
    (got : ℤ) : (s.onWrite c' e got).seen c = s.seen c := by
  unfold onWrite
  cases e with
  | none => rfl
  | some e =>
    refine s.seen_log_other c fun hbody => ?_
    cases hhup : e.forHup with
    | true =>
      simp only [hhup, if_true] at hbody
      cases hbody
    | false =>
      simp only [Bool.false_eq_true, if_false]
      exact fun h => hne (Option.some.inj h)

end KHttp2

end Khttpd
