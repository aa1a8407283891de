import Khttpd.Analysis.Specs
import Khttpd.Analysis.WriteQueue

/-!
# The length of a DATA frame

`on_write_window_ready` takes what the frame size and both windows allow of a waiting write or
file. The chain of a write is covered to the byte; the part of a file has a length of 16 bits.
-/

set_option autoImplicit false

namespace Khttpd

/-! ## The payload -/

/-- The bytes that a request hands over, a file from where it stands. -/
def WriteEvent.wire (e : WriteEvent) (offset : ℕ → ℕ) : List WireByte :=
  match e.buf with
  | some (.mem chain) => chain.flatten.map WireByte.mem
  | some (.file file) => (List.range' (offset file) e.bufLen).map (WireByte.file file)
  | none => []

/-- A pending request: a write that holds the bytes it announces, or a file. -/
def WriteEvent.Holds (e : WriteEvent) (sendfile : Bool) : Prop :=
  match sendfile, e.buf with
  | true, some (.file _) => True
  | false, some (.mem chain) => e.bufLen ≤ chain.flatten.length
  | _, _ => False

/-- The memory loop covers the first bytes of the chain. -/
theorem buildChain_spec (chain : List Bytes) (totalBufLen len : ℕ)
    (h : totalBufLen ≤ chain.flatten.length) (offset : ℕ → ℕ) :
    usedSum (buildChain chain totalBufLen len) = min len totalBufLen ∧
      wireOf (buildChain chain totalBufLen len) offset =
        (chain.flatten.map WireByte.mem).take (min len totalBufLen) := by
  induction chain generalizing totalBufLen len with
  | nil =>
    have hzero : totalBufLen = 0 := Nat.le_zero.mp h
    subst hzero
    rw [Nat.min_zero]
    exact ⟨rfl, rfl⟩
  | cons hot next ih =>
    unfold buildChain
    split
    · have hzero : min len totalBufLen = 0 := by omega
      rw [hzero]
      exact ⟨rfl, rfl⟩
    · extract_lets bufLen used src buf
      rw [List.flatten_cons, List.length_append] at h
      have hused : buf.used = used := by
        simp only [buf, src, Http2Buff.ofBytes, List.length_take, used, bufLen]
        omega
      have hwire : ∀ rest, wireOf (buf :: rest) offset =
          (hot.take used).map WireByte.mem ++ wireOf rest offset := by
        intro rest
        have hmem : ¬buf.sendfile = true := Bool.false_ne_true
        have hdata : buf.data.take buf.used = hot.take used := by
          rw [hused]
          exact List.take_take.trans (by rw [Nat.min_self])
        rw [wireOf, if_neg hmem, hdata]
      split
      · rename_i hall
        obtain ⟨hsum, hrest⟩ := ih (totalBufLen - used) (len - used) (by omega)
        have hmin : min len totalBufLen = hot.length + min (len - used) (totalBufLen - used) := by
          omega
        have hlen : (hot.map WireByte.mem).length ≤ min len totalBufLen := by
          rw [List.length_map]
          omega
        have hbehind : min len totalBufLen - (hot.map WireByte.mem).length =
            min (len - used) (totalBufLen - used) := by
          rw [List.length_map]
          omega
        rw [usedSum_cons, hsum, hused, hwire, hrest, List.flatten_cons, List.map_append,
          List.take_append, List.take_of_length_le hlen, hbehind, hall, List.take_length]
        refine ⟨?_, rfl⟩
        omega
      · have hmin : min len totalBufLen = used := by omega
        have hlen : used ≤ (hot.map WireByte.mem).length := by
          rw [List.length_map]
          omega
        rw [usedSum_cons, hwire, hmin, hused, List.flatten_cons, List.map_append,
          List.take_append_of_le_length hlen, List.map_take]
        exact ⟨rfl, List.append_nil _⟩

/-- Marking the last buffer of a frame changes none of its bytes. -/
theorem mapLast_spec {f : Http2Buff → Http2Buff}
    (hf : ∀ b, (f b).sendfile = b.sendfile ∧ (f b).file = b.file ∧ (f b).data = b.data ∧
      (f b).used = b.used) (bufs : List Http2Buff) (offset : ℕ → ℕ) :
    usedSum (mapLast f bufs) = usedSum bufs ∧ wireOf (mapLast f bufs) offset =
      wireOf bufs offset := by
  induction bufs using mapLast.induct generalizing offset with
  | case1 => exact ⟨rfl, rfl⟩
  | case2 b =>
    obtain ⟨hsendfile, hfile, hdata, hused⟩ := hf b
    simp only [mapLast, usedSum_cons, wireOf, hsendfile, hfile, hdata, hused, and_self]
  | case3 b bs hne ih =>
    have hlast : mapLast f (b :: bs) = b :: mapLast f bs := by
      rw [mapLast]
      exact hne
    obtain ⟨hsum, -⟩ := ih offset
    rw [hlast, usedSum_cons, usedSum_cons, hsum, wireOf, wireOf, (ih _).2, (ih _).2]
    exact ⟨rfl, rfl⟩

/-- The payload of a request, and when it has the length that is asked for. -/
theorem buildPayload_spec {e : WriteEvent} {sendfile : Bool} (h : e.Holds sendfile) (len : ℕ) :
    (buildPayload sendfile e len).2 =
        (if sendfile then min len e.bufLen % 2 ^ 16 else min len e.bufLen) ∧
      usedSum (buildPayload sendfile e len).1 = (buildPayload sendfile e len).2 ∧
      ∀ offset, wireOf (buildPayload sendfile e len).1 offset =
        (e.wire offset).take (buildPayload sendfile e len).2 := by
  unfold WriteEvent.Holds at h
  unfold buildPayload WriteEvent.wire
  cases sendfile with
  | true =>
    cases hbuf : e.buf with
    | none => simp only [hbuf] at h
    | some buf =>
      cases buf with
      | mem chain => simp only [hbuf] at h
      | file file =>
        have hle : min len e.bufLen % 2 ^ 16 ≤ e.bufLen :=
          (Nat.mod_le _ _).trans (Nat.min_le_right _ _)
        refine ⟨rfl, rfl, ?_⟩
        intro offset
        rw [← List.map_take, List.take_range'_of_length_ge hle]
        exact List.append_nil _
  | false =>
    cases hbuf : e.buf with
    | none => simp only [hbuf] at h
    | some buf =>
      cases buf with
      | file file => simp only [hbuf] at h
      | mem chain =>
        simp only [hbuf] at h
        have hspec := fun offset => buildChain_spec chain e.bufLen len h offset
        have hsum := (hspec fun _ => 0).1
        refine ⟨hsum, rfl, ?_⟩
        intro offset
        refine (hspec offset).2.trans ?_
        rw [← hsum]
        rfl

namespace KHttp2

/-! ## The frame -/

/-- A stream with a request of at least one byte, and something left in both windows. The bounds are
those of `int` and of the 24-bit frame size. -/
structure Pending (s : KHttp2) (c : CtxId) (e : WriteEvent) : Prop where
  waits : (s.ctx c).writeWait = some e
  holds : e.Holds (s.ctx c).sendfile
  asks : 0 < e.bufLen
  node : (s.ctx c).node.isSome
  frame : 0 < s.frameSize ∧ s.frameSize ≤ maxFrameSize
  stream : 0 < (s.ctx c).sendWindow ∧ (s.ctx c).sendWindow ≤ maxWindow
  conn : 0 < s.sendWindow ∧ s.sendWindow ≤ maxWindow

/-- What the frame size and the two windows allow. -/
def room (s : KHttp2) (c : CtxId) : ℕ :=
    min (min s.frameSize (s.ctx c).sendWindow.toNat) s.sendWindow

/-- The length of the next DATA frame. -/
def allowance (s : KHttp2) (c : CtxId) (e : WriteEvent) : ℕ := min (s.room c) e.bufLen

/-- The buffers of one DATA frame with the first `n` bytes of a request. -/
def IsDataFrame (e : WriteEvent) (n : ℕ) : List Http2Buff → Prop
  | [] => False
  | header :: payload =>
    header.used = frameHeaderSize ∧ header.data.length = frameHeaderSize ∧
      parseType (parseUint32 header.data) = dataFrame ∧
      parseLength (parseUint32 header.data) = n ∧ usedSum payload = n ∧
      ∀ offset, wireOf payload offset = (e.wire offset).take n

/-- One DATA frame of `n` bytes was queued, reported and paid for. -/
structure QueuesData (s t : KHttp2) (c : CtxId) (e : WriteEvent) (n : ℕ) : Prop where
  positive : 0 < n
  queued : ∃ bufs, t.writeBuffer = s.writeBuffer.push bufs ∧ IsDataFrame e n bufs
  reported : (t.ctx c).writeWait.map WriteEvent.len = some (n : ℤ)
  stream : (t.ctx c).sendWindow = (s.ctx c).sendWindow - n
  conn : (t.sendWindow : ℤ) = s.sendWindow - n

/-- With something left in both windows a DATA frame is queued. -/
theorem onWriteWindowReady_pending {s : KHttp2} {c : CtxId} {e : WriteEvent} (h : s.Pending c e) :
    s.onWriteWindowReady c =
      { (s.sendData c e (s.room c)).flushQueue c with writeProcessing := true } := by
  obtain ⟨hframePos, hframeMax⟩ := h.frame
  obtain ⟨hstreamPos, hstreamMax⟩ := h.stream
  obtain ⟨hconnPos, hconnMax⟩ := h.conn
  simp only [maxFrameSize, maxWindow] at hframeMax hstreamMax hconnMax
  have hframe : toInt32 (s.frameSize : ℤ) = s.frameSize := toInt32_of_range (by omega) (by omega)
  have hwindow : toInt32 (s.sendWindow : ℤ) = s.sendWindow := toInt32_of_range (by omega) (by omega)
  have hroom : (min (min (s.frameSize : ℤ) (s.ctx c).sendWindow) s.sendWindow).toNat =
    s.room c := by
    unfold room
    omega
  have hopen : ¬min (min (s.frameSize : ℤ) (s.ctx c).sendWindow) s.sendWindow ≤ 0 := by omega
  simp only [onWriteWindowReady, h.waits, hframe, hwindow, if_neg hopen, hroom]

/-- `FlushQueue` sends nothing and takes nothing from a window. -/
theorem flushQueue_keeps (s : KHttp2) (c : CtxId) :
    (s.flushQueue c).writeBuffer = s.writeBuffer ∧
      ((s.flushQueue c).ctx c).writeWait = (s.ctx c).writeWait ∧
      ((s.flushQueue c).ctx c).sendWindow = (s.ctx c).sendWindow ∧
      (s.flushQueue c).sendWindow = s.sendWindow := by
  unfold flushQueue
  extract_lets t
  split
  · simp only [addQueue, removeQueue, modify, t, Function.update_self, and_self]
  · simp only [removeQueue, t, and_self]

/-- The bytes that `build_write_buffer` puts in front say what it counted. -/
theorem frameHeader_bytes {n : ℕ} (hn : n ≤ maxFrameSize) (flags : UInt8) (sid : ℕ) :
    let h := Http2FrameHeader.zero.setLengthType n dataFrame
    let data := { h with flags := flags, streamId := sid }.bytes
    data.length = frameHeaderSize ∧ parseType (parseUint32 data) = dataFrame ∧
      parseLength (parseUint32 data) = n := by
  intro h data
  have hword : parseUint32 data = n * 2 ^ 8 := by
    simp only [maxFrameSize] at hn
    simp only [parseUint32, data, Http2FrameHeader.bytes, htonl, List.cons_append, h,
      Http2FrameHeader.setLengthType, dataFrame, List.getD_cons_zero, List.getD_cons_succ,
      UInt8.toNat_ofNat']
    omega
  refine ⟨rfl, ?_, ?_⟩
  · rw [hword]
    exact Nat.mul_mod_left n (2 ^ 8)
  · rw [hword]
    exact Nat.mul_div_cancel n (by decide)

/-- The buffers that `sendData` pushes are a DATA frame of what it counts. -/
theorem sendData_frame {s : KHttp2} {c : CtxId} {e : WriteEvent} (h : s.Pending c e) (len : ℕ)
    (hlen : s.dataLength c e len ≤ maxFrameSize) :
    ∃ bufs, (s.sendData c e len).writeBuffer = s.writeBuffer.push bufs ∧
      IsDataFrame e (s.dataLength c e len) bufs := by
  obtain ⟨-, hsum, hwire⟩ := buildPayload_spec h.holds len
  have hsome : (s.ctx c).node.isNone = false := by
    rw [← Option.not_isSome, h.node, Bool.not_true]
  obtain ⟨hlength, htype, hdeclared⟩ :=
    frameHeader_bytes hlen (if s.lastData c e len then endStreamFlag else 0) ((s.ctx c).node.getD 0)
  unfold sendData
  extract_lets ctx payload totalLen left fin bufs h1 h2 src header s1 s2 s3
  have hkeep : s3.writeBuffer = s.writeBuffer := by
    simp only [s3, s2, s1, ctx, modify, hsome, Bool.false_eq_true, if_false]
  have hmarked := mapLast_spec (f := fun b => { b with ctx := some c, tcpNodelay := fin })
    (fun b => ⟨rfl, rfl, rfl, rfl⟩) payload.1
  refine ⟨header :: bufs, congrArg (fun w => w.push (header :: bufs)) hkeep, hlength,
    hlength, htype,
    hdeclared, (hmarked fun _ => 0).1.trans hsum, ?_⟩
  intro offset
  exact (hmarked offset).2.trans (hwire offset)

/-- A pending request gets a DATA frame of exactly what the windows allow, unless it is for a file
and this is more than 16 bits can hold. -/
theorem queuesData_iff {s : KHttp2} {c : CtxId} {e : WriteEvent} (h : s.Pending c e) :
    QueuesData s (s.onWriteWindowReady c) c e (s.allowance c e) ↔
      ((s.ctx c).sendfile = true → s.allowance c e < 2 ^ 16) := by
  have hlength : s.dataLength c e (s.room c) =
      if (s.ctx c).sendfile then s.allowance c e % 2 ^ 16 else s.allowance c e :=
    (buildPayload_spec h.holds (s.room c)).1
  obtain ⟨hctx, hconn, -⟩ := s.sendData_spec c e (s.room c) h.node
  obtain ⟨hbuffer, hwait, hstream, hwindow⟩ := (s.sendData c e (s.room c)).flushQueue_keeps c
  rw [onWriteWindowReady_pending h]
  constructor
  · intro hqueued hfile
    have hreported := hqueued.reported
    dsimp only at hreported
    rw [hwait, hctx, Function.update_self, hlength, if_pos hfile, Option.map_some] at hreported
    have hsame : ((s.allowance c e % 2 ^ 16 : ℕ) : ℤ) = s.allowance c e :=
      Option.some_inj.mp hreported
    omega
  · intro hfits
    have hexact : s.dataLength c e (s.room c) = s.allowance c e := by
      rw [hlength]
      split
      · exact Nat.mod_eq_of_lt (hfits ‹_›)
      · rfl
    have hroom : s.allowance c e ≤ s.room c := Nat.min_le_left _ _
    obtain ⟨hframePos, hframeMax⟩ := h.frame
    obtain ⟨hstreamPos, hstreamMax⟩ := h.stream
    obtain ⟨hconnPos, hconnMax⟩ := h.conn
    have hasks := h.asks
    have hleft : s.room c ≤ s.frameSize ∧ (s.room c : ℤ) ≤ (s.ctx c).sendWindow ∧
        s.room c ≤ s.sendWindow ∧ 0 < s.room c := by
      unfold room
      omega
    simp only [maxWindow] at hstreamMax hconnMax
    refine ⟨?_, ?_, ?_, ?_, ?_⟩
    · unfold allowance
      omega
    · dsimp only
      rw [hbuffer, ← hexact]
      exact sendData_frame h _ (by omega)
    · dsimp only
      rw [hwait, hctx, Function.update_self, hexact]
      rfl
    · dsimp only
      rw [hstream, hctx, Function.update_self, hexact]
      exact toInt32_of_range (by omega) (by omega)
    · dsimp only
      rw [hwindow, hconn, hexact]
      exact toUint32_of_range (by omega) (by omega)

/-- A server that has been asked for so many bytes of a file on stream 1, with as much in both
windows and frames of up to 100000 bytes. -/
def fileRequest (length : ℕ) : KHttp2 :=
  { server 0 60 fun _ => .zero with
    frameSize := 100000
    sendWindow := length
    ctx := fun _ => { KHttp2Context.init length with
      node := some 1, sendfile := true, writeWait := some ⟨some (.file 0), length, -1⟩ } }

theorem fileRequest_pending {length : ℕ} (hpos : 0 < length) (hmax : length ≤ maxWindow) :
    (fileRequest length).Pending 0 ⟨some (.file 0), length, -1⟩ where
  waits := rfl
  holds := trivial
  asks := hpos
  node := rfl
  frame := ⟨Nat.zero_lt_succ 99999, show 100000 ≤ 2 ^ 24 - 1 by omega⟩
  stream := ⟨Int.natCast_pos.mpr hpos, Int.ofNat_le.mpr hmax⟩
  conn := ⟨hpos, hmax⟩

/-- Ten bytes of a file go out in one frame. -/
theorem queuesData_tenBytes :
    QueuesData (fileRequest 10) ((fileRequest 10).onWriteWindowReady 0) 0 ⟨some (.file 0), 10, -1⟩
      ((fileRequest 10).allowance 0 ⟨some (.file 0), 10, -1⟩) := by
  have hpending := fileRequest_pending (Nat.zero_lt_succ 9) (show 10 ≤ maxWindow by decide)
  refine (queuesData_iff hpending).mpr ?_
  intro _
  exact lt_of_le_of_lt (Nat.min_le_right _ _) (show 10 < 2 ^ 16 by omega)

/-- Of `2 ^ 16` bytes of a file none are sent. -/
theorem largeFile_not_queuesData :
    (fileRequest (2 ^ 16)).Pending 0 ⟨some (.file 0), 2 ^ 16, -1⟩ ∧
      ¬QueuesData (fileRequest (2 ^ 16)) ((fileRequest (2 ^ 16)).onWriteWindowReady 0) 0
        ⟨some (.file 0), 2 ^ 16, -1⟩
        ((fileRequest (2 ^ 16)).allowance 0 ⟨some (.file 0), 2 ^ 16, -1⟩) := by
  refine ⟨fileRequest_pending (by decide) (by decide), ?_⟩
  intro h
  have hreported : (((fileRequest (2 ^ 16)).onWriteWindowReady 0).ctx 0).writeWait.map
      WriteEvent.len = some 0 := by decide
  have hnone := Option.some_inj.mp (hreported.symm.trans h.reported)
  have hpos := h.positive
  omega

end KHttp2

end Khttpd
