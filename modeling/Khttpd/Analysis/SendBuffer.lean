import Khttpd.Analysis.BodyDelivery
import Khttpd.Model.SendBuffer

/-!
# The read buffer is a queue of bytes

The connection keeps the bytes that nobody read yet as one string. The code keeps them as a chain
of `kbuf`s with a place in the first of them. What readers get, how much is left and whether
anything is left are the same, and no assertion of the chain fails.
-/

set_option autoImplicit false

namespace Khttpd

namespace KSendBuffer

variable {q : KSendBuffer}

/-- The bytes that are left to read. -/
def contents (q : KSendBuffer) : Bytes := q.header.flatten.drop q.hot

/-- No `kbuf` is read to its end, and `total_len` is what is left. -/
structure Kept (q : KSendBuffer) : Prop where
  nonempty : ∀ b ∈ q.header, b ≠ []
  hot : ∀ b next, q.header = b :: next → q.hot < b.length
  closed : q.header = [] → q.hot = 0
  total : q.totalLen = q.contents.length

theorem kept_init : init.Kept where
  nonempty _ hb := absurd hb List.not_mem_nil
  hot b next h := absurd h.symm (List.cons_ne_nil b next)
  closed _ := rfl
  total := rfl

@[simp] theorem contents_init : init.contents = [] := rfl

theorem contents_cons {b : Bytes} {next : List Bytes} (hheader : q.header = b :: next)
    (hhot : q.hot ≤ b.length) : q.contents = b.drop q.hot ++ next.flatten := by
  rw [contents, hheader, List.flatten_cons, List.drop_append_of_le_length hhot]

/-- `getHeader` is NULL where nothing is left. -/
theorem Kept.header_eq_nil (h : q.Kept) : q.header = [] ↔ q.contents = [] := by
  constructor
  · intro hnil
    rw [contents, hnil]
    exact List.drop_nil
  · intro hempty
    cases hheader : q.header with
    | nil => rfl
    | cons b next =>
      have hlt := h.hot b next hheader
      rw [contents_cons hheader hlt.le] at hempty
      have hlength := congrArg List.length (List.append_eq_nil_iff.mp hempty).1
      simp only [List.length_drop, List.length_nil] at hlength
      omega

/-! ## Filling -/

theorem contents_add (h : q.Kept) (buf : Bytes) : (q.add buf).contents = q.contents ++ buf := by
  cases hheader : q.header with
  | nil =>
    have hempty : q.contents = [] := h.header_eq_nil.mp hheader
    rw [hempty, List.nil_append]
    simp only [add, hheader, contents, List.flatten_singleton, List.drop_zero]
  | cons b next =>
    have hle : q.hot ≤ (b :: next).flatten.length := by
      have hlt := h.hot b next hheader
      rw [List.flatten_cons, List.length_append]
      omega
    simp only [add, hheader, contents, List.cons_append]
    rw [← List.cons_append, List.flatten_append, List.drop_append_of_le_length hle,
      List.flatten_singleton]

theorem totalLen_add (q : KSendBuffer) (buf : Bytes) :
    (q.add buf).totalLen = q.totalLen + buf.length := by
  unfold add
  split <;> rfl

/-- A `kbuf` that is not empty is put at the end. -/
theorem Kept.add (h : q.Kept) {buf : Bytes} (hbuf : buf ≠ []) : (q.add buf).Kept := by
  have htotal : (q.add buf).totalLen = (q.add buf).contents.length := by
    rw [totalLen_add, contents_add h, h.total, List.length_append, Nat.cast_add]
  refine ⟨?_, ?_, ?_, htotal⟩
  all_goals
    clear htotal
    unfold KSendBuffer.add
    split
  · intro b hb
    exact List.mem_singleton.mp hb ▸ hbuf
  · intro b hb
    rcases List.mem_append.mp hb with hb | hb
    · exact h.nonempty b hb
    · exact List.mem_singleton.mp hb ▸ hbuf
  · intro b next hcons
    cases hcons
    exact List.length_pos_iff.mpr hbuf
  · rename_i hne
    intro b next hcons
    cases hheader : q.header with
    | nil => exact absurd hheader hne
    | cons first rest =>
      rw [hheader] at hcons
      cases hcons
      exact h.hot _ _ hheader
  · intro hnil
    cases hnil
  · rename_i hne
    intro hnil
    exact absurd (List.append_eq_nil_iff.mp hnil).1 hne

/-- `append` of a piece that its length can tell. -/
theorem append_eq_add (q : KSendBuffer) {str : Bytes} (hlt : str.length < 2 ^ 16) :
    q.append str = q.add str := by
  rw [append, Nat.mod_eq_of_lt hlt, List.take_length]

/-- `insert` puts bytes before what is left, where nothing of the first `kbuf` was read. -/
theorem Kept.pushHead (h : q.Kept) {str : Bytes} (hstr : str ≠ []) (hhot : q.hot = 0) :
    ∃ q', q.pushHead str = some q' ∧ q'.Kept ∧ q'.contents = str ++ q.contents := by
  cases hheader : q.header with
  | nil =>
    have hempty : q.contents = [] := h.header_eq_nil.mp hheader
    refine ⟨q.add str, by simp only [KSendBuffer.pushHead, hheader], h.add hstr, ?_⟩
    rw [contents_add h, hempty, List.nil_append, List.append_nil]
  | cons b next =>
    have hcontents : (⟨str :: b :: next, 0, q.totalLen + str.length⟩ : KSendBuffer).contents =
        str ++ q.contents := by
      simp only [contents, List.drop_zero, hheader, hhot, List.flatten_cons]
    refine ⟨⟨str :: b :: next, 0, q.totalLen + str.length⟩, ?_, ⟨?_, ?_, ?_, ?_⟩, hcontents⟩
    · simp only [KSendBuffer.pushHead, hheader, hhot, ne_eq, not_true_eq_false, if_false]
    · intro b' hb
      rcases List.mem_cons.mp hb with rfl | hb
      · exact hstr
      · exact h.nonempty b' (hheader ▸ hb)
    · intro b' next' hcons
      cases hcons
      exact List.length_pos_iff.mpr hstr
    · intro hnil
      cases hnil
    · rw [hcontents, List.length_append, h.total]
      push_cast
      omega

/-! ## Reading -/

/-- What `getReadBuffer` offers is the front of what is left, and some of it. -/
theorem Kept.getReadBuffer (h : q.Kept) (hleft : q.contents ≠ []) (bufferCount : ℕ) :
    ∃ iovecs, q.getReadBuffer bufferCount = some iovecs ∧ iovecs.length ≤ max 1 bufferCount ∧
      iovecs.flatten <+: q.contents ∧ ∀ iovec ∈ iovecs, iovec ≠ [] := by
  cases hheader : q.header with
  | nil => exact absurd (h.header_eq_nil.mp hheader) hleft
  | cons b next =>
    have hlt := h.hot b next hheader
    refine ⟨b.drop q.hot :: next.take (bufferCount - 1), ?_, ?_, ?_, ?_⟩
    · simp only [KSendBuffer.getReadBuffer, hheader]
    · rw [List.length_cons, List.length_take]
      omega
    · rw [contents_cons hheader hlt.le, List.flatten_cons]
      refine (List.prefix_append_right_inj _).mpr ?_
      refine ⟨(next.drop (bufferCount - 1)).flatten, ?_⟩
      rw [← List.flatten_append, List.take_append_drop]
    · intro iovec hmem
      rcases List.mem_cons.mp hmem with rfl | hmem
      · intro hnil
        have hlength := congrArg List.length hnil
        simp only [List.length_drop, List.length_nil] at hlength
        omega
      · exact h.nonempty iovec (hheader ▸ List.mem_cons_of_mem b (List.mem_of_mem_take hmem))

/-- The chain that `readSuccess` leaves. -/
theorem readSuccessLoop_spec (header : List Bytes) (hot got : ℕ) (hne : ∀ b ∈ header, b ≠ [])
    (hhot : ∀ b next, header = b :: next → hot < b.length) (hclosed : header = [] → hot = 0)
    (hgot : got ≤ (header.flatten.drop hot).length) :
    ∃ header' hot', readSuccessLoop header hot got = some (header', hot') ∧
      header'.flatten.drop hot' = (header.flatten.drop hot).drop got ∧
      (∀ b ∈ header', b ≠ []) ∧ (∀ b next, header' = b :: next → hot' < b.length) ∧
      (header' = [] → hot' = 0) := by
  induction header generalizing hot got with
  | nil =>
    have hzero : got = 0 := by simpa using hgot
    subst hzero
    exact ⟨[], hot, by rw [readSuccessLoop], by rw [List.drop_zero], hne, hhot, hclosed⟩
  | cons b next ih =>
    cases got with
    | zero =>
      exact ⟨b :: next, hot, by rw [readSuccessLoop], by rw [List.drop_zero], hne, hhot, hclosed⟩
    | succ got =>
      have hlt := hhot b next rfl
      have hdrop : (b :: next).flatten.drop hot = b.drop hot ++ next.flatten := by
        rw [List.flatten_cons, List.drop_append_of_le_length hlt.le]
      rw [hdrop] at hgot ⊢
      rw [List.length_append, List.length_drop] at hgot
      by_cases hall : b.length ≤ hot + (got + 1)
      · -- the first `kbuf` is read to its end
        have hmin : min (got + 1) (b.length - hot) = b.length - hot := Nat.min_eq_right (by omega)
        have hend : b.length = hot + (b.length - hot) := by omega
        have hrest : (b.drop hot ++ next.flatten).drop (got + 1) =
            next.flatten.drop (got + 1 - (b.length - hot)) := by
          rw [List.drop_append, List.drop_eq_nil_of_le, List.nil_append, List.length_drop]
          rw [List.length_drop]
          omega
        rw [hrest]
        cases next with
        | nil =>
          have hexact : got + 1 = b.length - hot := by
            simp only [List.flatten_nil, List.length_nil] at hgot
            omega
          refine ⟨[], 0, ?_, ?_, ?_, ?_, fun _ => rfl⟩
          · simp only [readSuccessLoop, hmin, if_true, if_pos hend, if_pos hexact]
          · simp only [List.flatten_nil, List.drop_nil]
          · exact fun b' hb' => absurd hb' List.not_mem_nil
          · exact fun b' next' h => absurd h.symm (List.cons_ne_nil b' next')
        | cons b' next' =>
          have hpos : 0 < b'.length :=
            List.length_pos_iff.mpr (hne b' (List.mem_cons_of_mem b List.mem_cons_self))
          obtain ⟨header', hot', heq, hcontents, hkept⟩ :=
            ih 0 (got + 1 - (b.length - hot)) (fun b hb => hne b (List.mem_cons_of_mem _ hb))
              (fun c rest hcons => by cases hcons; exact hpos) (fun _ => rfl) (by
                rw [List.drop_zero]
                omega)
          refine ⟨header', hot', ?_, ?_, hkept⟩
          · simp only [readSuccessLoop, hmin, if_pos hend, if_neg (List.cons_ne_nil b' next')]
            exact heq
          · rw [hcontents, List.drop_zero]
      · have hmin : min (got + 1) (b.length - hot) = got + 1 := Nat.min_eq_left (by omega)
        refine ⟨b :: next, hot + (got + 1), ?_, ?_, hne, ?_, fun hnil => ?_⟩
        · rw [readSuccessLoop]
          simp only [hmin]
          rw [if_neg (by omega)]
        · rw [List.flatten_cons, List.drop_append_of_le_length (by omega),
            List.drop_append_of_le_length (by rw [List.length_drop]; omega), List.drop_drop]
        · intro c rest hcons
          cases hcons
          omega
        · cases hnil

/-- `readSuccess` of bytes that are there. -/
theorem Kept.readSuccess (h : q.Kept) {got : ℕ} (hpos : 0 < got) (hgot : got ≤ q.contents.length) :
    ∃ q', q.readSuccess got = some (q', decide (q'.contents ≠ [])) ∧ q'.Kept ∧
      q'.contents = q.contents.drop got := by
  obtain ⟨header', hot', heq, hcontents, hne, hhot, hclosed⟩ :=
    readSuccessLoop_spec q.header q.hot got h.nonempty h.hot h.closed hgot
  let q' : KSendBuffer := ⟨header', hot', q.totalLen - got⟩
  have hleft : q'.contents = q.contents.drop got := hcontents
  have hkept : q'.Kept := by
    refine ⟨hne, hhot, hclosed, ?_⟩
    rw [hleft, List.length_drop]
    show q.totalLen - got = _
    rw [h.total]
    omega
  refine ⟨q', ?_, hkept, hleft⟩
  unfold KSendBuffer.readSuccess
  rw [heq]
  simp only [Option.bind_eq_bind, Option.bind_some]
  by_cases hend : header' = []
  · have hempty : q'.contents = [] := hkept.header_eq_nil.mp hend
    have hzero : q.totalLen - got = 0 := by
      have htotal := hkept.total
      rw [hempty] at htotal
      exact htotal
    rw [if_pos ⟨hpos, hend⟩, if_neg (not_not.mpr hzero), hempty]
    rfl
  · have hsome : q'.contents ≠ [] := fun hempty => hend (hkept.header_eq_nil.mpr hempty)
    rw [if_neg (fun h => hend h.2), decide_eq_true hsome]

/-- A round of `copy_read_buffer` copies something. -/
theorem Kept.firstReadBuffer (h : q.Kept) (hleft : q.contents ≠ []) :
    ∃ data, q.firstReadBuffer = some data ∧ data ≠ [] ∧ data <+: q.contents := by
  obtain ⟨iovecs, heq, hlength, hprefix, hne⟩ := h.getReadBuffer hleft 1
  cases iovecs with
  | nil =>
    cases hheader : q.header with
    | nil => exact absurd (h.header_eq_nil.mp hheader) hleft
    | cons b next =>
      simp only [KSendBuffer.getReadBuffer, hheader] at heq
      cases heq
  | cons data rest =>
    refine ⟨data, by rw [KSendBuffer.firstReadBuffer, heq]; rfl, hne data List.mem_cons_self, ?_⟩
    rw [List.flatten_cons] at hprefix
    exact (List.prefix_append _ _).trans hprefix

/-- A round of `copy_read_buffer` copies a piece from the front, and goes on where something is
left. -/
theorem Kept.round (h : q.Kept) (hleft : q.contents ≠ []) (length : ℕ) :
    ∃ (piece : Bytes) (q' : KSendBuffer), 0 < piece.length ∧ piece.length ≤ length + 1 ∧
      piece = q.contents.take piece.length ∧ q'.Kept ∧
      q'.contents = q.contents.drop piece.length ∧
      ∀ fuel out, KSendBuffer.copyLoop (fuel + 1) q (length + 1) out =
        if q'.contents ≠ [] then
          KSendBuffer.copyLoop fuel q' (length + 1 - piece.length) (out ++ piece)
        else some (q', out ++ piece) := by
  obtain ⟨data, hdata, hne, hfront⟩ := h.firstReadBuffer hleft
  let piece := data.take (length + 1)
  have hprefix : piece <+: q.contents := (List.take_prefix _ _).trans hfront
  have hpos : 0 < piece.length := by
    have hsome := List.length_pos_iff.mpr hne
    simp only [piece, List.length_take]
    omega
  obtain ⟨q', hread, hkept, hrest⟩ := h.readSuccess hpos hprefix.length_le
  refine ⟨piece, q', hpos, List.length_take_le _ _, List.prefix_iff_eq_take.mp hprefix, hkept,
    hrest, fun fuel out => ?_⟩
  rw [KSendBuffer.copyLoop, hdata]
  simp only [Option.bind_eq_bind, Option.bind_some]
  rw [hread]
  simp only [Option.bind_some, decide_eq_true_eq]
  rfl

/-- The loop copies the front of what is left, as far as there is room. -/
theorem Kept.copyLoop (fuel : ℕ) (h : q.Kept) {length : ℕ} (hfuel : length ≤ fuel)
    (hleft : q.contents ≠ []) (out : Bytes) :
    ∃ q', KSendBuffer.copyLoop fuel q length out = some (q', out ++ q.contents.take length) ∧
      q'.Kept ∧ q'.contents = q.contents.drop length := by
  induction fuel generalizing q length out with
  | zero =>
    have hzero : length = 0 := Nat.le_zero.mp hfuel
    subst hzero
    exact ⟨q, by rw [KSendBuffer.copyLoop, List.take_zero, List.append_nil], h, rfl⟩
  | succ fuel ih =>
    cases length with
    | zero => exact ⟨q, by rw [KSendBuffer.copyLoop, List.take_zero, List.append_nil], h, rfl⟩
    | succ length =>
      obtain ⟨piece, q', hpos, hle, hpiece, hkept, hrest, hround⟩ := h.round hleft length
      have htake : q.contents.take (length + 1) =
          piece ++ q'.contents.take (length + 1 - piece.length) := by
        calc q.contents.take (length + 1)
            = q.contents.take (piece.length + (length + 1 - piece.length)) := by
              rw [Nat.add_sub_cancel' hle]
          _ = q.contents.take piece.length ++
                (q.contents.drop piece.length).take (length + 1 - piece.length) := List.take_add
          _ = piece ++ q'.contents.take (length + 1 - piece.length) := by rw [← hpiece, hrest]
      have hdrop : q.contents.drop (length + 1) =
          q'.contents.drop (length + 1 - piece.length) := by
        rw [hrest, List.drop_drop, Nat.add_sub_cancel' hle]
      rw [hround, htake, hdrop]
      by_cases hmore : q'.contents = []
      · rw [if_neg (not_not.mpr hmore), hmore, List.take_nil, List.append_nil, List.drop_nil]
        exact ⟨q', rfl, hkept, hmore⟩
      · rw [if_pos hmore]
        have hroom : length + 1 - piece.length ≤ fuel := by omega
        obtain ⟨last, hlast, hend⟩ := ih hkept hroom hmore (out ++ piece)
        exact ⟨last, hlast.trans (by rw [List.append_assoc]), hend⟩

/-- `copy_read_buffer` takes the bytes from the front. -/
theorem Kept.copyReadBuffer (h : q.Kept) (hleft : q.contents ≠ []) (length : ℕ) :
    ∃ q', q.copyReadBuffer length = some (q', q.contents.take length) ∧ q'.Kept ∧
      q'.contents = q.contents.drop length := by
  have hheader : q.header ≠ [] := fun hnil => hleft (h.header_eq_nil.mp hnil)
  obtain ⟨q', heq, hkept, hrest⟩ := h.copyLoop length le_rfl hleft []
  refine ⟨q', ?_, hkept, hrest⟩
  rw [KSendBuffer.copyReadBuffer, if_neg hheader, heq, List.nil_append]

/-- A chain keeps the read buffer of a stream: what is left in it are the bytes that the connection
keeps, `getHeader` is NULL where there are none, and `getLength` is their number. -/
structure Holds (q : KSendBuffer) (readBuffer : Option Bytes) : Prop where
  kept : q.Kept
  contents : q.contents = readBuffer.getD []
  header : q.header = [] ↔ strLen readBuffer = 0
  length : q.totalLen = strLen readBuffer

theorem Kept.holds (h : q.Kept) {readBuffer : Option Bytes}
    (hcontents : q.contents = readBuffer.getD []) : q.Holds readBuffer where
  kept := h
  contents := hcontents
  header := by rw [h.header_eq_nil, hcontents, strLen, List.length_eq_zero_iff]
  length := by rw [h.total, hcontents, strLen]

end KSendBuffer

namespace KHttp2

open KSendBuffer

/-- What the events of a read buffer do to the stream that has it: `state_read_data` keeps a piece,
a reader is served where something is left, and `state_rst_stream` drops what nobody read. -/
def readBufferStep (c : CtxId) (s : KHttp2) : ReadBufferEvent → KHttp2
  | .append str =>
    if 0 < str.length ∧ str.length ≤ readBufferSize then s.modify c fun ctx => { ctx with
      readBuffer := some (ctx.readBuffer.getD [] ++ str.take (str.length % 2 ^ 16)) }
    else s
  | .copy length =>
    if strLen (s.ctx c).readBuffer = 0 then s else (s.copyReadBuffer c length).1
  | .clean => s.modify c fun ctx => { ctx with readBuffer := ctx.readBuffer.map fun _ => [] }

/-- The bytes of a DATA frame are kept before a reader that waits is served. -/
theorem takeData_eq (s : KHttp2) (c : CtxId) {taken : Bytes}
    (h : 0 < taken.length ∧ taken.length ≤ readBufferSize) :
    s.takeData c taken =
      ((s.readBufferStep c (.append taken)).logData c taken).wakeReader c false := by
  rw [readBufferStep, if_pos h]
  rfl

/-- A chain and a stream, after the same events: the chain keeps the read buffer of the stream, and
readers got the same bytes from both. -/
structure Beside (c : CtxId) (handed : Bytes) (r : ReadBufferRun) (s : KHttp2) : Prop where
  holds : r.q.Holds (s.ctx c).readBuffer
  copied : handedTo c s.trace = handed ++ r.copied.flatten

/-- `copy_read_buffer` serves a reader with the same bytes. -/
theorem holds_copyReadBuffer {s : KHttp2} {c : CtxId} {q : KSendBuffer}
    (h : q.Holds (s.ctx c).readBuffer) (hleft : strLen (s.ctx c).readBuffer ≠ 0) (length : ℕ) :
    ∃ q' out, q.copyReadBuffer length = some (q', out) ∧
      q'.Holds ((s.copyReadBuffer c length).1.ctx c).readBuffer ∧
      (s.copyReadBuffer c length).1.trace = .copied c out :: s.trace ∧
      (s.copyReadBuffer c length).2 = out.length := by
  have hsome : q.contents ≠ [] := fun hempty =>
    hleft (h.header.mp (h.kept.header_eq_nil.mpr hempty))
  obtain ⟨q', heq, hkept, hrest⟩ := h.kept.copyReadBuffer hsome length
  refine ⟨q', q.contents.take length, heq, hkept.holds ?_, ?_, ?_⟩
  · rw [hrest, h.contents]
    simp only [copyReadBuffer, log, modify, Function.update_self, Option.getD_some]
  · rw [h.contents]
    rfl
  · rw [h.contents, List.length_take, Nat.min_comm]
    rfl

/-- An event. -/
theorem Beside.step {c : CtxId} {handed : Bytes} {r : ReadBufferRun} {s : KHttp2}
    (h : Beside c handed r s) (e : ReadBufferEvent) :
    ∃ r', r.step e = some r' ∧ Beside c handed r' (s.readBufferStep c e) := by
  cases e with
  | append str =>
    by_cases hpiece : 0 < str.length ∧ str.length ≤ readBufferSize
    · have hlt : str.length < 2 ^ 16 := Nat.lt_of_le_of_lt hpiece.2 (by decide)
      have hne : str ≠ [] := List.length_pos_iff.mp hpiece.1
      refine ⟨{ r with q := r.q.append str }, if_pos hpiece, ?_, ?_⟩
      · simp only [readBufferStep, if_pos hpiece, modify, Function.update_self]
        rw [append_eq_add r.q hlt]
        refine (h.holds.kept.add hne).holds ?_
        rw [contents_add h.holds.kept, h.holds.contents, Nat.mod_eq_of_lt hlt, List.take_length,
          Option.getD_some]
      · simp only [readBufferStep, if_pos hpiece, modify]
        exact h.copied
    · refine ⟨r, if_neg hpiece, ?_⟩
      simp only [readBufferStep, if_neg hpiece]
      exact h
  | copy length =>
    by_cases hempty : strLen (s.ctx c).readBuffer = 0
    · refine ⟨r, if_pos (h.holds.header.mpr hempty), ?_⟩
      simp only [readBufferStep, if_pos hempty]
      exact h
    · have hheader : r.q.header ≠ [] := fun hnil => hempty (h.holds.header.mp hnil)
      obtain ⟨q', out, heq, hholds, htrace, -⟩ := holds_copyReadBuffer h.holds hempty length
      refine ⟨⟨q', r.copied ++ [out]⟩, ?_, ?_⟩
      · simp only [ReadBufferRun.step, if_neg hheader, heq, Option.map_some]
      · simp only [readBufferStep, if_neg hempty]
        refine ⟨hholds, ?_⟩
        rw [htrace, handedTo, Ev.hands, if_pos rfl, h.copied, List.flatten_append,
          List.flatten_singleton, List.append_assoc]
  | clean =>
    refine ⟨{ r with q := r.q.clean }, rfl, kept_init.holds ?_, h.copied⟩
    simp only [readBufferStep, modify, Function.update_self]
    cases (s.ctx c).readBuffer <;> rfl

/-- Whatever pieces come, whatever room readers have and whenever the stream is reset: no assertion
of the chain fails, it keeps what the connection keeps, and readers get the same bytes. -/
theorem readBuffer_run {s : KHttp2} {c : CtxId} (hempty : strLen (s.ctx c).readBuffer = 0)
    (es : List ReadBufferEvent) :
    ∃ r, ReadBufferRun.run ⟨.init, []⟩ es = some r ∧
      Beside c (handedTo c s.trace) r (es.foldl (readBufferStep c) s) := by
  have hrun : ∀ (es : List ReadBufferEvent) (r : ReadBufferRun) (t : KHttp2),
      Beside c (handedTo c s.trace) r t → ∃ r', r.run es = some r' ∧
        Beside c (handedTo c s.trace) r' (es.foldl (readBufferStep c) t) := by
    intro es
    induction es with
    | nil => exact fun r t h => ⟨r, rfl, h⟩
    | cons e es ih =>
      intro r t h
      obtain ⟨r', hstep, h'⟩ := h.step e
      obtain ⟨last, hlast, hend⟩ := ih r' _ h'
      exact ⟨last, by rw [ReadBufferRun.run, hstep, Option.bind_some, hlast], hend⟩
  have hstart : KSendBuffer.init.Holds (s.ctx c).readBuffer :=
    kept_init.holds (List.length_eq_zero_iff.mp hempty).symm
  exact hrun es ⟨.init, []⟩ s ⟨hstart, (List.append_nil _).symm⟩

/-- Readers that have other room than the pieces. -/
def piecesAndReaders : List ReadBufferEvent :=
  [.append [1, 2, 3], .append [4], .copy 2, .append [5, 6], .copy 3, .copy 9, .append [7], .clean]

/-- The result at these readers. -/
theorem readBuffer_run_piecesAndReaders :
    ((ReadBufferRun.run ⟨.init, []⟩ piecesAndReaders).map ReadBufferRun.copied =
      some [[1, 2], [3, 4, 5], [6]]) ∧
      ∃ r, ReadBufferRun.run ⟨.init, []⟩ piecesAndReaders = some r ∧
        Beside 0 (handedTo 0 (server 0 0 fun _ => .zero).trace) r
          (piecesAndReaders.foldl (readBufferStep 0) (server 0 0 fun _ => .zero)) :=
  ⟨by decide +kernel,
    readBuffer_run (s := server 0 0 fun _ => .zero) (c := 0) (by decide +kernel) _⟩

end KHttp2

end Khttpd
