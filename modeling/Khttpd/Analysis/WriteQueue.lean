import Mathlib.Data.List.Basic
import Khttpd.Model.WriteBuffer

/-!
# The output queue as a queue of bytes

What the queue is for: the bytes that are pushed leave in their order, the next offer starts where
the socket stopped, and a buffer comes back when its last byte is gone. A part of a file is pushed
as a length, and means the bytes that follow what was pushed of this file before.
-/

set_option autoImplicit false

namespace Khttpd

variable {b b0 : Http2Buff} {bufs rest : List Http2Buff} {hot got : ℕ} {offset : ℕ → ℕ}

/-! ## The bytes of a list of buffers -/

/-- The bytes that a list of buffers stands for, with the files at their offsets. -/
def wireOf : List Http2Buff → (ℕ → ℕ) → List WireByte
  | [], _ => []
  | b :: next, offset =>
    if b.sendfile then
      (List.range' (offset b.file) b.used).map (WireByte.file b.file) ++
        wireOf next (Function.update offset b.file (offset b.file + b.used))
    else (b.data.take b.used).map WireByte.mem ++ wireOf next offset

/-- The memory of a buffer holds what it uses. -/
def Http2Buff.Valid (b : Http2Buff) : Prop := b.sendfile = true ∨ b.used ≤ b.data.length

/-- The number of bytes that a list of buffers uses. -/
def usedSum (bufs : List Http2Buff) : ℕ := (bufs.map Http2Buff.used).sum

@[simp] theorem usedSum_nil : usedSum [] = 0 := rfl

@[simp] theorem usedSum_cons (b : Http2Buff) (bufs : List Http2Buff) :
    usedSum (b :: bufs) = b.used + usedSum bufs := by
  simp [usedSum]

@[simp] theorem usedSum_append (bufs rest : List Http2Buff) :
    usedSum (bufs ++ rest) = usedSum bufs + usedSum rest := by
  simp [usedSum]

theorem length_wireOf (bufs : List Http2Buff) (offset : ℕ → ℕ) (h : ∀ b ∈ bufs, b.Valid) :
    (wireOf bufs offset).length = usedSum bufs := by
  induction bufs generalizing offset with
  | nil => rfl
  | cons b bufs ih =>
    have hb := h b (List.mem_cons_self ..)
    have hrest := fun offset => ih offset fun b hb => h b (List.mem_cons_of_mem _ hb)
    unfold wireOf
    split
    · simp [hrest]
    · rename_i hmem
      have hlen : b.used ≤ b.data.length := hb.resolve_left (by simpa using hmem)
      simp [hrest, Nat.min_eq_left hlen]

/-- Where the files stand behind a list of buffers. -/
def offsetsAfter : List Http2Buff → (ℕ → ℕ) → ℕ → ℕ
  | [], offset => offset
  | b :: next, offset =>
    if b.sendfile then
      offsetsAfter next (Function.update offset b.file (offset b.file + b.used))
    else offsetsAfter next offset

theorem offsetsAfter_append (bufs rest : List Http2Buff) (offset : ℕ → ℕ) :
    offsetsAfter (bufs ++ rest) offset = offsetsAfter rest (offsetsAfter bufs offset) := by
  induction bufs generalizing offset with
  | nil => rfl
  | cons b bufs ih =>
    rw [List.cons_append, offsetsAfter, offsetsAfter]
    split <;> exact ih _

theorem wireOf_append (bufs rest : List Http2Buff) (offset : ℕ → ℕ) :
    wireOf (bufs ++ rest) offset = wireOf bufs offset ++
      wireOf rest (offsetsAfter bufs offset) := by
  induction bufs generalizing offset with
  | nil => rfl
  | cons b bufs ih =>
    rw [List.cons_append, wireOf, wireOf, offsetsAfter]
    split <;> simp [ih]

/-! ## Buffers that are partly sent -/

/-- What stays the same of a buffer while it is sent. -/
def Http2Buff.key (b : Http2Buff) : Http2Buff := { b with used := 0 }

/-- The buffer `b`, with `hot` bytes of its memory sent, is what is left of `b0`: something, unless
`b0` was empty. -/
structure PartOf (hot : ℕ) (b b0 : Http2Buff) : Prop where
  key : b.key = b0.key
  used : b.used ≤ b0.used
  mem : b.sendfile = false → b = b0
  file : b.sendfile = true → hot = 0
  bound : hot ≤ b.used
  left : 0 < b0.used → hot < b.used

/-- The queue `bufs` is what is left of the buffers `rest`. -/
inductive Queued : ℕ → List Http2Buff → List Http2Buff → Prop
  | nil : Queued 0 [] []
  | cons (hot : ℕ) (b b0 : Http2Buff) (next : List Http2Buff) (h : PartOf hot b b0) :
      Queued hot (b :: next) (b0 :: next)

theorem partOf_refl (b : Http2Buff) : PartOf 0 b b where
  key := rfl
  used := Nat.le_refl _
  mem := fun _ => rfl
  file := fun _ => rfl
  bound := Nat.zero_le _
  left := fun h => h

theorem queued_refl (bufs : List Http2Buff) : Queued 0 bufs bufs := by
  cases bufs with
  | nil => exact .nil
  | cons b next => exact .cons 0 b b next (partOf_refl b)

theorem Queued.hot_le (h : Queued hot bufs rest) : hot ≤ usedSum bufs := by
  cases h with
  | nil => exact Nat.zero_le _
  | cons _ b b0 next h =>
    have := h.bound
    rw [usedSum_cons]
    omega

theorem Queued.map_key (h : Queued hot bufs rest) :
    bufs.map Http2Buff.key = rest.map Http2Buff.key := by
  cases h with
  | nil => rfl
  | cons _ b b0 next h => rw [List.map_cons, List.map_cons, h.key]

/-- No more is left of the buffers than they had. -/
theorem Queued.left_le (h : Queued hot bufs rest) : usedSum bufs ≤ usedSum rest + hot := by
  cases h with
  | nil => exact Nat.zero_le _
  | cons _ b b0 next h =>
    have := h.used
    rw [usedSum_cons, usedSum_cons]
    omega

/-- The buffers up to one with bytes are not sent completely. -/
theorem Queued.left_lt (h : Queued hot bufs rest) {j : ℕ} (hj : j < rest.length)
    (hpos : 0 < rest[j].used) : usedSum rest + hot < usedSum bufs +
      usedSum (rest.take (j + 1)) := by
  cases h with
  | nil => exact absurd hj (Nat.not_lt_zero _)
  | cons _ b b0 next h =>
    rw [usedSum_cons, usedSum_cons, List.take_succ_cons, usedSum_cons]
    have hbound := h.bound
    cases j with
    | zero =>
      have hmore := h.left hpos
      omega
    | succ j =>
      have hj' : j < next.length := Nat.lt_of_succ_lt_succ hj
      have hbyte : next[j].used ≤ usedSum (next.take (j + 1)) := by
        rw [List.take_add_one, List.getElem?_eq_getElem hj', usedSum_append]
        simp
      have hpos' : 0 < next[j].used := hpos
      omega

/-- Something is left where the last buffer has bytes. -/
theorem Queued.left_pos (h : Queued hot bufs rest) (hne : bufs ≠ [])
    (hlast : ∀ b, rest.getLast? = some b → 0 < b.used) : hot < usedSum bufs := by
  cases h with
  | nil => exact absurd rfl hne
  | cons _ b b0 next h =>
    have hbound := h.bound
    rw [usedSum_cons]
    rcases List.eq_nil_or_concat' next with rfl | ⟨next, c, rfl⟩
    · have hmore := h.left (hlast b0 rfl)
      omega
    · have hpos : 0 < c.used := hlast c (by rw [← List.cons_append, List.getLast?_concat])
      rw [usedSum_append, usedSum_cons]
      omega

theorem usedSum_take_le (bufs : List Http2Buff) (n : ℕ) : usedSum (bufs.take n) ≤ usedSum bufs := by
  have hsplit := congrArg usedSum (List.take_append_drop n bufs)
  rw [usedSum_append] at hsplit
  omega

/-- An empty queue has `hot` at its start. -/
theorem Queued.hot_eq (h : Queued hot bufs rest) : (if bufs = [] then 0 else hot) = hot := by
  cases h <;> simp

theorem Queued.append {back : List Http2Buff} (h : Queued hot bufs rest) :
    Queued hot (bufs ++ back) (rest ++ back) := by
  cases h with
  | nil => exact queued_refl back
  | cons _ b b0 next h => exact .cons _ b b0 (next ++ back) h

/-- The bytes that the first call after an offer can account for: the file, or the memory up to the
next file. -/
def reach (hot : ℕ) : List Http2Buff → ℕ
  | [] => 0
  | b :: next =>
    if b.sendfile then b.used
    else b.used - hot + usedSum (next.takeWhile fun b => !b.sendfile)

/-- Bytes of a file leave at its offset. -/
theorem wireOf_file (b : Http2Buff) (next : List Http2Buff) (offset : ℕ → ℕ) (got : ℕ)
    (hfile : b.sendfile = true) (hgot : got ≤ b.used) :
    wireOf ({ b with used := b.used - got } :: next)
        (Function.update offset b.file (offset b.file + got)) =
      (wireOf (b :: next) offset).drop got := by
  rw [wireOf, wireOf, if_pos hfile, if_pos hfile,
    List.drop_append_of_le_length (by simpa using hgot),
    ← List.map_drop, List.drop_range']
  simp only [Function.update_self, Function.update_idem, mul_one]
  rw [show offset b.file + got + (b.used - got) = offset b.file + b.used by omega]

theorem offsetsAfter_file (b : Http2Buff) (next : List Http2Buff) (offset : ℕ → ℕ) (got : ℕ)
    (hfile : b.sendfile = true) (hgot : got ≤ b.used) :
    offsetsAfter ({ b with used := b.used - got } :: next)
        (Function.update offset b.file (offset b.file + got)) =
      offsetsAfter (b :: next) offset := by
  have hsum : offset b.file + got + (b.used - got) = offset b.file + b.used := by omega
  rw [offsetsAfter, offsetsAfter, if_pos hfile, if_pos hfile, Function.update_self,
    Function.update_idem, hsum]

/-- An empty rest of a file stands for nothing. -/
theorem wireOf_empty_file (next : List Http2Buff) (offset : ℕ → ℕ) (hfile : b.sendfile = true)
    (hused : b.used = 0) : wireOf (b :: next) offset = wireOf next offset := by
  rw [wireOf, if_pos hfile, hused]
  simp

/-- Bytes of memory leave behind `hot`. -/
theorem drop_wireOf_mem (next : List Http2Buff) (offset : ℕ → ℕ) (hmem : ¬b.sendfile = true)
    (hlen : b.used ≤ b.data.length) {n : ℕ} (hn : b.used ≤ n) :
    (wireOf (b :: next) offset).drop n = (wireOf next offset).drop (n - b.used) := by
  have hfirst : ((b.data.take b.used).map WireByte.mem).length = b.used := by simp [hlen]
  rw [wireOf, if_neg hmem, List.drop_append, List.drop_eq_nil_of_le (by omega), hfirst,
    List.nil_append]

theorem usedSum_takeWhile_le (bufs : List Http2Buff) :
    usedSum (bufs.takeWhile fun b => !b.sendfile) ≤ reach 0 bufs := by
  cases bufs with
  | nil => exact Nat.le_refl _
  | cons b next =>
    unfold reach
    cases hfile : b.sendfile <;> simp [hfile]

/-! ## What `readSuccess` does -/

/-- The loop drops the bytes that the socket took from the front, and returns the buffers that it
gets to the end of. -/
theorem readSuccessLoop_spec {removed : List Http2Buff} (hq : Queued hot bufs rest)
    (hvalid : ∀ b ∈ bufs, b.Valid) (hgot : got ≤ reach hot bufs) :
    ∃ front gone rest',
      rest = front ++ rest' ∧ gone.map Http2Buff.key = front.map Http2Buff.key ∧
      (readSuccessLoop bufs hot got offset removed).2.2.2.reverse = removed.reverse ++ gone ∧
      Queued (readSuccessLoop bufs hot got offset removed).2.1
        (readSuccessLoop bufs hot got offset removed).1 rest' ∧
      (∀ b ∈ (readSuccessLoop bufs hot got offset removed).1, b.Valid) ∧
      (wireOf (readSuccessLoop bufs hot got offset removed).1
          (readSuccessLoop bufs hot got offset removed).2.2.1).drop
          (readSuccessLoop bufs hot got offset removed).2.1 =
        ((wireOf bufs offset).drop hot).drop got ∧
      offsetsAfter (readSuccessLoop bufs hot got offset removed).1
          (readSuccessLoop bufs hot got offset removed).2.2.1 = offsetsAfter bufs offset := by
  induction bufs generalizing hot got offset removed rest with
  | nil =>
    cases hq
    exact ⟨[], [], [], rfl, rfl, by simp [readSuccessLoop], .nil, by simp [readSuccessLoop],
      by simp [readSuccessLoop, wireOf], rfl⟩
  | cons b next ih =>
    cases hq with
    | cons _ _ b0 _ h =>
      have hnext : ∀ b ∈ next, b.Valid := fun c hc => hvalid c (List.mem_cons_of_mem _ hc)
      unfold readSuccessLoop
      by_cases hzero : got = 0
      · rw [if_pos hzero]
        exact ⟨[], [], b0 :: next, rfl, rfl, by simp, .cons _ _ _ _ h, hvalid, by simp [hzero], rfl⟩
      rw [if_neg hzero]
      by_cases hfile : b.sendfile = true
      · -- a file is alone in its offer, so `got` is part of it
        have hle : got ≤ b.used := by simpa [reach, hfile] using hgot
        have hhot := h.file hfile
        subst hhot
        simp only [if_pos hfile, Nat.min_eq_left hle, List.drop_zero]
        by_cases hdone : b.used - got = 0
        · rw [if_pos hdone, Nat.sub_self]
          obtain ⟨front, gone, rest', hrest, hkey, hremoved, hqueued, hvalid', hwire, hafter⟩ :=
            ih (queued_refl next) hnext (Nat.zero_le _)
          refine ⟨b0 :: front, { b with used := b.used - got } :: gone,
            rest', by rw [hrest]; rfl, ?_,
            hremoved.trans (by simp), hqueued, hvalid', ?_, ?_⟩
          · rw [List.map_cons, List.map_cons, hkey, ← h.key]
            rfl
          · rw [hwire, List.drop_zero, List.drop_zero, ← wireOf_file b next offset got hfile hle]
            exact (wireOf_empty_file (b := { b with used := b.used - got }) next _ hfile hdone).symm
          · have hsame : got = b.used := by omega
            rw [hafter, hsame, offsetsAfter, if_pos hfile]
        · rw [if_neg hdone]
          refine ⟨[], [], b0 :: next, rfl, rfl, by simp, .cons _ _ _ _ ?_, ?_, ?_, ?_⟩
          · exact {
              key := h.key
              used := Nat.le_trans (Nat.sub_le _ _) h.used
              mem := fun hmem => absurd (hmem.symm.trans hfile) (by simp)
              file := fun _ => rfl
              bound := Nat.zero_le _
              left := fun _ => Nat.pos_of_ne_zero hdone }
          · exact fun c hc => (List.mem_cons.mp hc).elim (fun heq => heq ▸ Or.inl hfile) (hnext c)
          · rw [List.drop_zero]
            exact wireOf_file b next offset got hfile hle
          · exact offsetsAfter_file b next offset got hfile hle
      · have hlen : b.used ≤ b.data.length := (hvalid b (List.mem_cons_self ..)).resolve_left hfile
        have hreach : got ≤ b.used - hot + usedSum (next.takeWhile fun b => !b.sendfile) := by
          simpa [reach, hfile] using hgot
        have hbound := h.bound
        have hsame : b = b0 := h.mem (by simpa using hfile)
        rw [if_neg hfile]
        dsimp only
        by_cases hdone : b.used = hot + min got (b.used - hot)
        · rw [if_pos hdone]
          have hback := usedSum_takeWhile_le next
          obtain ⟨front, gone, rest', hrest, hkey, hremoved, hqueued, hvalid', hwire, hafter⟩ :=
            ih (queued_refl next) hnext
              (by omega : got - min got (b.used - hot) ≤ reach 0 next)
          refine ⟨b0 :: front, b :: gone, rest', by rw [hrest]; rfl, ?_,
            hremoved.trans (by simp), hqueued, hvalid', ?_, ?_⟩
          · rw [List.map_cons, List.map_cons, hkey, h.key]
          · rw [hwire, List.drop_zero, List.drop_drop,
              drop_wireOf_mem next offset hfile hlen (by omega : b.used ≤ hot + got)]
            congr 1
            omega
          · rw [hafter, offsetsAfter, if_neg hfile]
        · rw [if_neg hdone]
          have hall : min got (b.used - hot) = got := by omega
          rw [hall]
          have hless : hot + got < b.used := by omega
          refine ⟨[], [], b0 :: next, rfl, rfl, by simp, .cons _ _ _ _ ?_, hvalid, ?_, rfl⟩
          · exact {
              key := h.key
              used := h.used
              mem := h.mem
              file := fun htrue => absurd htrue hfile
              bound := Nat.le_of_lt hless
              left := fun _ => hless }
          · rw [List.drop_drop]

/-! ## What `get_read_buffer` offers -/

theorem readIovecs_zero (bc : ℕ) (bufs : List Http2Buff) : readIovecs bc bufs 0 = [] := by
  cases bc with
  | zero => rfl
  | succ bc => cases bufs <;> simp [readIovecs]

theorem readIovecs_spec (bc : ℕ) (bufs : List Http2Buff) (got : ℕ) (offset : ℕ → ℕ)
    (hvalid : ∀ b ∈ bufs, b.Valid) :
    (readIovecs bc bufs got).flatten.map WireByte.mem <+: wireOf bufs offset ∧
      (readIovecs bc bufs got).flatten.length ≤ usedSum (bufs.takeWhile fun b => !b.sendfile) := by
  induction bc generalizing bufs got with
  | zero => simp [readIovecs]
  | succ bc ih =>
    cases bufs with
    | nil => simp [readIovecs]
    | cons tmp next =>
      unfold readIovecs
      by_cases hstop : got = 0 ∨ tmp.sendfile = true
      · rw [if_pos hstop]
        simp
      · obtain ⟨hpos, hfile⟩ := not_or.mp hstop
        have hmem : tmp.sendfile = false := by simpa using hfile
        have hlen : tmp.used ≤ tmp.data.length :=
          (hvalid tmp (List.mem_cons_self ..)).resolve_left hfile
        have hnext : ∀ b ∈ next, b.Valid := fun b hb => hvalid b (List.mem_cons_of_mem _ hb)
        rw [if_neg hstop, wireOf, if_neg hfile, List.takeWhile_cons, hmem]
        simp only [List.flatten_cons, List.map_append, List.length_append, Bool.not_false, if_true,
          usedSum_cons, List.length_take]
        by_cases hshort : got ≤ tmp.used
        · -- nothing is left to offer behind this buffer
          rw [Nat.min_eq_left hshort, Nat.sub_self, readIovecs_zero]
          simp only [List.flatten_nil, List.map_nil, List.append_nil, List.length_nil, Nat.add_zero]
          refine ⟨?_, by omega⟩
          refine List.IsPrefix.trans ?_ (List.prefix_append _ _)
          exact (List.take_prefix_take_left hshort).map _
        · rw [Nat.min_eq_right (by omega : tmp.used ≤ got)]
          obtain ⟨hpre, hle⟩ := ih next (got - tmp.used) hnext
          exact ⟨(List.prefix_append_right_inj _).mpr hpre, by omega⟩

/-- An offer is a prefix of the bytes that are queued, and ends before the next file. -/
theorem getReadBuffer_spec {maxIovectCount : ℕ} {w : KHttp2WriteBuffer} {o : ReadBuffer}
    (hq : Queued w.hot w.header rest) (hvalid : ∀ b ∈ w.header, b.Valid)
    (hleft : w.left + w.hot = usedSum w.header)
    (h : w.getReadBuffer maxIovectCount = some o) :
    o.wire <+: (wireOf w.header w.fileOffset).drop w.hot ∧ o.wire.length ≤
      reach w.hot w.header := by
  obtain ⟨header, hot, left, offset⟩ := w
  dsimp only at hq hvalid hleft ⊢
  cases hq with
  | nil => cases h
  | cons _ b b0 next hpart =>
    have hnext : ∀ b ∈ next, b.Valid := fun c hc => hvalid c (List.mem_cons_of_mem _ hc)
    simp only [KHttp2WriteBuffer.getReadBuffer] at h
    rw [usedSum_cons] at hleft
    by_cases hfile : b.sendfile = true
    · rw [if_pos hfile] at h
      obtain rfl := Option.some.inj h
      obtain rfl := hpart.file hfile
      rw [List.drop_zero, wireOf, if_pos hfile, reach, if_pos hfile]
      exact ⟨List.prefix_append _ _, by simp [ReadBuffer.wire]⟩
    · rw [if_neg hfile] at h
      have hbound := hpart.bound
      have hlen : b.used ≤ b.data.length := (hvalid b (List.mem_cons_self ..)).resolve_left hfile
      have hall : min (b.used - hot) left = b.used - hot := by omega
      rw [hall] at h
      obtain rfl := Option.some.inj h
      obtain ⟨hpre, hle⟩ :=
        readIovecs_spec (maxIovectCount - 2) next (left - (b.used - hot)) offset hnext
      have hfirst : hot ≤ ((b.data.take b.used).map WireByte.mem).length := by
        simpa [hlen] using hbound
      rw [wireOf, if_neg hfile, reach, if_neg hfile, List.drop_append_of_le_length hfirst,
        ReadBuffer.wire, List.flatten_cons, List.map_append, ← List.map_drop, List.drop_take]
      refine ⟨(List.prefix_append_right_inj _).mpr hpre, ?_⟩
      simp only [List.length_append, List.length_map, List.length_take, List.length_drop]
      omega

/-! ## Runs -/

namespace QueueRun

/-- The bytes that are queued and not sent. -/
def unsent (q : QueueRun) : List WireByte := (wireOf q.w.header q.w.fileOffset).drop q.w.hot

/-- What holds between two operations. -/
structure Inv (offset : ℕ → ℕ) (q : QueueRun) : Prop where
  queued : ∃ front rest, q.pushed = front ++ rest ∧
    q.removed.map Http2Buff.key = front.map Http2Buff.key ∧ Queued q.w.hot q.w.header rest
  valid : ∀ b ∈ q.w.header, b.Valid
  pushed : ∀ b ∈ q.pushed, b.Valid
  last : ∀ b ∈ q.pushed.getLast?, 0 < b.used
  wire : q.sent ++ q.unsent = wireOf q.pushed offset
  left : q.w.left + q.w.hot = usedSum q.w.header
  offered : ∀ o, q.offered = some o →
    o.wire <+: q.unsent ∧ o.wire.length ≤ reach q.w.hot q.w.header
  offsets : offsetsAfter q.w.header q.w.fileOffset = offsetsAfter q.pushed offset

theorem inv_init (offset : ℕ → ℕ) : (init offset).Inv offset where
  queued := ⟨[], [], rfl, rfl, .nil⟩
  valid := by simp [init, KHttp2WriteBuffer.init]
  pushed := by simp [init]
  last := by simp [init]
  wire := rfl
  left := rfl
  offered := nofun
  offsets := rfl

variable {q : QueueRun}

/-- `hot` is inside of the queue. -/
theorem Inv.hot_le (h : q.Inv offset) : q.w.hot ≤ (wireOf q.w.header q.w.fileOffset).length := by
  obtain ⟨front, rest, -, -, hqueued⟩ := h.queued
  rw [length_wireOf _ _ h.valid]
  exact hqueued.hot_le

/-- `left` counts the bytes that are not sent. -/
theorem Inv.left_eq (h : q.Inv offset) : q.w.left = q.unsent.length := by
  have hleft := h.left
  rw [unsent, List.length_drop, length_wireOf _ _ h.valid]
  omega

theorem reach_append (hot : ℕ) (bufs rest : List Http2Buff) (hne : bufs ≠ []) :
    reach hot bufs ≤ reach hot (bufs ++ rest) := by
  cases bufs with
  | nil => exact absurd rfl hne
  | cons b next =>
    rw [List.cons_append, reach, reach]
    split
    · exact Nat.le_refl _
    · have hsplit : usedSum (next.takeWhile fun b => !b.sendfile) ≤
          usedSum ((next ++ rest).takeWhile fun b => !b.sendfile) := by
        rw [List.takeWhile_append]
        split
        · rename_i hall
          rw [(List.takeWhile_prefix _).eq_of_length hall, usedSum_append]
          omega
        · exact Nat.le_refl _
      omega

theorem inv_push (h : q.Inv offset) {bufs : List Http2Buff}
    (hlast : ∀ b ∈ bufs.getLast?, 0 < b.used)
    (hvalid : ∀ b ∈ bufs, b.Valid) :
    Inv offset { q with w := q.w.push bufs, pushed := q.pushed ++ bufs } := by
  obtain ⟨front, rest, hpushed, hkey, hqueued⟩ := h.queued
  have hhot : (if q.w.header = [] then 0 else q.w.hot) = q.w.hot := hqueued.hot_eq
  have hunsent : (wireOf (q.w.header ++ bufs) q.w.fileOffset).drop q.w.hot =
      q.unsent ++ wireOf bufs (offsetsAfter q.w.header q.w.fileOffset) := by
    rw [wireOf_append, List.drop_append_of_le_length h.hot_le]
    rfl
  exact {
    queued := by
      refine ⟨front, rest ++ bufs, by rw [hpushed, List.append_assoc], hkey, ?_⟩
      show Queued (if q.w.header = [] then 0 else q.w.hot) (q.w.header ++ bufs) (rest ++ bufs)
      rw [hhot]
      exact hqueued.append
    valid := fun b hb => (List.mem_append.mp hb).elim (h.valid b) (hvalid b)
    pushed := fun b hb => (List.mem_append.mp hb).elim (h.pushed b) (hvalid b)
    last := by
      intro b hb
      rw [List.getLast?_append] at hb
      cases hbufs : bufs.getLast? with
      | none => exact h.last b (by simpa [hbufs] using hb)
      | some c => exact hlast b (by simpa [hbufs] using hb)
    wire := by
      show q.sent ++ (wireOf (q.w.header ++ bufs) q.w.fileOffset).drop
        (if q.w.header = [] then 0 else q.w.hot) = wireOf (q.pushed ++ bufs) offset
      rw [hhot, hunsent, ← List.append_assoc, h.wire, wireOf_append, h.offsets]
    left := by
      show q.w.left + usedSum bufs + (if q.w.header = [] then 0 else q.w.hot) =
        usedSum (q.w.header ++ bufs)
      have hleft := h.left
      rw [hhot, usedSum_append]
      omega
    offered := by
      intro o ho
      obtain ⟨hpre, hle⟩ := h.offered o ho
      show o.wire <+: (wireOf (q.w.header ++ bufs) q.w.fileOffset).drop
          (if q.w.header = [] then 0 else q.w.hot) ∧
        o.wire.length ≤ reach (if q.w.header = [] then 0 else q.w.hot) (q.w.header ++ bufs)
      rw [hhot, hunsent]
      refine ⟨hpre.trans (List.prefix_append _ _), ?_⟩
      cases hheader : q.w.header with
      | nil =>
        rw [hheader] at hle
        exact Nat.le_trans hle (Nat.zero_le _)
      | cons b next =>
        rw [hheader] at hle
        exact Nat.le_trans hle (reach_append _ _ _ (List.cons_ne_nil b next))
    offsets := by
      show offsetsAfter (q.w.header ++ bufs) q.w.fileOffset = offsetsAfter (q.pushed ++ bufs) offset
      rw [offsetsAfter_append, offsetsAfter_append, h.offsets] }

theorem inv_readSuccess (h : q.Inv offset) {o : ReadBuffer} (ho : q.offered = some o)
    (hgot : got ≤ o.wire.length) (maxIovectCount : ℕ) :
    (q.act maxIovectCount (.readSuccess got)).Inv offset := by
  obtain ⟨hpre, hreach⟩ := h.offered o ho
  obtain ⟨front, rest, hpushed, hkey, hqueued⟩ := h.queued
  obtain ⟨front', gone, rest', hrest, hkey', hremoved, hqueued', hvalid, hwire, hoffsets⟩ :=
    @readSuccessLoop_spec _ _ _ got q.w.fileOffset [] hqueued h.valid (Nat.le_trans hgot hreach)
  have htake : o.wire.take got = q.unsent.take got := by
    obtain ⟨back, hback⟩ := hpre
    rw [← hback, List.take_append_of_le_length hgot]
  have hleft := h.left_eq
  have hcount : got ≤ q.w.left := by
    have := hpre.length_le
    omega
  exact {
    queued := by
      refine ⟨front ++ front',
        rest', by rw [List.append_assoc, ← hrest]; exact hpushed, ?_, hqueued'⟩
      show (q.removed ++ _).map _ = _
      rw [List.map_append, List.map_append, hkey]
      refine congrArg _ (Eq.trans ?_ hkey')
      exact congrArg _ hremoved
    valid := hvalid
    pushed := h.pushed
    last := h.last
    wire := by
      show (q.sent ++ (q.offered.elim [] ReadBuffer.wire).take got) ++ _ = wireOf q.pushed offset
      rw [ho, Option.elim_some, htake, List.append_assoc, ← h.wire]
      refine congrArg _ (Eq.trans ?_ (List.take_append_drop got q.unsent))
      exact congrArg _ hwire
    left := by
      have hsize := congrArg List.length hwire
      have hbound := hqueued'.hot_le
      rw [List.length_drop, length_wireOf _ _ hvalid] at hsize
      rw [show (wireOf q.w.header q.w.fileOffset).drop q.w.hot = q.unsent from rfl,
        List.length_drop] at hsize
      show q.w.left - got + (readSuccessLoop q.w.header q.w.hot got q.w.fileOffset []).2.1 =
        usedSum (readSuccessLoop q.w.header q.w.hot got q.w.fileOffset []).1
      omega
    offered := nofun
    offsets := hoffsets.trans h.offsets }

theorem inv_step (h : q.Inv offset) (maxIovectCount : ℕ) (e : QueueEvent) :
    (q.step maxIovectCount e).Inv offset := by
  unfold step
  split
  · rename_i henabled
    cases e with
    | push bufs =>
      simp only [enabled, Bool.and_eq_true, List.all_eq_true, Bool.or_eq_true,
        decide_eq_true_eq] at henabled
      refine inv_push h (fun b hb => ?_) fun b hb => henabled.2 b hb
      have hlast := henabled.1
      rw [Option.mem_def.mp hb] at hlast
      simpa using hlast
    | getReadBuffer =>
      obtain ⟨front, rest, hpushed, hkey, hqueued⟩ := h.queued
      exact { h with offered := fun o ho => getReadBuffer_spec hqueued h.valid h.left ho }
    | readSuccess got =>
      simp only [enabled] at henabled
      cases ho : q.offered with
      | none => simp [ho] at henabled
      | some o =>
        rw [ho, Option.any_some, decide_eq_true_eq] at henabled
        exact inv_readSuccess h ho henabled maxIovectCount
  · exact h

theorem inv_run (maxIovectCount : ℕ) (es : List QueueEvent) (h : q.Inv offset) :
    (q.run maxIovectCount es).Inv offset := by
  induction es generalizing q with
  | nil => exact h
  | cons e es ih => exact ih (inv_step h maxIovectCount e)

/-- The queue is a faithful queue of bytes. -/
structure Faithful (offset : ℕ → ℕ) (q : QueueRun) : Prop where
  /-- What was offered since the last `readSuccess` starts at the first byte that is not sent; an
  offer is a range of one file or memory alone. -/
  offered : ∀ o, q.offered = some o → o.wire <+: q.unsent
  /-- What was sent and what is queued make up what was pushed. -/
  wire : q.sent ++ q.unsent = wireOf q.pushed offset
  left : q.w.left = q.unsent.length
  /-- The buffers returned and those queued are those pushed, in this order. -/
  buffers : q.removed.map Http2Buff.key ++ q.w.header.map Http2Buff.key =
    q.pushed.map Http2Buff.key
  /-- A buffer with bytes is returned when its last byte is sent. -/
  returned : ∀ i (hi : i < q.pushed.length), 0 < q.pushed[i].used →
    (i < q.removed.length ↔ usedSum (q.pushed.take (i + 1)) ≤ q.sent.length)
  empty : q.w.header = [] ↔ q.w.left = 0

theorem faithful_of_inv (h : q.Inv offset) : q.Faithful offset := by
  obtain ⟨front, rest, hpushed, hkey, hqueued⟩ := h.queued
  have hcount : q.removed.length = front.length := by
    simpa using congrArg List.length hkey
  have hleft := h.left
  have hbound := hqueued.hot_le
  have hsent : q.sent.length + q.w.left = usedSum front + usedSum rest := by
    have hlen := congrArg List.length h.wire
    rw [List.length_append, length_wireOf _ _ h.pushed, hpushed, usedSum_append] at hlen
    rw [h.left_eq]
    exact hlen
  exact {
    offered := fun o ho => (h.offered o ho).1
    wire := h.wire
    left := h.left_eq
    buffers := by rw [hpushed, List.map_append, hkey, hqueued.map_key]
    returned := by
      intro i hi hpos
      rw [hcount]
      constructor
      · intro hfront
        have htake : usedSum (q.pushed.take (i + 1)) ≤ usedSum front := by
          rw [hpushed, List.take_append_of_le_length hfront]
          exact usedSum_take_le front (i + 1)
        have hrest := hqueued.left_le
        omega
      · intro hle
        by_contra hback
        obtain ⟨j, rfl⟩ := Nat.exists_eq_add_of_le (Nat.le_of_not_lt hback)
        have hj : j < rest.length := by
          rw [hpushed, List.length_append] at hi
          omega
        have hposj : 0 < rest[j].used := by
          simpa [hpushed] using hpos
        have hrest := hqueued.left_lt hj hposj
        have htake : usedSum (q.pushed.take (front.length + j + 1)) =
            usedSum front + usedSum (rest.take (j + 1)) := by
          rw [hpushed, Nat.add_assoc, List.take_length_add_append, usedSum_append]
        omega
    empty := by
      constructor
      · intro hempty
        rw [hempty, usedSum_nil] at hleft
        omega
      · intro hzero
        by_contra hne
        refine absurd (hqueued.left_pos hne fun b hb => ?_) (by omega)
        refine h.last b ?_
        have hrest : rest ≠ [] := by
          rintro rfl
          cases hb
        rw [hpushed, List.getLast?_append, hb]
        rfl }

end QueueRun

end Khttpd
