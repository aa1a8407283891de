import Khttpd.Analysis.ChunkSize
import Khttpd.Analysis.ChunkedMessage
import Khttpd.Analysis.MemoryBytes
import Khttpd.Model.DechunkReader

/-!
# What the reader of chunked bodies delivers

The reader asks the upstream again where the engine needs more, and drops what the engine left. The
engine leaves nothing but the start of a line behind the last chunk, so a body without trailers
comes out whole. A trailer line ends the loop like a failure.
-/

set_option autoImplicit false

namespace Khttpd

/-! ## Where a piece lies -/

/-- A piece of a chunk lies in front of what is left. -/
theorem dechunkData_success {w : BitVec 32} {buf piece : Bytes} {n : ℕ} (hn : 0 < n)
    (h : (dechunkData w buf n).result = .success piece) :
    piece ≠ [] ∧ buf = piece ++ (dechunkData w buf n).rest := by
  unfold dechunkData at h ⊢
  dsimp only at h ⊢
  by_cases hlength : min w.toNat buf.length = 0
  · rw [if_pos hlength] at h
    cases h
  · rw [if_neg hlength] at h ⊢
    cases h
    refine ⟨?_, (List.take_append_drop _ _).symm⟩
    apply List.ne_nil_of_length_pos
    rw [List.length_take]
    omega

/-- The loop over a size line leaves the end of its input. -/
theorem dechunkSizeLoop_suffix (w : BitVec 32) (buf : Bytes) :
    (dechunkSizeLoop w buf).1.rest <:+ buf := by
  induction buf generalizing w with
  | nil => exact List.suffix_rfl
  | cons ch buf ih =>
    unfold dechunkSizeLoop
    split
    · exact List.suffix_cons ch buf
    · split
      · exact (ih _).trans (List.suffix_cons ch buf)
      · split
        · dsimp only
          split
          · exact List.suffix_rfl
          · exact (ih _).trans (List.suffix_cons ch buf)
        · exact (ih _).trans (List.suffix_cons ch buf)

/-- The loop over a size line returns no piece. -/
theorem dechunkSizeLoop_result (w : BitVec 32) (buf piece : Bytes) :
    (dechunkSizeLoop w buf).1.result ≠ .success piece := by
  induction buf generalizing w with
  | nil => simp [dechunkSizeLoop]
  | cons ch buf ih =>
    unfold dechunkSizeLoop
    split
    · simp
    · split
      · exact ih _
      · split
        · dsimp only
          split
          · simp
          · exact ih _
        · exact ih _

/-- A trailer line is no piece. -/
theorem dechunkLast_result (buf piece : Bytes) : (dechunkLast buf).result ≠ .success piece := by
  unfold dechunkLast
  split
  · simp
  · dsimp only
    split
    · simp
    · simp

theorem dechunkSize_success {w : BitVec 32} {buf piece : Bytes} {n : ℕ} (hn : 0 < n)
    (h : (dechunkSize w buf n).result = .success piece) :
    piece ≠ [] ∧ piece ++ (dechunkSize w buf n).rest <:+ buf := by
  have hsuffix := dechunkSizeLoop_suffix w buf
  have hresult := dechunkSizeLoop_result w buf piece
  unfold dechunkSize at h ⊢
  split at h
  · rename_i hcond
    rw [if_pos hcond]
    generalize dechunkSizeLoop w buf = r at h hsuffix hresult ⊢
    obtain ⟨out, line⟩ := r
    cases line with
    | false => exact absurd h hresult
    | true =>
      dsimp only at h ⊢
      by_cases hzero : out.chunkSize = 0
      · rw [if_pos hzero] at h
        exact absurd h (dechunkLast_result _ _)
      · rw [if_neg hzero] at h ⊢
        obtain ⟨hne, hrest⟩ := dechunkData_success hn h
        rw [← hrest]
        exact ⟨hne, hsuffix⟩
  · rename_i hcond
    rw [if_neg hcond]
    obtain ⟨hne, hrest⟩ := dechunkData_success hn h
    rw [← hrest]
    exact ⟨hne, List.suffix_rfl⟩

/-- A piece that the engine returns has bytes, and ends where the rest of the input starts. -/
theorem dechunk_success {w : BitVec 32} {buf piece : Bytes} {n : ℕ} (hn : 0 < n)
    (h : (dechunk w buf n).result = .success piece) :
    piece ≠ [] ∧ piece ++ (dechunk w buf n).rest <:+ buf := by
  unfold dechunk at h ⊢
  by_cases hfailed : w = chunkIsFailed
  · rw [if_pos hfailed] at h
    cases h
  by_cases hend : w = chunkIsEnd
  · rw [if_neg hfailed, if_pos hend] at h
    cases h
  rw [if_neg hfailed, if_neg hend] at h ⊢
  by_cases hlast : w = chunkReadLast
  · rw [if_pos hlast] at h
    exact absurd h (dechunkLast_result _ _)
  rw [if_neg hlast] at h ⊢
  by_cases hreadEnd : w = chunkReadEnd
  · rw [if_pos hreadEnd] at h ⊢
    cases hline : memchr 10 buf with
    | none =>
      rw [hline] at h
      cases h
    | some r =>
      obtain ⟨line, rest⟩ := r
      rw [hline] at h
      obtain ⟨hne, hsuffix⟩ := dechunkSize_success hn h
      refine ⟨hne, hsuffix.trans ?_⟩
      rw [(memchr_eq_some hline).2]
      exact (List.suffix_cons 10 rest).trans (List.suffix_append line (10 :: rest))
  · rw [if_neg hreadEnd] at h ⊢
    exact dechunkSize_success hn h

namespace KDechunkReader

/-! ## The loop over one read -/

/-- The pieces of a read as one string, without the buffer: `chunk_size`, the bytes decoded, and the
result that ended the calls. -/
def decodeAll : ℕ → BitVec 32 → Bytes → BitVec 32 × Bytes × KDechunkResult
  | 0, chunkSize, _ => (chunkSize, [], .continue)
  | fuel + 1, chunkSize, input =>
    let out := dechunk chunkSize input maxChunkSize.toNat
    match out.result with
    | .success piece =>
      let r := decodeAll fuel out.chunkSize out.rest
      (r.1, piece ++ r.2.1, r.2.2)
    | result => (out.chunkSize, [], result)

theorem maxChunkSize_pos : 0 < maxChunkSize.toNat := by decide

/-- No more is decoded than was read. -/
theorem length_decodeAll (fuel : ℕ) (w : BitVec 32) (input : Bytes) :
    (decodeAll fuel w input).2.1.length ≤ input.length := by
  induction fuel generalizing w input with
  | zero => exact Nat.zero_le _
  | succ fuel ih =>
    unfold decodeAll
    dsimp only
    split
    · rename_i piece hpiece
      have hlength := (dechunk_success maxChunkSize_pos hpiece).2.length_le
      have hrest := ih (dechunk w input maxChunkSize.toNat).chunkSize
        (dechunk w input maxChunkSize.toNat).rest
      rw [List.length_append] at hlength ⊢
      omega
    · exact Nat.zero_le _

/-- The pieces are put together in front of what is still to be decoded, which they do not touch. -/
theorem decodeLoop_eq (fuel : ℕ) (w : BitVec 32) {b : Buffer} (hdst : b.dst ≤ b.src)
    (hsrc : b.src ≤ b.endp) :
    let input := memRead b.mem b.src (b.endp - b.src)
    let d := decodeLoop fuel w b
    let r := decodeAll fuel w input
    d.chunkSize = r.1 ∧ d.result = r.2.2 ∧ d.buf.dst = b.dst + r.2.1.length ∧
      memRead d.buf.mem 0 d.buf.dst = memRead b.mem 0 b.dst ++ r.2.1 := by
  induction fuel generalizing w b with
  | zero => exact ⟨rfl, rfl, rfl, (List.append_nil _).symm⟩
  | succ fuel ih =>
    intro input
    have hlength : input.length = b.endp - b.src := length_memRead _ _ _
    have hinput : memRead b.mem b.src (b.endp - b.src) = input := rfl
    unfold decodeLoop decodeAll
    dsimp only
    rw [hinput]
    cases hresult : (dechunk w input maxChunkSize.toNat).result with
    | success piece =>
      obtain ⟨-, skip, hskip⟩ := dechunk_success maxChunkSize_pos hresult
      generalize dechunk w input maxChunkSize.toNat = out at hskip ⊢
      have hsum := congrArg List.length hskip
      rw [List.length_append, List.length_append, hlength] at hsum
      -- the three parts of what was to be decoded
      have hcut := memRead_add b.mem b.src (skip.length + piece.length) out.rest.length
      have hcut' := memRead_add b.mem b.src skip.length piece.length
      rw [show skip.length + piece.length + out.rest.length = b.endp - b.src by omega, hinput,
        ← hskip, hcut', List.append_assoc] at hcut
      obtain ⟨-, hcut⟩ := List.append_inj hcut (length_memRead _ _ _).symm
      obtain ⟨hpiece, hrest⟩ := List.append_inj hcut (length_memRead _ _ _).symm
      have hat : b.endp - out.rest.length - piece.length = b.src + skip.length := by omega
      have hsrc' : b.endp - out.rest.length = b.src + (skip.length + piece.length) := by omega
      have hend : b.endp - (b.src + (skip.length + piece.length)) = out.rest.length := by omega
      let mem := if b.endp - out.rest.length - piece.length ≠ b.dst then memWrite b.mem b.dst piece
        else b.mem
      have hkept : memRead mem (b.endp - out.rest.length)
          (b.endp - (b.endp - out.rest.length)) = out.rest := by
        rw [hsrc', hend]
        dsimp only [mem]
        split
        · rw [memRead_memWrite_behind b.mem piece (by omega), ← hrest]
        · exact hrest.symm
      have hdone : memRead mem 0 (b.dst + piece.length) = memRead b.mem 0 b.dst ++ piece := by
        rw [memRead_add, Nat.zero_add]
        dsimp only [mem]
        split
        · rw [memRead_memWrite_before b.mem piece (by omega), memRead_memWrite_self]
        · rename_i hsame
          rw [← not_not.mp hsame, hat, ← hpiece]
      have hnext := ih out.chunkSize
        (b := ⟨mem, b.dst + piece.length, b.endp - out.rest.length, b.endp⟩)
        (by dsimp only; omega) (by dsimp only; omega)
      dsimp only at hnext
      rw [hkept, hdone] at hnext
      obtain ⟨hword, hres, hpos, hmem⟩ := hnext
      refine ⟨hword, hres, ?_, ?_⟩
      · dsimp only
        rw [List.length_append, ← Nat.add_assoc]
        exact hpos
      · dsimp only
        rw [← List.append_assoc]
        exact hmem
    | «continue» => exact ⟨rfl, rfl, rfl, (List.append_nil _).symm⟩
    | trailer piece => exact ⟨rfl, rfl, rfl, (List.append_nil _).symm⟩
    | «end» => exact ⟨rfl, rfl, rfl, (List.append_nil _).symm⟩
    | failed => exact ⟨rfl, rfl, rfl, (List.append_nil _).symm⟩

/-- The calls behind one that returns a piece. -/
theorem decodeAll_piece (fuel : ℕ) {w : BitVec 32} {input piece : Bytes}
    (h : (dechunk w input maxChunkSize.toNat).result = .success piece) :
    decodeAll (fuel + 1) w input =
      let out := dechunk w input maxChunkSize.toNat
      let r := decodeAll fuel out.chunkSize out.rest
      (r.1, piece ++ r.2.1, r.2.2) := by
  rw [decodeAll]
  simp only [h]

/-- One that returns no piece is the last. -/
theorem decodeAll_last (fuel : ℕ) {w : BitVec 32} {input : Bytes}
    (h : ∀ piece, (dechunk w input maxChunkSize.toNat).result ≠ .success piece) :
    decodeAll (fuel + 1) w input =
      let out := dechunk w input maxChunkSize.toNat
      (out.chunkSize, [], out.result) := by
  rw [decodeAll]
  dsimp only
  split
  · rename_i piece hpiece
    exact absurd hpiece (h piece)
  · rfl

/-- A piece and the rest are shorter than the input they come from, unless they are all of it. -/
theorem length_rest_lt {w : BitVec 32} {input piece : Bytes}
    (h : (dechunk w input maxChunkSize.toNat).result = .success piece) :
    (dechunk w input maxChunkSize.toNat).rest.length < input.length := by
  obtain ⟨hne, hsuffix⟩ := dechunk_success maxChunkSize_pos h
  have hlength := hsuffix.length_le
  have hpos := List.length_pos_iff.mpr hne
  rw [List.length_append] at hlength
  omega

/-- Each call that returns a piece takes a byte of the read, so there are enough of them. -/
theorem decodeAll_fuel {fuel : ℕ} {w : BitVec 32} {input : Bytes} (h : input.length < fuel) :
    decodeAll (fuel + 1) w input = decodeAll fuel w input := by
  induction fuel generalizing w input with
  | zero => omega
  | succ fuel ih =>
    by_cases hpiece : ∃ piece, (dechunk w input maxChunkSize.toNat).result = .success piece
    · obtain ⟨piece, hresult⟩ := hpiece
      have hlt := length_rest_lt hresult
      rw [decodeAll_piece _ hresult, decodeAll_piece _ hresult]
      dsimp only
      rw [ih (by omega)]
    · have hlast := not_exists.mp hpiece
      rw [decodeAll_last _ hlast, decodeAll_last _ hlast]

/-- What the calls on one read leave, where `rest` comes behind it. -/
inductive Decodes (rest payload : Bytes) (pieces : List Bytes)
    (r : BitVec 32 × Bytes × KDechunkResult) : Prop
  /-- More is needed; the start of a line may be left. -/
  | more (left : Bytes) (hpayload : payload = r.2.1 ++ left) (st : ChunkState) (hfits : st.Fits)
      (hword : r.1 = st.word) (hresult : r.2.2 = .continue) (kept : Bytes)
      (h : Pending [] st (kept ++ rest) left pieces) (hneed : kept = [] ∨ st = .last ∧ 10 ∉ kept)
  /-- A trailer line. -/
  | trailer (hpieces : pieces ≠ []) (piece : Bytes) (hword : r.1 = chunkReadLast)
      (hresult : r.2.2 = .trailer piece)
  /-- The end. -/
  | done (hpayload : payload = r.2.1) (hpieces : pieces = []) (hword : r.1 = chunkIsEnd)
      (hresult : r.2.2 = .end) (hrest : rest = [])

/-- The calls on one read of a body that is pending. -/
theorem decodeAll_pending {rest payload input : Bytes} {pieces : List Bytes} {st : ChunkState}
    {fuel : ℕ} (hfits : st.Fits) (hfuel : input.length < fuel)
    (h : Pending [] st (input ++ rest) payload pieces) :
    Decodes rest payload pieces (decodeAll fuel st.word input) := by
  induction fuel generalizing st input payload with
  | zero => omega
  | succ fuel ih =>
    have hanswer := dechunk_pending hfits maxChunkSize_pos h
    cases hanswer with
    | more st' hfits' hword hresult h' hneed =>
      rw [decodeAll_last _ (by simp [hresult])]
      exact .more payload rfl st' hfits' hword hresult _ h' hneed
    | trailer piece left hpieces hword hresult h' =>
      rw [decodeAll_last _ (by simp [hresult])]
      refine .trailer ?_ piece hword hresult
      rw [hpieces]
      exact List.cons_ne_nil _ _
    | done hpayload hpieces hword hresult htail =>
      rw [decodeAll_last _ (by simp [hresult])]
      exact .done hpayload hpieces hword hresult (List.append_eq_nil_iff.mp htail).2
    | piece piece left hne hpayload st' hfits' hword hresult h' =>
      have hlt := length_rest_lt hresult
      have hnext := ih hfits' (by omega) h'
      rw [← hword] at hnext
      rw [decodeAll_piece _ hresult]
      dsimp only
      cases hnext with
      | more left' hleft st'' hfits'' hword' hresult' kept h'' hneed =>
        refine .more left' ?_ st'' hfits'' hword' hresult' kept h'' hneed
        rw [hpayload, hleft, List.append_assoc]
      | trailer hpieces piece' hword' hresult' => exact .trailer hpieces piece' hword' hresult'
      | done hleft hpieces hword' hresult' hrest =>
        refine .done ?_ hpieces hword' hresult' hrest
        rw [hpayload, hleft]

/-! ## The calls of `read` -/

/-- No state before the end has the word of the end. -/
theorem word_ne_isEnd {st : ChunkState} (hfits : st.Fits) : st.word ≠ chunkIsEnd := by
  have hmask : ∀ {w : BitVec 32}, w &&& chunkStatus ≠ chunkStatus → w ≠ chunkIsEnd := by
    rintro w hw rfl
    exact hw (by decide)
  cases st with
  | start | dataEnd | last => exact (by decide)
  | size value => exact hmask (ofNat_or_and_status hfits chunkPartSize (by decide))
  | ext value => exact hmask (ofNat_or_and_status hfits chunkPartSizeEnd (by decide))
  | data left =>
    apply hmask
    rw [ChunkState.word, ofNat_and_mask hfits.2 (by decide)]
    decide

/-- What a reader has still to deliver, and what the upstream has still to give. -/
inductive Expects (w : BitVec 32) (payload input : Bytes) : Prop
  | pending (st : ChunkState) (hfits : st.Fits) (hword : w = st.word)
      (h : Pending [] st input payload [])
  /-- The `\r` of the blank line was dropped. -/
  | newline (hword : w = chunkReadLast) (hpayload : payload = []) (hinput : input = [10])
  | ended (hword : w = chunkIsEnd) (hpayload : payload = []) (hinput : input = [])

/-- Behind a last chunk without trailers nothing but a `\r` can be left. -/
theorem expects_of_kept {w : BitVec 32} {kept rest left : Bytes} {st : ChunkState}
    (hfits : st.Fits) (hword : w = st.word) (h : Pending [] st (kept ++ rest) left [])
    (hneed : kept = [] ∨ st = .last ∧ 10 ∉ kept) : Expects w left rest := by
  rcases hneed with rfl | ⟨rfl, hkept⟩
  · exact .pending st hfits hword h
  · generalize hinput : kept ++ rest = input at h
    cases h with
    | blank =>
      cases kept with
      | nil =>
        rw [List.nil_append] at hinput
        rw [hinput]
        exact .pending .last trivial hword .blank
      | cons ch kept =>
        rw [List.cons_append] at hinput
        obtain ⟨-, hinput⟩ := List.cons.inj hinput
        cases kept with
        | nil => exact .newline hword rfl hinput
        | cons ch' kept =>
          rw [List.cons_append] at hinput
          obtain ⟨rfl, -⟩ := List.cons.inj hinput
          exact absurd (List.mem_cons_of_mem ch List.mem_cons_self) hkept

/-- A read from an upstream that has more. -/
theorem upstreamRead_spec {len : ℕ} (hlen : 0 < len) {net : List Bytes} (hnet : [] ∉ net)
    (hmore : net.flatten ≠ []) :
    (upstreamRead len net).1 ≠ [] ∧ (upstreamRead len net).1.length ≤ len ∧
      [] ∉ (upstreamRead len net).2 := by
  cases net with
  | nil => exact absurd rfl hmore
  | cons got net =>
    have hgot : got ≠ [] := fun h => hnet (h ▸ List.mem_cons_self)
    have hrest : [] ∉ net := fun h => hnet (List.mem_cons_of_mem got h)
    dsimp only [upstreamRead]
    split
    · rename_i hle
      exact ⟨hgot, hle, hrest⟩
    · rename_i hlong
      refine ⟨?_, List.length_take_le _ _, ?_⟩
      · apply List.ne_nil_of_length_pos
        rw [List.length_take]
        omega
      · intro h
        rcases List.mem_cons.mp h with h | h
        · have hzero := congrArg List.length h
          rw [List.length_drop, List.length_nil] at hzero
          omega
        · exact hrest h

/-- What the loop over one read does to the buffer, from `dst` on. -/
theorem decodeLoop_read (w : BitVec 32) (mem : ℕ → Byte) (dst : ℕ) (got : Bytes) :
    let d := decodeLoop (got.length + 1) w ⟨memWrite mem dst got, dst, dst, dst + got.length⟩
    let r := decodeAll (got.length + 1) w got
    d.chunkSize = r.1 ∧ d.result = r.2.2 ∧ d.buf.dst = dst + r.2.1.length ∧
      memRead d.buf.mem 0 d.buf.dst = memRead mem 0 dst ++ r.2.1 := by
  have h := decodeLoop_eq (got.length + 1) w
    (b := ⟨memWrite mem dst got, dst, dst, dst + got.length⟩) (Nat.le_refl _) (Nat.le_add_right _ _)
  dsimp only at h
  rw [Nat.add_sub_cancel_left, memRead_memWrite_self,
    memRead_memWrite_before mem got (by omega)] at h
  exact h

/-- A call of `read` hands over the next bytes of the payload: all that the buffer has room for, or
all that are left. -/
structure Reads (len dst : ℕ) (mem : ℕ → Byte) (payload : Bytes) (r : ReadOut)
    (piece left : Bytes) :
    Prop where
  payload : payload = piece ++ left
  result : r.result = some (dst + piece.length)
  bytes : memRead r.mem 0 (dst + piece.length) = memRead mem 0 dst ++ piece
  net : [] ∉ r.net
  expects : Expects r.chunkSize left r.net.flatten
  room : dst + piece.length ≤ len
  all : dst + piece.length < len → left = []

theorem readLoop_reads {len dst : ℕ} (hdst : dst ≤ len) (mem : ℕ → Byte) {w : BitVec 32}
    {net : List Bytes} {payload : Bytes} (hnet : [] ∉ net) (h : Expects w payload net.flatten) :
    ∃ piece left, Reads len dst mem payload (readLoop len w mem dst net) piece left := by
  induction hn : net.flatten.length using Nat.strong_induction_on generalizing w mem dst net payload
  rename_i n ih
  have hstop : payload = [] ∨ len - dst = 0 →
      ∃ piece left, Reads len dst mem payload ⟨w, mem, net, some dst⟩ piece left := by
    intro hor
    refine ⟨[], payload, rfl, rfl, (List.append_nil _).symm, hnet, h, hdst, ?_⟩
    intro hlt
    rw [List.length_nil, Nat.add_zero] at hlt
    exact hor.resolve_right (by omega)
  rw [readLoop]
  by_cases hfull : len - dst = 0
  · rw [if_pos hfull]
    exact hstop (Or.inr hfull)
  rw [if_neg hfull]
  by_cases hend : w = chunkIsEnd
  · rw [if_pos hend]
    cases h with
    | pending st hfits hword h => exact absurd (hword.symm.trans hend) (word_ne_isEnd hfits)
    | newline hword hpayload hinput => exact hstop (Or.inl hpayload)
    | ended hword hpayload hinput => exact hstop (Or.inl hpayload)
  rw [if_neg hend]
  have hmore : net.flatten ≠ [] := by
    cases h with
    | pending st hfits hword h => exact h.input_ne
    | newline hword hpayload hinput =>
      rw [hinput]
      exact List.cons_ne_nil _ _
    | ended hword hpayload hinput => exact absurd hword hend
  obtain ⟨hgot, hlen, hnet'⟩ := upstreamRead_spec (Nat.pos_of_ne_zero hfull) hnet hmore
  have hflat := upstreamRead_flatten (len - dst) net
  generalize upstreamRead (len - dst) net = u at hgot hlen hnet' hflat ⊢
  obtain ⟨got, net'⟩ := u
  dsimp only at hgot hlen hnet' hflat ⊢
  rw [if_neg hgot]
  obtain ⟨hword', hresult', hdst', hmem'⟩ := decodeLoop_read w mem dst got
  generalize decodeLoop (got.length + 1) w
    ⟨memWrite mem dst got, dst, dst, dst + got.length⟩ = d at *
  have hdecoded := length_decodeAll (got.length + 1) w got
  have hdecodes : Decodes net'.flatten payload [] (decodeAll (got.length + 1) w got) := by
    cases h with
    | pending st hfits hword h =>
      rw [← hflat] at h
      rw [hword]
      exact decodeAll_pending hfits (Nat.lt_succ_self _) h
    | newline hword hpayload hinput =>
      rw [hinput] at hflat
      rcases List.append_eq_singleton_iff.mp hflat with ⟨hnil, -⟩ | ⟨hone, hnil⟩
      · exact absurd hnil hgot
      · rw [hone, hword]
        exact .done hpayload rfl rfl rfl hnil
    | ended hword hpayload hinput => exact absurd hword hend
  generalize decodeAll (got.length + 1) w got = r at *
  obtain ⟨w', piece, result⟩ := r
  dsimp only at hword' hresult' hdst' hmem' hdecoded
  rw [hdst'] at hmem'
  cases hdecodes with
  | trailer hpieces piece hword hresult => exact absurd rfl hpieces
  | done hpayload hpieces hword hresult hrest =>
    dsimp only at hpayload hword hresult
    rw [hresult', hresult]
    dsimp only
    refine ⟨piece, [], ?_, ?_, hmem', hnet', ?_, ?_, fun _ => rfl⟩
    · rw [List.append_nil]
      exact hpayload
    · rw [hdst']
    · exact .ended (hword'.trans hword) rfl hrest
    · omega
  | more left hpayload st hfits hword hresult kept h' hneed =>
    dsimp only at hpayload hword hresult
    rw [hresult', hresult, hdst']
    dsimp only
    have hlength := congrArg List.length hflat
    have hpos := List.length_pos_iff.mpr hgot
    rw [List.length_append] at hlength
    have hexpects := expects_of_kept hfits (hword'.trans hword) h' hneed
    obtain ⟨piece', left', hreads⟩ := ih net'.flatten.length (by omega)
      (show dst + piece.length ≤ len by omega) d.buf.mem hnet' hexpects rfl
    refine ⟨piece ++ piece', left', ?_, ?_, ?_, hreads.net, hreads.expects, ?_, ?_⟩
    · rw [hpayload, hreads.payload, List.append_assoc]
    · rw [hreads.result, List.length_append, Nat.add_assoc]
    · rw [List.length_append, ← Nat.add_assoc, hreads.bytes, hmem', List.append_assoc]
    · have := hreads.room
      rw [List.length_append]
      omega
    · intro hlt
      rw [List.length_append, ← Nat.add_assoc] at hlt
      exact hreads.all hlt

/-- A body that is over gives nothing more, however often it is asked for. -/
theorem reads_nil {w : BitVec 32} {net : List Bytes} (hnet : [] ∉ net)
    (h : Expects w [] net.flatten) (n : ℕ) (length : ℕ → ℕ) (mem : ℕ → Byte) :
    reads length n w mem net = List.replicate n (some []) := by
  induction n generalizing w net length mem with
  | zero => rfl
  | succ n ih =>
    obtain ⟨piece, left, hreads⟩ := readLoop_reads (Nat.zero_le (length 0)) mem hnet h
    obtain ⟨hpiece, hleft⟩ := List.append_eq_nil_iff.mp hreads.payload.symm
    have hexpects := hreads.expects
    have hresult := hreads.result
    rw [hleft] at hexpects
    rw [hpiece] at hresult
    rw [reads, List.replicate_succ]
    refine congrArg₂ List.cons ?_ (ih hreads.net hexpects _ _)
    rw [ReadOut.bytes, read, hresult]
    rfl

/-- The calls of `read` on a body hand it over in pieces, and then nothing. -/
theorem reads_expects {w : BitVec 32} {payload : Bytes} {net : List Bytes} (hnet : [] ∉ net)
    (h : Expects w payload net.flatten) {length : ℕ → ℕ} (hlength : ∀ i, 0 < length i)
    (mem : ℕ → Byte) :
    ∃ out : List Bytes, [] ∉ out ∧ out.flatten = payload ∧ ∀ n,
      reads length (out.length + n) w mem net = out.map some ++ List.replicate n (some []) := by
  induction hn : payload.length using Nat.strong_induction_on generalizing w net payload length mem
  rename_i k ih
  by_cases hpayload : payload = []
  · rw [hpayload] at h
    refine ⟨[], List.not_mem_nil, hpayload.symm, ?_⟩
    intro n
    rw [List.length_nil, Nat.zero_add]
    exact reads_nil hnet h n length mem
  · obtain ⟨piece, left, hreads⟩ := readLoop_reads (Nat.zero_le (length 0)) mem hnet h
    have hne : piece ≠ [] := by
      rintro rfl
      have hleft := hreads.all (hlength 0)
      exact hpayload (hreads.payload.trans hleft)
    have hpos := List.length_pos_iff.mpr hne
    have hsum := congrArg List.length hreads.payload
    rw [List.length_append] at hsum
    have hlength' : ∀ i, 0 < (fun i => length (i + 1)) i := fun i => hlength (i + 1)
    obtain ⟨out, hout, hflat, hall⟩ := ih left.length (by omega) hreads.net hreads.expects hlength'
      (readLoop (length 0) w mem 0 net).mem rfl
    refine ⟨piece :: out, ?_, ?_, ?_⟩
    · intro hmem
      rcases List.mem_cons.mp hmem with hnil | hmem
      · exact hne hnil.symm
      · exact hout hmem
    · rw [List.flatten_cons, hflat]
      exact hreads.payload.symm
    · intro n
      have hcount : (piece :: out).length + n = out.length + n + 1 := by
        rw [List.length_cons]
        omega
      rw [hcount, reads, List.map_cons, List.cons_append]
      refine congrArg₂ List.cons ?_ (hall n)
      have hbytes := hreads.bytes
      rw [Nat.zero_add, memRead_zero, List.nil_append] at hbytes
      rw [ReadOut.bytes, read, hreads.result, Option.map_some, Nat.zero_add, hbytes]

/-- Where the engine does not come to the end, a read of everything fails. -/
theorem read_whole {w : BitVec 32} {input : Bytes} (hne : input ≠ []) (hw : w ≠ chunkIsEnd)
    (hresult : (decodeAll (input.length + 1) w input).2.2 ≠ .end)
    (hword : (decodeAll (input.length + 1) w input).1 ≠ chunkIsEnd) (mem : ℕ → Byte) :
    (read (input.length + 1) w mem [input]).result = none := by
  obtain ⟨hword', hresult', hdst', -⟩ := decodeLoop_read w mem 0 input
  have hlength := length_decodeAll (input.length + 1) w input
  have hall : upstreamRead (input.length + 1 - 0) [input] = (input, []) :=
    if_pos (Nat.le_succ _)
  unfold read
  rw [readLoop, if_neg (by omega), if_neg hw, hall]
  dsimp only
  rw [if_neg hne]
  generalize decodeLoop (input.length + 1) w ⟨memWrite mem 0 input, 0, 0, 0 + input.length⟩ = d at *
  cases hd : d.result with
  | «continue» =>
    dsimp only
    rw [readLoop, if_neg (by omega), if_neg (by rw [hword']; exact hword)]
    rfl
  | «end» => exact absurd (hresult'.symm.trans hd) hresult
  | success piece => rfl
  | trailer piece => rfl
  | failed => rfl

/-- Where the scan of the input fails, the engine does not come to the end. -/
theorem decodeAll_failed {s : ChunkScan} {input : Bytes} (hfits : s.state.Fits)
    (hended : ¬s.state.IsEnded) (hfail : (s.run input).state = .failed) (fuel : ℕ) :
    (decodeAll fuel s.state.word input).2.2 ≠ .end ∧
      (decodeAll fuel s.state.word input).1 ≠ chunkIsEnd := by
  induction fuel generalizing s input with
  | zero =>
    refine ⟨by simp [decodeAll], ?_⟩
    intro h
    exact hended (DechunkFeed.isEnded_of_word hfits (by decide) (by decide) (by decide) h)
  | succ fuel ih =>
    have hcall := dechunk_scan hfits hended input maxChunkSize.toNat
    cases hcall with
    | failed used ch rest hbuf hrest hword hresult st hscan hsize hst =>
      rw [decodeAll_last _ (by simp [hresult])]
      dsimp only
      rw [hresult, hword]
      exact ⟨by simp, by decide⟩
    | ok used hbuf hword hfits' hpayload htrailers hend hresult hall =>
      rw [hbuf, ChunkScan.run_append] at hfail
      have hnot : ¬(s.run used).state.IsEnded := by
        intro hover
        cases hst : (s.run used).state with
        | ended value line =>
          rw [ChunkScan.run_ended hst, hst] at hfail
          cases hfail
        | start | size | ext | data | dataEnd | last | failed =>
          rw [hst] at hover
          exact hover
      by_cases hpiece : ∃ piece, (dechunk s.state.word input maxChunkSize.toNat).result =
        .success piece
      · obtain ⟨piece, hpiece⟩ := hpiece
        rw [decodeAll_piece _ hpiece]
        dsimp only
        rw [hword]
        exact ih hfits' hnot hfail
      · rw [decodeAll_last _ (not_exists.mp hpiece)]
        refine ⟨fun h => hnot (hend.mp h), ?_⟩
        dsimp only
        rw [hword]
        intro h
        exact hnot (DechunkFeed.isEnded_of_word hfits' (by decide) (by decide) (by decide) h)

end KDechunkReader

/-! ## Messages -/

/-- The size line for the engine, which looks at the digits only. -/
def ChunkSizeLine.sizeLine (l : ChunkSizeLine) : SizeLine where
  digits := l.digits
  ext := l.ext
  digits_ne := l.digits_ne
  digits_hex := l.digits_hex
  ext_line := fun h => absurd (l.ext_text 10 h) (by decide)
  ext_head := fun ch hch => by rw [l.ext_head ch hch]; decide

/-- The size line with its `\r`, which the engine takes for a part of the extension. -/
def ChunkSizeLine.lineEnd (l : ChunkSizeLine) : SizeLine where
  digits := l.digits
  ext := l.ext ++ [13]
  digits_ne := l.digits_ne
  digits_hex := l.digits_hex
  ext_line := by
    have hline := l.sizeLine.ext_line
    simpa [ChunkSizeLine.sizeLine] using hline
  ext_head := by
    intro ch hch
    have hhead := l.ext_head
    cases hext : l.ext with
    | nil =>
      rw [hext] at hch
      cases hch
      decide
    | cons ch' ext =>
      rw [hext] at hch hhead
      cases hch
      rw [hhead ch rfl]
      decide

/-- A chunk that the engine has room for. -/
def MessageChunk.chunk (c : MessageChunk) (h : c.data.length ≤ maxChunkSize.toNat) : Chunk where
  size := c.size.sizeLine
  data := c.data
  data_ne := c.data_ne
  data_length := h
  size_value := c.size_value

/-- A trim on the right stops at the last byte that it keeps. -/
theorem length_lt_rdropWhile {p : Byte → Bool} {front : Bytes} {ch : Byte} (hch : p ch = false)
    (back : Bytes) : front.length < ((front ++ ch :: back).rdropWhile p).length := by
  induction back using List.reverseRecOn with
  | nil =>
    rw [List.rdropWhile_concat_neg _ _ _ (by simp [hch])]
    simp
  | append_singleton back last ih =>
    rw [← List.cons_append, ← List.append_assoc]
    by_cases hlast : p last
    · rw [List.rdropWhile_concat_pos _ _ _ hlast]
      exact ih
    · rw [List.rdropWhile_concat_neg _ _ _ hlast]
      simp

/-- The bytes of a token are behind the space in the code. -/
theorem space_lt_of_isTchar {ch : Byte} (h : isTchar ch) : 32 < ch := by
  simp only [isTchar, Bool.or_eq_true, Bool.and_eq_true, decide_eq_true_eq, beq_iff_eq,
    UInt8.le_iff_toNat_le, ← UInt8.toNat_inj, UInt8.lt_iff_toNat_lt] at h ⊢
  simp at h ⊢
  omega

theorem isSpace_eq_false {ch : Byte} (h : 32 < ch) : isSpace ch = false := by
  simp only [isSpace, Bool.or_eq_false_iff, Bool.and_eq_false_iff, decide_eq_false_iff_not,
    beq_eq_false_iff_ne, ne_eq, UInt8.le_iff_toNat_le, ← UInt8.toNat_inj,
    UInt8.lt_iff_toNat_lt] at h ⊢
  simp at h ⊢
  omega

/-- The engine sees the name of a field line and its colon. -/
theorem FieldLine.one_lt_visible (f : FieldLine) (more : Bytes) :
    1 < (visible (f.name ++ 58 :: more)).length := by
  have htoken := f.isField.token
  have hpos := List.length_pos_iff.mpr f.isField.name_ne
  have hleft : (f.name ++ 58 :: more).dropWhile isSpace = f.name ++ 58 :: more := by
    cases hname : f.name with
    | nil => exact absurd hname f.isField.name_ne
    | cons ch name =>
      rw [hname] at htoken
      have hch := isSpace_eq_false (space_lt_of_isTchar (htoken ch List.mem_cons_self))
      rw [List.cons_append, List.dropWhile_cons_of_neg (by simp [hch])]
  have hcolon : isSpace 58 = false := by decide
  have hlength : f.name.length < ((f.name ++ 58 :: more).rdropWhile isSpace).length :=
    length_lt_rdropWhile hcolon more
  unfold visible
  rw [hleft]
  omega

/-- Trailer fields are pending where the empty line is. -/
theorem Pending.fieldLines (tail : Bytes) (fields : List FieldLine) :
    ∃ pieces : List Bytes, pieces.length = fields.length ∧
      Pending tail .last (fields.flatMap FieldLine.encode ++ (crlf ++ tail)) [] pieces := by
  induction fields with
  | nil => exact ⟨[], rfl, .blank⟩
  | cons f fields ih =>
    obtain ⟨pieces, hlength, h⟩ := ih
    have hname : (10 : Byte) ∉ f.name := fun h => absurd (f.isField.token 10 h) (by decide)
    have hbefore : (10 : Byte) ∉ f.before := fun h => absurd (f.before_ows 10 h) (by decide)
    have hvalue : (10 : Byte) ∉ f.value := fun h => absurd (f.isField.text 10 h) (by decide)
    have hafter : (10 : Byte) ∉ f.after := fun h => absurd (f.after_ows 10 h) (by decide)
    have hline : 10 ∉ f.name ++ 58 :: (f.before ++ f.value ++ f.after ++ [13]) := by
      simp [hname, hbefore, hvalue, hafter]
    have hinput : (f :: fields).flatMap FieldLine.encode ++ (crlf ++ tail) =
        (f.name ++ 58 :: (f.before ++ f.value ++ f.after ++ [13])) ++
          10 :: (fields.flatMap FieldLine.encode ++ (crlf ++ tail)) := by
      simp [FieldLine.encode, crlf]
    rw [hinput]
    exact ⟨_ :: pieces, by simp [hlength], .trailer hline (f.one_lt_visible _) h⟩

namespace ChunkedMessage

/-- The chunks of a message are within the limit of the engine. -/
def Fits (m : ChunkedMessage) : Prop := ∀ c ∈ m.chunks, c.data.length ≤ maxChunkSize.toNat

/-- A message with small chunks is pending. -/
theorem pending {m : ChunkedMessage} (hfits : m.Fits) :
    ∃ pieces : List Bytes, pieces.length = m.trailers.length ∧
      Pending [] .start m.encode m.payload pieces := by
  obtain ⟨pieces, hlength, hlast⟩ := Pending.fieldLines [] m.trailers
  refine ⟨pieces, hlength, ?_⟩
  rw [List.append_nil] at hlast
  have hzero : hexValue m.last.sizeLine.digits = 0 := m.last_zero
  have hend : Pending [] .start (m.last.encode ++ (m.trailers.flatMap FieldLine.encode ++ crlf)) []
      pieces := by
    refine Pending.sizeLine m.last.sizeLine ?_ ?_
    · rw [hzero]
      exact Nat.zero_le _
    · rw [hzero]
      exact .lastEnd hlast
  obtain ⟨chunks, last, trailers, hlastZero⟩ := m
  unfold encode payload
  unfold Fits at hfits
  dsimp only at hfits hend ⊢
  clear hlast hlength hzero
  induction chunks with
  | nil => exact hend
  | cons c chunks ih =>
    have hchunk : c.encode = (c.chunk (hfits c List.mem_cons_self)).encode :=
      (List.append_assoc _ _ _).symm
    rw [List.flatMap_cons, List.flatMap_cons, List.append_assoc, hchunk]
    exact Pending.chunk _ (ih fun c' hc' => hfits c' (List.mem_cons_of_mem c hc'))

/-- Successive calls of `read` return the payload in pieces, and then 0, whatever the cuts of the
input and the room of the caller. -/
def Delivered (m : ChunkedMessage) : Prop :=
  ∀ (net : List Bytes) (length : ℕ → ℕ) (mem : ℕ → Byte),
    net.flatten = m.encode → [] ∉ net → (∀ i, 0 < length i) →
    ∃ out : List Bytes, [] ∉ out ∧ out.flatten = m.payload ∧ ∀ n,
      KDechunkReader.reads length (out.length + n) chunkReadSize mem net =
        out.map some ++ List.replicate n (some [])

/-- A message without trailers comes out whole. -/
theorem delivered_of_fits {m : ChunkedMessage} (hfits : m.Fits) (htrailers : m.trailers = []) :
    m.Delivered := by
  intro net length mem hnet hne hlength
  obtain ⟨pieces, hcount, hpending⟩ := pending hfits
  rw [htrailers, List.length_nil, List.length_eq_zero_iff] at hcount
  rw [hcount, ← hnet] at hpending
  have hstart : ChunkState.start.Fits := trivial
  exact KDechunkReader.reads_expects hne (.pending .start hstart rfl hpending) hlength mem

/-- A message that makes the engine stop before its end is not delivered by one read. -/
theorem not_delivered {m : ChunkedMessage}
    (hresult : (KDechunkReader.decodeAll (m.encode.length + 1) chunkReadSize m.encode).2.2 ≠ .end)
    (hword : (KDechunkReader.decodeAll (m.encode.length + 1) chunkReadSize m.encode).1 ≠
      chunkIsEnd) : ¬m.Delivered := by
  intro h
  have hne : m.encode ≠ [] := by
    obtain ⟨ch, more, hhead, -⟩ := m.head_encode
    rw [hhead]
    exact List.cons_ne_nil _ _
  have hmem : ([] : Bytes) ∉ [m.encode] := fun h => hne (List.mem_singleton.mp h).symm
  obtain ⟨out, -, -, hall⟩ := h [m.encode] (fun _ => m.encode.length + 1) (fun _ => 0)
    (by simp) hmem (fun _ => Nat.succ_pos _)
  have hnone := KDechunkReader.read_whole hne (by decide) hresult hword fun _ => 0
  have hfirst := congrArg List.head? (hall 1)
  rw [KDechunkReader.reads, List.head?_cons, KDechunkReader.ReadOut.bytes, hnone] at hfirst
  cases out with
  | nil => simp at hfirst
  | cons piece out => simp at hfirst

/-- A trailer line ends the calls. -/
theorem not_delivered_of_trailers {m : ChunkedMessage} (hfits : m.Fits)
    (htrailers : m.trailers ≠ []) :
    ¬m.Delivered := by
  obtain ⟨pieces, hcount, hpending⟩ := pending hfits
  have hpieces : pieces ≠ [] := by
    rintro rfl
    exact htrailers (List.length_eq_zero_iff.mp hcount.symm)
  rw [← List.append_nil m.encode] at hpending
  have hstart : ChunkState.start.Fits := trivial
  have hdecodes : KDechunkReader.Decodes [] m.payload pieces
      (KDechunkReader.decodeAll (m.encode.length + 1) chunkReadSize m.encode) :=
    KDechunkReader.decodeAll_pending hstart (Nat.lt_succ_self _) hpending
  have hstop : (KDechunkReader.decodeAll (m.encode.length + 1) chunkReadSize m.encode).2.2 ≠ .end ∧
      (KDechunkReader.decodeAll (m.encode.length + 1) chunkReadSize m.encode).1 ≠ chunkIsEnd := by
    cases hdecodes with
    | more left hpayload st hfits hword hresult kept h hneed =>
      rw [hresult, hword]
      exact ⟨by simp, KDechunkReader.word_ne_isEnd hfits⟩
    | trailer hne piece hword hresult =>
      rw [hresult, hword]
      exact ⟨by simp, by decide⟩
    | done hpayload hnil hword hresult hrest => exact absurd hnil hpieces
  exact not_delivered hstop.1 hstop.2

/-- The chunks in front of a line that the engine refuses. -/
theorem framed_of_fits {chunks : List MessageChunk}
    (hfits : ∀ c ∈ chunks, c.data.length ≤ maxChunkSize.toNat) :
    Framed (chunks.flatMap MessageChunk.encode) (chunks.flatMap MessageChunk.data) := by
  induction chunks using List.reverseRecOn with
  | nil => exact .nil
  | append_singleton chunks c ih =>
    have hbefore := ih fun c' hc' => hfits c' (List.mem_append_left _ hc')
    have hmax := hfits c (List.mem_append_right _ List.mem_cons_self)
    have hvalue : hexValue c.size.lineEnd.digits = c.data.length := c.size_value
    have hnarrow : ¬Wide c.size.lineEnd.digits := by
      intro hwide
      have hlt := hwide.lt
      rw [hvalue] at hlt
      omega
    have hlength : c.data.length = hexValue c.size.lineEnd.digits % 2 ^ 32 := by
      rw [hvalue]
      exact (Nat.mod_eq_of_lt (Nat.lt_of_le_of_lt hmax (by decide))).symm
    have hcr : (10 : Byte) ∉ ([13] : Bytes) := by decide
    have hchunk := Framed.chunk hbefore c.size.lineEnd hnarrow c.data [13] c.data_ne hlength hcr
    have hencode : c.encode = c.size.lineEnd.line ++ c.data ++ ([13] ++ [10]) := by
      simp [MessageChunk.encode, ChunkSizeLine.encode, SizeLine.line, ChunkSizeLine.lineEnd, crlf]
    rw [List.flatMap_append, List.flatMap_append, List.flatMap_singleton, List.flatMap_singleton,
      hencode]
    exact hchunk

/-- A chunk that the engine refuses ends the calls. -/
theorem not_delivered_of_wide {m : ChunkedMessage}
    (hwrap : ∀ c ∈ m.chunks, c.data.length ≤ maxChunkSize.toNat ∨ Wide c.size.digits)
    (hbig : ¬m.Fits) : ¬m.Delivered := by
  obtain ⟨before, c, after, hchunks, hbefore, hc⟩ : ∃ before c after,
      m.chunks = before ++ c :: after ∧ (∀ b ∈ before, b.data.length ≤ maxChunkSize.toNat) ∧
        maxChunkSize.toNat < c.data.length := by
    have hfind : (m.chunks.find? fun c => maxChunkSize.toNat < c.data.length).isSome := by
      rw [List.find?_isSome]
      unfold Fits at hbig
      simpa using hbig
    obtain ⟨c, hc⟩ := Option.isSome_iff_exists.mp hfind
    obtain ⟨hlarge, before, after, heq, hall⟩ := List.find?_eq_some_iff_append.mp hc
    exact ⟨before, c, after, heq, by simpa using hall, by simpa using hlarge⟩
  have hwide : Wide c.size.lineEnd.digits := by
    have hmem : c ∈ m.chunks := by
      rw [hchunks]
      exact List.mem_append_right _ List.mem_cons_self
    exact (hwrap c hmem).resolve_left (Nat.not_le.mpr hc)
  -- the scan fails in the size line of the chunk
  have hinput : m.encode = before.flatMap MessageChunk.encode ++ (c.size.lineEnd.line ++
      (c.data ++ crlf ++ (after.flatMap MessageChunk.encode ++
        (m.last.encode ++ (m.trailers.flatMap FieldLine.encode ++ crlf))))) := by
    simp [encode, hchunks, MessageChunk.encode, ChunkSizeLine.encode, SizeLine.line,
      ChunkSizeLine.lineEnd, crlf]
  have hfail : (ChunkScan.init.run m.encode).state = .failed := by
    have hline := ChunkScan.run_line (s := ⟨.start, before.flatMap MessageChunk.data, []⟩) rfl
      c.size.lineEnd
    have hrefused := (hline.resolve_left fun h => h.1 hwide).2
    rw [hinput, ChunkScan.run_append, ChunkScan.run_framed (framed_of_fits hbefore),
      ChunkScan.run_append, hrefused, ChunkScan.run_failed rfl]
    rfl
  have hstop := KDechunkReader.decodeAll_failed (s := .init) trivial id hfail
    (m.encode.length + 1)
  exact not_delivered hstop.1 hstop.2

/-- The reader delivers a message exactly when it has no trailers and its chunks are within the
limit of the engine. The size line of a larger chunk is one that the engine refuses. -/
theorem delivered_iff {m : ChunkedMessage}
    (hwrap : ∀ c ∈ m.chunks, c.data.length ≤ maxChunkSize.toNat ∨ Wide c.size.digits) :
    m.Delivered ↔ m.trailers = [] ∧ ∀ c ∈ m.chunks, c.data.length ≤ maxChunkSize.toNat := by
  constructor
  · intro h
    by_cases hfits : m.Fits
    · refine ⟨?_, hfits⟩
      by_contra htrailers
      exact not_delivered_of_trailers hfits htrailers h
    · exact absurd h (not_delivered_of_wide hwrap hfits)
  · rintro ⟨htrailers, hfits⟩
    exact delivered_of_fits hfits htrailers

/-- No extension starts with anything. -/
theorem noExt_head : ∀ ch ∈ ([] : Bytes).head?, ch = 59 := by
  intro ch hch
  cases hch

theorem noExt_text : ∀ ch ∈ ([] : Bytes), isFieldByte ch := by
  intro ch hch
  cases hch

/-- One digit is a number. -/
theorem digits_singleton {ch : Byte} (h : (hexDigit ch).isSome) :
    ∀ c ∈ [ch], (hexDigit c).isSome := by
  intro c hc
  rw [List.mem_singleton.mp hc]
  exact h

/-- A size line of one digit. -/
def digitLine (ch : Byte) (h : (hexDigit ch).isSome) : ChunkSizeLine where
  digits := [ch]
  ext := []
  digits_ne := List.cons_ne_nil ch []
  digits_hex := digits_singleton h
  ext_head := noExt_head
  ext_text := noExt_text

/-- The message `5\r\nhello\r\n0\r\n\r\n`. -/
def helloMessage : ChunkedMessage where
  chunks := [⟨digitLine 53 rfl, kglString "hello", List.cons_ne_nil _ _, rfl⟩]
  last := digitLine 48 rfl
  trailers := []
  last_zero := rfl

/-- The result for a message of one chunk. -/
theorem delivered_helloMessage :
    helloMessage.Delivered ↔ helloMessage.trailers = [] ∧
      ∀ c ∈ helloMessage.chunks, c.data.length ≤ maxChunkSize.toNat := by
  apply delivered_iff
  intro c hc
  rw [List.mem_singleton.mp hc]
  decide

theorem noSpace : ∀ ch ∈ ([] : Bytes), isOws ch := by
  intro ch hch
  cases hch

/-- The field `a:b`. -/
theorem isField_ab : IsField [97] [98] := by
  constructor
  · exact List.cons_ne_nil _ _
  · intro ch hch
    rw [List.mem_singleton.mp hch]
    decide
  · intro ch hch
    rw [List.mem_singleton.mp hch]
    decide
  · intro ch hch
    cases hch
    decide
  · intro ch hch
    cases hch
    decide

/-- The message `0\r\na:b\r\n\r\n`. -/
def trailerMessage : ChunkedMessage where
  chunks := []
  last := digitLine 48 rfl
  trailers := [⟨[97], [98], [], [], isField_ab, noSpace, noSpace⟩]
  last_zero := rfl

/-- A message with a trailer line is not delivered. -/
theorem trailerMessage_not_delivered : ¬trailerMessage.Delivered := by
  apply not_delivered_of_trailers
  · intro c hc
    exact absurd hc List.not_mem_nil
  · exact List.cons_ne_nil _ _

end ChunkedMessage

end Khttpd
