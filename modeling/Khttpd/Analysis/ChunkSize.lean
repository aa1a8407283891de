import Khttpd.Analysis.ChunkGrammar

/-!
# Chunk sizes

A size line is taken for what it says where its value is within the limit, and refused where one of
its digits before the last seven is more than 1. Between the two lie the lines that wrap.
-/

set_option autoImplicit false

namespace Khttpd

/-! ## A size line that is fed -/

/-- The calls `cs` are given the line `l` behind the whole chunks `before`, and have come to it. -/
structure SizeLine.Reached (l : SizeLine) (before payload : Bytes) (cs : List DechunkCall) :
    Prop where
  framed : Framed before payload
  given : before ++ l.line <+: cs.flatMap DechunkCall.more
  come : before <+: (DechunkFeed.calls cs).taken

/-- The engine takes the line for what it says, whatever came before in whole chunks, and whatever
the cuts of the input and the room for the pieces. -/
structure SizeLine.Exact (l : SizeLine) : Prop where
  /-- A line within the limit is taken. -/
  accepted : ∀ {before payload cs}, l.Reached before payload cs →
    hexValue l.digits ≤ maxChunkSize.toNat → before ++ l.line <+: (DechunkFeed.calls cs).taken
  /-- A line above the limit is not, and `Failed` is returned. -/
  refused : ∀ {before payload cs}, l.Reached before payload cs →
    maxChunkSize.toNat < hexValue l.digits →
      ¬before ++ l.line <+: (DechunkFeed.calls cs).taken ∧
        .failed ∈ (DechunkFeed.calls cs).results
  /-- What is taken behind the line is handed over, and the engine expects the end of a line once
  there are as many bytes as the line says, but not before. -/
  delivered : ∀ {before payload cs}, l.Reached before payload cs → ∀ {data skip : Bytes},
    (DechunkFeed.calls cs).taken = before ++ (l.line ++ data ++ skip) →
    data.length ≤ hexValue l.digits → 10 ∉ skip →
    (skip ≠ [] → 0 < hexValue l.digits ∧ data.length = hexValue l.digits) →
      (DechunkFeed.calls cs).payload = payload ++ data ∧
        ((DechunkFeed.calls cs).chunkSize = chunkReadEnd ↔
          0 < hexValue l.digits ∧ data.length = hexValue l.digits)
  /-- Before that, a call with room hands over what there is. -/
  progress : ∀ {before payload cs}, l.Reached before payload cs → ∀ {data : Bytes},
    (DechunkFeed.calls cs).taken = before ++ (l.line ++ data) →
    data.length < hexValue l.digits → ∀ c : DechunkCall, 0 < c.pieceLength →
    (DechunkFeed.calls cs).unread ++ c.more ≠ [] →
      ∃ piece, piece ≠ [] ∧
        (DechunkFeed.calls (cs ++ [c])).payload = payload ++ (data ++ piece)

namespace ChunkScan

/-- Bytes before the end of a line stay in the line. -/
theorem run_inLine {s : ChunkScan} (hsize : s.state.InSize) {bytes : Bytes} (hline : 10 ∉ bytes) :
    (s.run bytes).state.InSize ∨ (s.run bytes).state = .failed := by
  induction bytes generalizing s with
  | nil => exact Or.inl hsize
  | cons ch bytes ih =>
    have hne : ch ≠ 10 := fun hch => hline (hch ▸ List.mem_cons_self)
    have hdigit : ∀ value, (ScanState.digit value).InSize ∨ ScanState.digit value = .failed := by
      intro value
      unfold ScanState.digit
      split
      · exact Or.inr rfl
      · exact Or.inl trivial
    have hnext : (s.state.next ch).InSize ∨ s.state.next ch = .failed := by
      cases hst : s.state with
      | start | size =>
        rw [ScanState.next]
        split
        · exact hdigit _
        · rw [if_neg hne]
          exact Or.inl trivial
      | ext =>
        rw [ScanState.next, if_neg hne]
        exact Or.inl trivial
      | data | dataEnd | last | ended | failed =>
        rw [hst] at hsize
        exact hsize.elim
    rw [run_cons]
    rcases hnext with hnext | hnext
    · exact ih (s := s.step ch) hnext fun hmem => hline (List.mem_cons_of_mem _ hmem)
    · right
      have hfailed : (s.step ch).state = .failed := hnext
      rw [run_failed hfailed]
      exact hfailed

end ChunkScan

/-- What is before the newline of a size line. -/
theorem SizeLine.not_mem_of_prefix {l : SizeLine} {bytes : Bytes} (h : bytes <+: l.line)
    (hne : bytes ≠ l.line) : 10 ∉ bytes := by
  have hdigits : (10 : Byte) ∉ l.digits ++ l.ext := by
    intro hmem
    rcases List.mem_append.mp hmem with hmem | hmem
    · exact absurd (l.digits_hex 10 hmem) (by decide)
    · exact l.ext_line hmem
  intro hmem
  rcases List.prefix_concat_iff.mp h with heq | hpre
  · exact hne heq
  · exact hdigits (hpre.subset hmem)

/-- Calls that come to a size line take it, or fail if it is wide. -/
theorem SizeLine.Reached.cases {l : SizeLine} {before payload : Bytes} {cs : List DechunkCall}
    (h : l.Reached before payload cs) :
    ¬Wide l.digits ∧ before ++ l.line <+: (DechunkFeed.calls cs).taken ∨
      Wide l.digits ∧ ¬before ++ l.line <+: (DechunkFeed.calls cs).taken ∧
        .failed ∈ (DechunkFeed.calls cs).results := by
  have hf := DechunkFeed.scanned_calls cs
  have hbytes := DechunkFeed.calls_bytes cs
  obtain ⟨more, hmore⟩ := h.given
  obtain ⟨bytes, htaken⟩ := h.come
  generalize DechunkFeed.calls cs = f at hf hbytes htaken ⊢
  rw [← hmore, ← htaken, List.append_assoc, List.append_assoc] at hbytes
  have hrest : bytes ++ f.unread = l.line ++ more := List.append_cancel_left hbytes
  have hscan := DechunkFeed.scan_behind h.framed htaken.symm
  have hgood := hf.ne_failed
  have hline := ChunkScan.run_line (s := ⟨.start, payload, []⟩) rfl l
  have hin : ¬before ++ l.line <+: f.taken →
      ∃ ch rest, l.line = bytes ++ ch :: rest ∧ ∃ rest', f.unread = ch :: rest' := by
    intro hnot
    rcases List.append_eq_append_iff.mp hrest with ⟨left, hleft, hunread⟩ | ⟨left, hleft, -⟩
    · cases left with
      | nil =>
        rw [List.append_nil] at hleft
        refine absurd ?_ hnot
        rw [hleft, htaken]
      | cons ch rest => exact ⟨ch, rest, hleft, rest ++ more, hunread⟩
    · refine absurd ?_ hnot
      rw [← htaken, hleft, ← List.append_assoc]
      exact List.prefix_append _ _
  have hsize : ¬before ++ l.line <+: f.taken → f.scan.state.InSize := by
    intro hnot
    obtain ⟨ch, rest, hcut, -⟩ := hin hnot
    have hne : bytes ≠ l.line := by
      intro heq
      rw [← heq] at hcut
      exact List.cons_ne_nil _ _ (List.self_eq_append_right.mp hcut)
    have hnl := SizeLine.not_mem_of_prefix ⟨ch :: rest, hcut.symm⟩ hne
    rw [hscan] at hgood ⊢
    exact (ChunkScan.run_inLine (s := ⟨.start, payload, []⟩) trivial hnl).resolve_right hgood
  rcases hline with ⟨hwide, hrun⟩ | ⟨hwide, hrun⟩
  · left
    refine ⟨hwide, ?_⟩
    by_contra hnot
    obtain ⟨ch, rest, hcut, rest', hunread⟩ := hin hnot
    rcases hf.state with ⟨-, -, -, hall⟩ | ⟨-, -, -, ch', rest'', hunread', hfail⟩
    · rw [hall (hsize hnot)] at hunread
      cases hunread
    · rw [hunread] at hunread'
      cases hunread'
      -- the byte that makes the engine fail is one of the line
      rw [hscan] at hfail
      rw [hcut, ChunkScan.run_append, ChunkScan.run_cons, ChunkScan.run_failed hfail] at hrun
      have hstate := congrArg ChunkScan.state hrun
      rw [show (ChunkScan.step _ ch).state = .failed from hfail] at hstate
      unfold ChunkScan.setState ScanState.sizeEnd at hstate
      dsimp only at hstate
      split at hstate <;> cases hstate
  · right
    have hnot : ¬before ++ l.line <+: f.taken := by
      rintro ⟨after, hafter⟩
      apply hgood
      rw [← htaken, List.append_assoc] at hafter
      rw [hscan, ← List.append_cancel_left hafter, ChunkScan.run_append, hrun,
        ChunkScan.run_failed rfl]
      rfl
    refine ⟨hwide, hnot, ?_⟩
    obtain ⟨ch, rest, -, rest', hunread⟩ := hin hnot
    rcases hf.state with ⟨-, -, -, hall⟩ | ⟨-, hfailed, -⟩
    · rw [hall (hsize hnot)] at hunread
      cases hunread
    · exact hfailed

/-- A line within the limit counts with its value. -/
theorem lowValue_of_le {value : ℕ} (h : value ≤ maxChunkSize.toNat) :
    lowValue (some value) = value :=
  Nat.mod_eq_of_lt (Nat.lt_of_le_of_lt h (by decide))

/-- The scan behind a line within the limit and some of the bytes it announces. -/
theorem ChunkScan.run_line_data {payload : Bytes} {l : SizeLine}
    (hmax : hexValue l.digits ≤ maxChunkSize.toNat) {data skip : Bytes}
    (hlength : data.length ≤ hexValue l.digits) (hskip : 10 ∉ skip)
    (hend : skip ≠ [] → 0 < hexValue l.digits ∧ data.length = hexValue l.digits) :
    ChunkScan.run ⟨.start, payload, []⟩ (l.line ++ data ++ skip) =
      ⟨if hexValue l.digits = 0 then .last (some 0) []
        else ChunkScan.afterData (hexValue l.digits) data.length, payload ++ data, []⟩ := by
  have hline := ChunkScan.run_line (s := ⟨.start, payload, []⟩) rfl l
  have hnarrow : ¬Wide l.digits := fun hwide => Nat.not_lt.mpr hmax hwide.lt
  have hrun := (hline.resolve_right fun h => hnarrow h.1).2
  rw [List.append_assoc, ChunkScan.run_append, hrun, ScanState.sizeEnd, lowValue_of_le hmax]
  by_cases hzero : hexValue l.digits = 0
  · obtain rfl : data = [] := List.eq_nil_of_length_eq_zero (by omega)
    have hnil : skip = [] := by
      by_contra hne
      have hpos := (hend hne).1
      omega
    rw [hzero, if_pos rfl, if_pos rfl, hnil, List.append_nil, List.append_nil]
    rfl
  · rw [if_neg hzero, if_neg hzero]
    by_cases hdata : data = []
    · have hnil : skip = [] := by
        by_contra hne
        have heq := (hend hne).2
        rw [hdata, List.length_nil] at heq
        exact hzero heq.symm
      rw [hdata, hnil, List.append_nil, List.append_nil, List.length_nil]
      unfold ChunkScan.afterData
      rw [if_neg hzero]
      rfl
    · rw [ChunkScan.run_append, ChunkScan.run_data rfl hdata hlength]
      by_cases hnil : skip = []
      · rw [hnil]
        rfl
      · have hafter : ChunkScan.afterData (hexValue l.digits) data.length = .dataEnd :=
          if_pos (hend hnil).2.symm
        rw [hafter, ChunkScan.run_dataEnd rfl hskip]
        rfl

/-- A line within the limit is handed over as it says. -/
theorem SizeLine.Reached.delivered {l : SizeLine} {before payload : Bytes} {cs : List DechunkCall}
    (h : l.Reached before payload cs) (hmax : hexValue l.digits ≤ maxChunkSize.toNat)
    {data skip : Bytes} (htaken : (DechunkFeed.calls cs).taken = before ++ (l.line ++ data ++ skip))
    (hlength : data.length ≤ hexValue l.digits) (hskip : 10 ∉ skip)
    (hend : skip ≠ [] → 0 < hexValue l.digits ∧ data.length = hexValue l.digits) :
    (DechunkFeed.calls cs).payload = payload ++ data ∧
      (DechunkFeed.calls cs).chunkSize = (if hexValue l.digits = 0 then chunkReadLast
        else if data.length = hexValue l.digits then chunkReadEnd
        else BitVec.ofNat 32 (hexValue l.digits - data.length)) := by
  have hf := DechunkFeed.scanned_calls cs
  generalize DechunkFeed.calls cs = f at hf htaken ⊢
  have hscan := DechunkFeed.scan_behind h.framed htaken
  rw [ChunkScan.run_line_data hmax hlength hskip hend] at hscan
  have hpayload := hf.payload
  rw [hscan] at hpayload
  refine ⟨hpayload.symm, ?_⟩
  rcases hf.state with ⟨hword, -⟩ | ⟨-, -, hsize, -⟩
  · rw [hword, hscan]
    unfold ChunkScan.afterData
    by_cases hzero : hexValue l.digits = 0
    · rw [if_pos hzero, if_pos hzero]
      rfl
    · rw [if_neg hzero, if_neg hzero]
      by_cases heq : data.length = hexValue l.digits
      · rw [if_pos heq, if_pos heq.symm]
        rfl
      · rw [if_neg heq, if_neg fun h => heq h.symm]
        rfl
  · rw [hscan] at hsize
    unfold ChunkScan.afterData at hsize
    dsimp only at hsize
    split at hsize
    · exact hsize.elim
    · split at hsize <;> exact hsize.elim

/-- In the bytes of a chunk a call with room hands over what there is. -/
theorem DechunkFeed.call_data {f : DechunkFeed} {left : ℕ} (hpos : 0 < left)
    (hmax : left ≤ maxChunkSize.toNat) (hword : f.chunkSize = BitVec.ofNat 32 left)
    {c : DechunkCall} (hroom : 0 < c.pieceLength) (hmore : f.unread ++ c.more ≠ []) :
    ∃ piece, piece ≠ [] ∧ (f.call c).payload = f.payload ++ piece := by
  have hlength := List.length_pos_iff.mpr hmore
  have hgo : ¬(f.chunkSize = chunkIsFailed ∨ f.chunkSize = chunkIsEnd) := by
    have hmask : chunkStatusPrefix &&& chunkStatus = chunkStatus := by decide
    have hstatus := ofNat_and_mask hmax hmask
    rw [← hword] at hstatus
    rintro (h | h) <;> rw [h] at hstatus <;> exact absurd hstatus (by decide)
  have hcall : (f.call c).results =
      f.results ++ [(dechunk f.chunkSize (f.unread ++ c.more) c.pieceLength).result] := by
    unfold call
    exact congrArg results (if_neg hgo)
  rw [hword, dechunk_of_data hpos hmax] at hcall
  unfold dechunkData at hcall
  rw [toNat_ofNat_chunk hmax] at hcall
  dsimp only at hcall
  rw [if_neg (by omega)] at hcall
  refine ⟨(f.unread ++ c.more).take (min c.pieceLength (min left (f.unread ++ c.more).length)),
    ?_, ?_⟩
  · apply List.ne_nil_of_length_pos
    rw [List.length_take]
    omega
  · unfold payload
    rw [hcall, List.flatMap_append, List.flatMap_singleton]
    rfl

/-- A line within the limit is taken for what it says. -/
theorem SizeLine.exact_of_le {l : SizeLine} (hmax : hexValue l.digits ≤ maxChunkSize.toNat) :
    l.Exact := by
  have hnarrow : ¬Wide l.digits := fun hwide => Nat.not_lt.mpr hmax hwide.lt
  constructor
  · intro before payload cs h _
    exact (h.cases.resolve_right fun hwide => hnarrow hwide.1).2
  · intro before payload cs h hover
    exact absurd hmax (Nat.not_le.mpr hover)
  · intro before payload cs h data skip htaken hlength hskip hend
    obtain ⟨hpayload, hword⟩ := h.delivered hmax htaken hlength hskip hend
    refine ⟨hpayload, ?_⟩
    rw [hword]
    by_cases hzero : hexValue l.digits = 0
    · rw [if_pos hzero]
      exact ⟨fun h => absurd h (by decide), fun h => absurd hzero (Nat.ne_of_gt h.1)⟩
    · rw [if_neg hzero]
      by_cases heq : data.length = hexValue l.digits
      · rw [if_pos heq]
        exact ⟨fun _ => ⟨Nat.pos_of_ne_zero hzero, heq⟩, fun _ => rfl⟩
      · rw [if_neg heq]
        have hleft : hexValue l.digits - data.length ≤ maxChunkSize.toNat := by omega
        have hmask : chunkStatusPrefix &&& chunkStatus = chunkStatus := by decide
        have hstatus := ofNat_and_mask hleft hmask
        refine ⟨fun h => ?_, fun h => absurd h.2 heq⟩
        rw [h] at hstatus
        exact absurd hstatus (by decide)
  · intro before payload cs h data htaken hlength c hroom hmore
    have htaken' : (DechunkFeed.calls cs).taken = before ++ (l.line ++ data ++ []) := by
      rw [htaken, List.append_nil]
    obtain ⟨hpayload, hword⟩ :=
      h.delivered hmax htaken' (Nat.le_of_lt hlength) List.not_mem_nil fun hne => absurd rfl hne
    rw [if_neg (by omega), if_neg (Nat.ne_of_lt hlength)] at hword
    obtain ⟨piece, hne, hpiece⟩ := DechunkFeed.call_data (by omega) (by omega) hword hroom hmore
    refine ⟨piece, hne, ?_⟩
    have hcalls : DechunkFeed.calls (cs ++ [c]) = (DechunkFeed.calls cs).call c :=
      List.foldl_concat ..
    rw [hcalls, hpiece, hpayload, List.append_assoc]

/-- A line above the limit that is not wide is taken all the same. -/
theorem SizeLine.not_exact {l : SizeLine} (hmax : maxChunkSize.toNat < hexValue l.digits)
    (hnarrow : ¬Wide l.digits) : ¬l.Exact := by
  intro h
  have hgiven : [⟨l.line, 0⟩].flatMap DechunkCall.more = l.line := List.append_nil _
  have hreached : l.Reached [] [] [⟨l.line, 0⟩] := by
    refine ⟨.nil, ?_, List.nil_prefix⟩
    rw [hgiven]
    exact List.prefix_rfl
  rcases hreached.cases with ⟨-, htaken⟩ | ⟨hwide, -⟩
  · exact (h.refused hreached hmax).1 htaken
  · exact hnarrow hwide

/-- The engine takes a size line for what it says where its value is within the limit, or where
one of its digits before the last seven is more than 1. -/
theorem SizeLine.exact_iff (l : SizeLine) :
    l.Exact ↔ hexValue l.digits ≤ maxChunkSize.toNat ∨ Wide l.digits := by
  constructor
  · intro h
    by_contra hnot
    obtain ⟨hmax, hnarrow⟩ := not_or.mp hnot
    exact SizeLine.not_exact (Nat.not_le.mp hmax) hnarrow h
  · rintro (hmax | hwide)
    · exact SizeLine.exact_of_le hmax
    · constructor
      · intro before payload cs h hmax
        exact absurd hwide.lt (Nat.not_lt.mpr hmax)
      · intro before payload cs h _
        exact (h.cases.resolve_left fun hnarrow => hnarrow.1 hwide).2
      · intro before payload cs h data skip htaken
        refine absurd ?_ (h.cases.resolve_left fun hnarrow => hnarrow.1 hwide).2.1
        rw [htaken, ← List.append_assoc, ← List.append_assoc, List.append_assoc]
        exact List.prefix_append _ _
      · intro before payload cs h data htaken
        refine absurd ?_ (h.cases.resolve_left fun hnarrow => hnarrow.1 hwide).2.1
        rw [htaken, ← List.append_assoc]
        exact List.prefix_append _ _

/-- The size line `100000005`. -/
def wrappedLine : SizeLine where
  digits := kglString "100000005"
  ext := []
  digits_ne := List.cons_ne_nil _ _
  digits_hex := List.all_eq_true.mp rfl
  ext_line := newline_nil
  ext_head := head_nil

/-- The engine takes `100000005` for 5. -/
theorem wrappedLine_not_exact : ¬wrappedLine.Exact :=
  SizeLine.not_exact (by decide) (by decide)

end Khttpd
