import Khttpd.Analysis.ChunkGrammar

/-!
# The end of a chunked body

`End` is returned behind a line with at most one visible byte, where the size line before the
trailers counts as zero. A size line counts as zero if the low 32 bits of its value are, and if it
has no digits at all.
-/

set_option autoImplicit false

namespace Khttpd

/-! ## Lines -/

/-- Only white space. -/
def Blank (line : Bytes) : Prop := ∀ ch ∈ line, isSpace ch

/-- A trailer line that is not blank. -/
structure TextLine (line : Bytes) : Prop where
  newline : 10 ∉ line
  text : ¬Blank line

/-- The trim leaves nothing of a blank line, and something of any other. -/
theorem visible_eq_nil_iff (line : Bytes) : visible line = [] ↔ Blank line := by
  unfold visible
  rw [List.rdropWhile_eq_nil_iff]
  constructor
  · intro h ch hch
    rw [← List.takeWhile_append_dropWhile (p := isSpace) (l := line)] at hch
    rcases List.mem_append.mp hch with hch | hch
    · exact List.mem_takeWhile_imp hch
    · exact h ch hch
  · intro h ch hch
    exact h ch (List.dropWhile_subset isSpace hch)

/-- A long line is not blank. -/
theorem LongLine.textLine {line : Bytes} (h : LongLine line) : TextLine line := by
  refine ⟨h.newline, fun hblank => ?_⟩
  have hlong := h.long
  rw [(visible_eq_nil_iff line).mpr hblank] at hlong
  exact absurd hlong (by decide)

/-- A line that is not blank and not long has one visible byte. -/
theorem TextLine.longLine {line : Bytes} (h : TextLine line) (hne : (visible line).length ≠ 1) :
    LongLine line := by
  have hpos := List.length_pos_iff.mpr (mt (visible_eq_nil_iff line).mp h.text)
  exact ⟨h.newline, by omega⟩

/-- Lines and one more. -/
theorem joinLines_append (lines lines' : List Bytes) :
    joinLines (lines ++ lines') = joinLines lines ++ joinLines lines' := List.flatMap_append

/-- One more line. -/
theorem joinLines_concat (lines : List Bytes) (line : Bytes) :
    joinLines (lines ++ [line]) = joinLines lines ++ (line ++ [10]) := by
  unfold joinLines
  rw [List.flatMap_append, List.flatMap_singleton]

/-! ## Honest and plain input -/

/-- What a run of calls says about the end of the body is in the bytes it took. -/
structure DechunkFeed.HonestEnd (f : DechunkFeed) : Prop where
  /-- `End` stands behind a size line of value zero, trailer lines and a blank line. -/
  ended : .end ∈ f.results → ∃ before payload, Framed before payload ∧
    ∃ (l : SizeLine) (lines : List Bytes) (blank : Bytes), hexValue l.digits = 0 ∧
      (∀ line ∈ lines, TextLine line) ∧ 10 ∉ blank ∧ Blank blank ∧
      before ++ (l.line ++ (joinLines lines ++ (blank ++ [10]))) <+: f.taken
  /-- A size line without a digit leads to `Failed`. -/
  bare : ∀ {before payload ext : Bytes}, Framed before payload → NoDigits ext →
    before ++ (ext ++ [10]) <+: f.taken → .failed ∈ f.results
  /-- Trailer lines that are not blank are handed over. -/
  trailer : ∀ {before payload : Bytes} {l : SizeLine} {lines : List Bytes},
    Framed before payload → hexValue l.digits = 0 → (∀ line ∈ lines, TextLine line) →
    before ++ (l.line ++ joinLines lines) <+: f.taken → lines.map visible <+: f.trailers

/-- The end is not invented, whatever the cuts of the input and the room for the pieces. -/
def HonestEnd (bytes : Bytes) : Prop :=
  ∀ cs : List DechunkCall, cs.flatMap DechunkCall.more = bytes → (DechunkFeed.calls cs).HonestEnd

/-- None of the lines for which the engine makes up an end. -/
structure PlainEnd (bytes : Bytes) : Prop where
  /-- No size line without a digit. -/
  bare : ∀ {before payload ext : Bytes}, Framed before payload → NoDigits ext →
    ¬before ++ (ext ++ [10]) <+: bytes
  /-- No size line whose value wraps to zero, with trailers that end. -/
  wrapped : ∀ {before payload : Bytes} {l : SizeLine} {lines : List Bytes} {line : Bytes},
    Framed before payload → ¬Wide l.digits → hexValue l.digits ≠ 0 →
    lowValue (some (hexValue l.digits)) = 0 → (∀ line ∈ lines, LongLine line) → 10 ∉ line →
    (visible line).length ≤ 1 →
    ¬before ++ (l.line ++ (joinLines lines ++ (line ++ [10]))) <+: bytes
  /-- No trailer line with one visible byte. -/
  short : ∀ {before payload : Bytes} {l : SizeLine} {lines : List Bytes} {line : Bytes},
    Framed before payload → hexValue l.digits = 0 → (∀ line ∈ lines, LongLine line) →
    10 ∉ line → (visible line).length = 1 →
    ¬before ++ (l.line ++ (joinLines lines ++ (line ++ [10]))) <+: bytes

/-! ## The scan behind the last size line -/

namespace ChunkScan

/-- The trailers are behind the size line of that value. -/
def Behind (s : ChunkScan) (value : Option ℕ) : Prop :=
  (∃ line, s.state = .last value line) ∨ ∃ line, s.state = .ended value line

/-- Behind the last size line no other comes. -/
theorem Behind.run {s : ChunkScan} {value : Option ℕ} (h : s.Behind value) (bytes : Bytes) :
    (s.run bytes).Behind value := by
  induction bytes generalizing s with
  | nil => exact h
  | cons ch bytes ih =>
    rw [run_cons]
    apply ih
    rcases h with ⟨line, hst⟩ | ⟨line, hst⟩
    · show (∃ line', s.state.next ch = _) ∨ ∃ line', s.state.next ch = _
      rw [hst, ScanState.next]
      split
      · split
        · exact Or.inr ⟨line, rfl⟩
        · exact Or.inl ⟨[], rfl⟩
      · exact Or.inl ⟨_, rfl⟩
    · right
      refine ⟨line, ?_⟩
      show s.state.next ch = _
      rw [hst]
      rfl

/-- There is one value. -/
theorem Behind.value_eq {s : ChunkScan} {value value' : Option ℕ} (h : s.Behind value)
    (h' : s.Behind value') : value = value' := by
  rcases h with ⟨line, hst⟩ | ⟨line, hst⟩ <;> rcases h' with ⟨line', hst'⟩ | ⟨line', hst'⟩ <;>
    rw [hst] at hst' <;> cases hst' <;> rfl

/-- No size line is behind the last one. -/
theorem Behind.not_inSize {s : ChunkScan} {value : Option ℕ} (h : s.Behind value) :
    ¬s.state.InSize := by
  rcases h with ⟨line, hst⟩ | ⟨line, hst⟩ <;> rw [hst] <;> exact id

/-- The scan behind a last size line. -/
theorem run_lastHead {before payload head : Bytes} {value : Option ℕ} (h : Framed before payload)
    (hhead : HeadLine value head) (hzero : lowValue value = 0) :
    init.run (before ++ head) = ⟨.last value [], payload, []⟩ := by
  rw [run_append, run_framed h, run_head rfl hhead, ScanState.sizeEnd, if_pos hzero]
  rfl

/-- The scan in the trailers. -/
theorem run_lastLines {before payload head : Bytes} {value : Option ℕ} (h : Framed before payload)
    (hhead : HeadLine value head) (hzero : lowValue value = 0) {lines : List Bytes}
    (hlines : ∀ line ∈ lines, LongLine line) :
    init.run (before ++ (head ++ joinLines lines)) =
      ⟨.last value [], payload, lines.map visible⟩ := by
  rw [← List.append_assoc, run_append, run_lastHead h hhead hzero, run_trailers rfl hlines]
  rfl

/-- Trailer lines are only added. -/
theorem trailers_prefix (s : ChunkScan) (bytes : Bytes) :
    s.trailers <+: (s.run bytes).trailers := by
  induction bytes generalizing s with
  | nil => exact List.prefix_rfl
  | cons ch bytes ih => exact (List.prefix_append _ _).trans (ih (s.step ch))

end ChunkScan

namespace DechunkFeed

/-- What calls took is a part of what they were given. -/
theorem taken_prefix (cs : List DechunkCall) :
    (calls cs).taken <+: cs.flatMap DechunkCall.more := by
  rw [← calls_bytes cs]
  exact List.prefix_append _ _

/-- A size line that calls took was not refused. -/
theorem Scanned.not_wide {f : DechunkFeed} (hf : f.Scanned) {before payload : Bytes}
    (h : Framed before payload) {l : SizeLine} (htaken : before ++ l.line <+: f.taken) :
    ¬Wide l.digits := by
  intro hwide
  apply hf.ne_failed
  obtain ⟨rest, hrest⟩ := htaken
  rw [List.append_assoc] at hrest
  have hrun := ChunkScan.run_line (s := ⟨.start, payload, []⟩) rfl l
  rw [scan_behind h hrest.symm, ChunkScan.run_append,
    (hrun.resolve_left fun hnot => hnot.1 hwide).2, ChunkScan.run_failed rfl]
  rfl

end DechunkFeed

/-- On plain input the end is not invented. -/
theorem PlainEnd.honestEnd {bytes : Bytes} (h : PlainEnd bytes) : HonestEnd bytes := by
  intro cs hcs
  have hf := DechunkFeed.scanned_calls cs
  have htaken := DechunkFeed.taken_prefix cs
  rw [hcs] at htaken
  generalize DechunkFeed.calls cs = f at hf htaken
  constructor
  · intro hend
    have hended := hf.ended.mp hend
    have hread := ChunkScan.readAs hf.ne_failed
    change ReadAs f.taken f.scan at hread
    generalize hbytes : f.taken = taken at hread htaken
    cases hscan : f.scan with
    | mk st payload trailers =>
      rw [hscan] at hread hended
      cases hread with
      | start | size | ext | bare | data | dataEnd | last => exact hended.elim
      | @ended before payload head value hframed hhead hzero lines hlines line hline hshort rest =>
        have hpre := (List.prefix_append _ rest).trans htaken
        cases hhead with
        | @bare ext hext =>
          refine absurd ?_ (h.bare hframed hext)
          refine List.IsPrefix.trans ?_ hpre
          rw [← List.append_assoc before (ext ++ [10])]
          exact List.prefix_append _ _
        | digits l hnarrow =>
          have hvalue : hexValue l.digits = 0 := by
            by_contra hne
            exact h.wrapped hframed hnarrow hne hzero hlines hline hshort hpre
          have hblank : Blank line := by
            rw [← visible_eq_nil_iff]
            by_contra hne
            have hpos := List.length_pos_iff.mpr hne
            exact h.short hframed hvalue hlines hline (by omega) hpre
          exact ⟨before, payload, hframed, l, lines, line, hvalue,
            fun line' hline' => (hlines line' hline').textLine, hline, hblank,
            List.prefix_append _ _⟩
  · intro before payload ext hframed hext hpre
    exact absurd (hpre.trans htaken) (h.bare hframed hext)
  · intro before payload l lines hframed hvalue hlines hbytes
    have hline : before ++ l.line <+: f.taken := by
      refine List.IsPrefix.trans ?_ hbytes
      rw [← List.append_assoc]
      exact List.prefix_append _ _
    have hnarrow := hf.not_wide hframed hline
    have hzero : lowValue (some (hexValue l.digits)) = 0 := by
      rw [hvalue]
      rfl
    -- a line that is not long would be the first one with one visible byte
    have hlong : ∀ pre : List Bytes, pre <+: lines → ∀ line ∈ pre, LongLine line := by
      intro pre
      induction pre using List.reverseRecOn with
      | nil => nofun
      | append_singleton pre line ih =>
        intro hpre line' hline'
        have hbefore := ih ((List.prefix_append pre [line]).trans hpre)
        rcases List.mem_append.mp hline' with hline' | hline'
        · exact hbefore line' hline'
        · rw [List.mem_singleton.mp hline']
          have htext := hlines line (hpre.subset (List.mem_append_right _ List.mem_cons_self))
          apply htext.longLine
          intro hone
          refine h.short hframed hvalue hbefore htext.newline hone ?_
          rw [← joinLines_concat]
          refine List.IsPrefix.trans ?_ (hbytes.trans htaken)
          obtain ⟨post, rfl⟩ := hpre
          rw [joinLines_append (pre ++ [line])]
          rw [← List.append_assoc, ← List.append_assoc, ← List.append_assoc]
          exact List.prefix_append _ _
    obtain ⟨rest, hrest⟩ := hbytes
    have hscan : f.scan = ChunkScan.run
        ⟨.last (some (hexValue l.digits)) [], payload, lines.map visible⟩ rest := by
      unfold DechunkFeed.scan
      rw [← hrest, ChunkScan.run_append,
        ChunkScan.run_lastLines hframed (.digits l hnarrow) hzero (hlong lines List.prefix_rfl)]
    rw [← hf.trailers, hscan]
    exact ChunkScan.trailers_prefix ⟨_, payload, lines.map visible⟩ rest

/-! ## Input that comes byte by byte -/

/-- A call for each byte. -/
def byteCalls (bytes : Bytes) : List DechunkCall := bytes.map fun ch => ⟨[ch], 1⟩

/-- The calls are given the bytes. -/
theorem byteCalls_more (bytes : Bytes) : (byteCalls bytes).flatMap DechunkCall.more = bytes := by
  unfold byteCalls
  rw [List.flatMap_map]
  exact List.flatMap_singleton' bytes

namespace DechunkFeed

/-- The engine took all it was given but for the part of a trailer line, or it has stopped. -/
def Drained (f : DechunkFeed) : Prop :=
  f.unread = [] ∨ ((∃ value, f.scan.state = .last value []) ∧ 10 ∉ f.unread) ∨
    f.scan.state.IsEnded ∨ .failed ∈ f.results

/-- One more byte is taken. -/
theorem Drained.call {f : DechunkFeed} (hf : f.Scanned) (h : f.Drained) (ch : Byte) :
    (f.call ⟨[ch], 1⟩).Drained := by
  rcases call_cases hf ⟨[ch], 1⟩ with ⟨hstop, hcall⟩ | ⟨⟨hended, hnone⟩, used, rest, result, hbuf,
      hcall, hout, -, -, -, hstate⟩
  · rw [hcall]
    exact Or.inr (Or.inr hstop)
  · obtain ⟨hword, hfits, -, hall⟩ := hf.state.resolve_right fun h => hnone h.2.1
    have hunread : (f.call ⟨[ch], 1⟩).unread = rest := by rw [hcall]
    have hrest : rest = (dechunk f.chunkSize (f.unread ++ [ch]) 1).rest :=
      (congrArg DechunkOut.rest hout).symm
    have hempty : (∀ value, f.scan.state ≠ .last value []) → f.unread = [] := by
      intro hnot
      rcases h with hnil | ⟨⟨value, hlast⟩, -⟩ | hstop | hstop
      · exact hnil
      · exact absurd hlast (hnot value)
      · exact absurd hstop hended
      · exact absurd hstop hnone
    dsimp only at hbuf
    rw [hword] at hrest
    cases hst : f.scan.state with
    | start | size | ext =>
      have hnil : f.unread = [] := hempty (by intro value heq; rw [hst] at heq; cases heq)
      rw [hnil, List.nil_append] at hbuf
      rcases hstate with ⟨-, -, -, hall'⟩ | ⟨-, hresult, -⟩
      · cases used with
        | nil =>
          rw [ChunkScan.run_nil, hst] at hall'
          exact Or.inl (hunread.trans (hall' trivial))
        | cons ch' used =>
          have hback : used ++ rest = [] := (List.cons_eq_cons.mp hbuf).2.symm
          exact Or.inl (hunread.trans (List.append_eq_nil_iff.mp hback).2)
      · right
        right
        right
        rw [hcall, hresult]
        exact List.mem_append_right _ List.mem_cons_self
    | data left =>
      have hnil : f.unread = [] := hempty (by intro value heq; rw [hst] at heq; cases heq)
      rw [hst] at hrest hfits
      rw [hnil, List.nil_append, ScanState.word,
        dechunk_of_data hfits.1 hfits.2, dechunkData, toNat_ofNat_chunk hfits.2] at hrest
      have hone : min left [ch].length = 1 := Nat.min_eq_right hfits.1
      rw [hone] at hrest
      exact Or.inl (hunread.trans hrest)
    | dataEnd =>
      have hnil : f.unread = [] := hempty (by intro value heq; rw [hst] at heq; cases heq)
      rw [hst, hnil, List.nil_append] at hrest
      refine Or.inl (hunread.trans (hrest.trans ?_))
      show (dechunk chunkReadEnd [ch] 1).rest = []
      rw [dechunk, if_neg (by decide), if_neg (by decide), if_neg (by decide), if_pos rfl, memchr]
      by_cases hch : ch = 10
      · rw [if_pos hch]
        decide
      · rw [if_neg hch]
        rfl
    | last value line =>
      rw [hst] at hrest hfits
      obtain rfl : line = [] := hfits
      have hnl : 10 ∉ f.unread := by
        rcases h with hnil | ⟨-, hnl⟩ | hstop | hstop
        · rw [hnil]
          exact List.not_mem_nil
        · exact hnl
        · exact absurd hstop hended
        · exact absurd hstop hnone
      have hlast : dechunk (ScanState.last value []).word (f.unread ++ [ch]) 1 =
          dechunkLast (f.unread ++ [ch]) := by
        show dechunk chunkReadLast _ 1 = _
        rw [dechunk, if_neg (by decide), if_neg (by decide), if_pos rfl]
      rw [hlast, dechunkLast] at hrest
      by_cases hch : ch = 10
      · rw [hch, memchr_append hnl] at hrest
        left
        rw [hunread, hrest]
        dsimp only
        split <;> rfl
      · have hnone : memchr 10 (f.unread ++ [ch]) = none := by
          cases hfound : memchr 10 (f.unread ++ [ch]) with
          | none => rfl
          | some r =>
            obtain ⟨-, hcut⟩ := memchr_eq_some hfound
            refine absurd ?_ (not_mem_concat hnl hch)
            rw [hcut]
            exact List.mem_append_right _ List.mem_cons_self
        rw [hnone] at hrest
        right
        left
        have hused : used = [] := by
          have hlength := congrArg List.length hbuf
          have hsame : rest = f.unread ++ [ch] := hrest
          have hsum : (used ++ rest).length = used.length + rest.length := List.length_append
          rw [hsum, hsame] at hlength
          exact List.eq_nil_of_length_eq_zero (by omega)
        refine ⟨⟨value, ?_⟩, ?_⟩
        · rw [hcall, hused, List.append_nil]
          exact hst
        · rw [hunread, hrest]
          exact not_mem_concat hnl hch
    | ended =>
      rw [hst] at hended
      exact absurd trivial hended
    | failed => exact absurd hst hf.ne_failed

/-- Byte by byte, the engine takes all but the part of a trailer line. -/
theorem drained_byteCalls (bytes : Bytes) : (calls (byteCalls bytes)).Drained := by
  induction bytes using List.reverseRecOn with
  | nil => exact Or.inl rfl
  | append_singleton bytes ch ih =>
    have hcalls : calls (byteCalls (bytes ++ [ch])) = (calls (byteCalls bytes)).call ⟨[ch], 1⟩ := by
      unfold calls byteCalls
      rw [List.map_append, List.foldl_append]
      rfl
    rw [hcalls]
    exact ih.call (scanned_calls _) ch

/-- Byte by byte, the engine takes a line. -/
theorem taken_byteCalls {bytes : Bytes} (hended : ¬(ChunkScan.init.run bytes).state.IsEnded)
    (hgood : (ChunkScan.init.run (bytes ++ [10])).state ≠ .failed) :
    (calls (byteCalls (bytes ++ [10]))).taken = bytes ++ [10] := by
  have hf := scanned_calls (byteCalls (bytes ++ [10]))
  have hbytes := calls_bytes (byteCalls (bytes ++ [10]))
  have hdrained := drained_byteCalls (bytes ++ [10])
  rw [byteCalls_more] at hbytes
  generalize calls (byteCalls (bytes ++ [10])) = f at hf hbytes hdrained
  have hall : f.unread = [] → f.taken = bytes ++ [10] := by
    intro hnil
    rw [hnil, List.append_nil] at hbytes
    exact hbytes
  rcases hdrained with hnil | ⟨-, hnl⟩ | hstop | hstop
  · exact hall hnil
  · rcases List.eq_nil_or_concat' f.unread with hnil | ⟨front, last, hlast⟩
    · exact hall hnil
    · rw [hlast, ← List.append_assoc] at hbytes
      have hten := (List.append_inj' hbytes rfl).2
      rw [hlast, hten] at hnl
      exact absurd (List.mem_append_right _ List.mem_cons_self) hnl
  · rcases List.eq_nil_or_concat' f.unread with hnil | ⟨front, last, hlast⟩
    · exact hall hnil
    · rw [hlast, ← List.append_assoc] at hbytes
      have hfront := (List.append_inj' hbytes rfl).1
      refine absurd ?_ hended
      rw [← hfront, ChunkScan.run_append]
      cases hst : f.scan.state with
      | ended value line =>
        have hrun : (ChunkScan.init.run f.taken).run front = f.scan := ChunkScan.run_ended hst front
        rw [hrun, hst]
        trivial
      | start | size | ext | data | dataEnd | last | failed =>
        rw [hst] at hstop
        exact hstop.elim
  · rcases hf.state with ⟨-, -, hnone, -⟩ | ⟨-, -, -, ch, rest, hunread, hfail⟩
    · exact absurd hstop hnone
    · refine absurd ?_ hgood
      rw [← hbytes, hunread, ChunkScan.run_append, ChunkScan.run_cons, ChunkScan.run_failed]
      · exact hfail
      · exact hfail

/-- More calls take more. -/
theorem taken_append (cs cs' : List DechunkCall) :
    (calls cs).taken <+: (calls (cs ++ cs')).taken := by
  induction cs' using List.reverseRecOn with
  | nil => rw [List.append_nil]
  | append_singleton cs' c ih =>
    have hcalls : calls (cs ++ (cs' ++ [c])) = (calls (cs ++ cs')).call c := by
      rw [← List.append_assoc]
      exact List.foldl_concat ..
    rw [hcalls]
    rcases call_cases (scanned_calls (cs ++ cs')) c with
      ⟨-, hcall⟩ | ⟨-, used, rest, result, -, hcall, -⟩
    · rw [hcall]
      exact ih
    · rw [hcall]
      exact ih.trans (List.prefix_append _ _)

end DechunkFeed

/-! ## Input that is not plain -/

/-- A line that is taken byte by byte is taken in any longer input. -/
theorem byteCalls_prefix {bytes more : Bytes} (hended : ¬(ChunkScan.init.run bytes).state.IsEnded)
    (hgood : (ChunkScan.init.run (bytes ++ [10])).state ≠ .failed)
    (hpre : bytes ++ [10] <+: more) :
    bytes ++ [10] <+: (DechunkFeed.calls (byteCalls more)).taken := by
  obtain ⟨rest, rfl⟩ := hpre
  have hcalls : byteCalls (bytes ++ [10] ++ rest) =
      byteCalls (bytes ++ [10]) ++ byteCalls rest := List.map_append
  have htaken := DechunkFeed.taken_append (byteCalls (bytes ++ [10])) (byteCalls rest)
  rw [DechunkFeed.taken_byteCalls hended hgood, ← hcalls] at htaken
  exact htaken

/-- Behind a prefix of what was taken, the scan goes on. -/
theorem DechunkFeed.scan_of_prefix {f : DechunkFeed} {bytes : Bytes} (h : bytes <+: f.taken) :
    ∃ rest, f.taken = bytes ++ rest ∧ f.scan = (ChunkScan.init.run bytes).run rest := by
  obtain ⟨rest, hrest⟩ := h
  refine ⟨rest, hrest.symm, ?_⟩
  unfold DechunkFeed.scan
  rw [← hrest, ChunkScan.run_append]

/-- A size line without a digit does not lead to `Failed`. -/
theorem HonestEnd.bare {bytes before payload ext : Bytes} (h : HonestEnd bytes)
    (hframed : Framed before payload) (hext : NoDigits ext) :
    ¬before ++ (ext ++ [10]) <+: bytes := by
  intro hpre
  have hhead : ChunkScan.init.run (before ++ (ext ++ [10])) = ⟨.last none [], payload, []⟩ :=
    ChunkScan.run_lastHead hframed (.bare hext) rfl
  have hbefore : ¬(ChunkScan.init.run (before ++ ext)).state.IsEnded := by
    intro hended
    rw [← List.append_assoc, ChunkScan.run_append] at hhead
    cases hst : (ChunkScan.init.run (before ++ ext)).state with
    | ended value line =>
      rw [ChunkScan.run_ended hst] at hhead
      rw [hhead] at hended
      exact hended
    | start | size | ext | data | dataEnd | last | failed =>
      rw [hst] at hended
      exact hended.elim
  have hgood : (ChunkScan.init.run (before ++ ext ++ [10])).state ≠ .failed := by
    rw [List.append_assoc, hhead]
    nofun
  have hbytes : before ++ ext ++ [10] <+: bytes := by
    rw [List.append_assoc]
    exact hpre
  have htaken := byteCalls_prefix hbefore hgood hbytes
  rw [List.append_assoc] at htaken
  have hfailed := (h _ (byteCalls_more bytes)).bare hframed hext htaken
  have hf := DechunkFeed.scanned_calls (byteCalls bytes)
  obtain ⟨rest, -, hscan⟩ := DechunkFeed.scan_of_prefix htaken
  have hbehind : (DechunkFeed.calls (byteCalls bytes)).scan.Behind none := by
    rw [hscan, hhead]
    exact ChunkScan.Behind.run (Or.inl ⟨[], rfl⟩) rest
  rcases hf.state with ⟨-, -, hnone, -⟩ | ⟨-, -, hsize, -⟩
  · exact hnone hfailed
  · exact hbehind.not_inSize hsize

/-- Behind a last size line, a short line ends the body. -/
theorem HonestEnd.of_short {bytes before payload : Bytes} {l : SizeLine} {lines : List Bytes}
    {line : Bytes} (h : HonestEnd bytes) (hframed : Framed before payload)
    (hnarrow : ¬Wide l.digits) (hzero : lowValue (some (hexValue l.digits)) = 0)
    (hlines : ∀ line ∈ lines, LongLine line) (hline : 10 ∉ line)
    (hshort : (visible line).length ≤ 1)
    (hpre : before ++ (l.line ++ (joinLines lines ++ (line ++ [10]))) <+: bytes) :
    hexValue l.digits = 0 ∧ ∃ f : DechunkFeed, f.Scanned ∧ f.HonestEnd ∧
      before ++ (l.line ++ (joinLines lines ++ (line ++ [10]))) <+: f.taken ∧
      f.trailers = lines.map visible := by
  have hcut : before ++ (l.line ++ (joinLines lines ++ (line ++ [10]))) =
      (before ++ (l.line ++ joinLines lines) ++ line) ++ [10] := by
    simp only [List.append_assoc]
  have hlast := ChunkScan.run_lastLines hframed (.digits l hnarrow) hzero hlines
  have hbefore : ChunkScan.init.run (before ++ (l.line ++ joinLines lines) ++ line) =
      ⟨.last (some (hexValue l.digits)) line, payload, lines.map visible⟩ := by
    rw [ChunkScan.run_append, hlast, ChunkScan.run_last rfl hline]
    rfl
  have hafter : ChunkScan.init.run ((before ++ (l.line ++ joinLines lines) ++ line) ++ [10]) =
      ⟨.ended (some (hexValue l.digits)) line, payload, lines.map visible⟩ := by
    rw [List.append_assoc _ line, ChunkScan.run_append, hlast,
      ChunkScan.run_lastLine rfl hline hshort]
    rfl
  rw [hcut] at hpre ⊢
  have htaken := byteCalls_prefix (by rw [hbefore]; exact id) (by rw [hafter]; nofun) hpre
  have hf := DechunkFeed.scanned_calls (byteCalls bytes)
  have hhonest := h _ (byteCalls_more bytes)
  generalize DechunkFeed.calls (byteCalls bytes) = f at htaken hf hhonest
  obtain ⟨rest, -, hscan⟩ := DechunkFeed.scan_of_prefix htaken
  rw [hafter, ChunkScan.run_ended rfl] at hscan
  have hend : .end ∈ f.results := by
    rw [hf.ended, hscan]
    trivial
  have htrailers : f.trailers = lines.map visible := by
    rw [← hf.trailers, hscan]
  obtain ⟨before', payload', hframed', l', lines', blank, hvalue, -, -, -, hpre'⟩ :=
    hhonest.ended hend
  have hline' : before' ++ l'.line <+: f.taken := by
    refine List.IsPrefix.trans ?_ hpre'
    rw [← List.append_assoc]
    exact List.prefix_append _ _
  have hzero' : lowValue (some (hexValue l'.digits)) = 0 := by
    rw [hvalue]
    rfl
  obtain ⟨rest', -, hscan'⟩ := DechunkFeed.scan_of_prefix hline'
  rw [ChunkScan.run_lastHead hframed' (.digits l' (hf.not_wide hframed' hline')) hzero'] at hscan'
  -- there is one last size line, so its value is zero
  have hsame := ChunkScan.Behind.value_eq (s := f.scan)
    (by rw [hscan]; exact Or.inr ⟨line, rfl⟩)
    (by rw [hscan']; exact ChunkScan.Behind.run (Or.inl ⟨[], rfl⟩) rest')
  rw [hvalue, Option.some.injEq] at hsame
  exact ⟨hsame, f, hf, hhonest, htaken, htrailers⟩

/-- Where the end is not invented the input is plain. -/
theorem HonestEnd.plainEnd {bytes : Bytes} (h : HonestEnd bytes) : PlainEnd bytes := by
  constructor
  · intro before payload ext hframed hext
    exact h.bare hframed hext
  · intro before payload l lines line hframed hnarrow hne hzero hlines hline hshort hpre
    exact hne (h.of_short hframed hnarrow hzero hlines hline hshort hpre).1
  · intro before payload l lines line hframed hvalue hlines hline hone hpre
    have hnarrow : ¬Wide l.digits := by
      intro hwide
      have hlt := hwide.lt
      rw [hvalue] at hlt
      exact absurd hlt (Nat.not_lt_zero _)
    have hzero : lowValue (some (hexValue l.digits)) = 0 := by
      rw [hvalue]
      rfl
    obtain ⟨-, f, -, hhonest, htaken, htrailers⟩ :=
      h.of_short hframed hnarrow hzero hlines hline (Nat.le_of_eq hone) hpre
    have htext : ∀ line' ∈ lines ++ [line], TextLine line' := by
      intro line' hline'
      rcases List.mem_append.mp hline' with hline' | hline'
      · exact (hlines line' hline').textLine
      · rw [List.mem_singleton.mp hline']
        refine ⟨hline, fun hblank => ?_⟩
        rw [(visible_eq_nil_iff line).mpr hblank] at hone
        exact absurd hone (by decide)
    rw [← joinLines_concat] at htaken
    have hmore := hhonest.trailer hframed hvalue htext htaken
    have hlength := hmore.length_le
    rw [htrailers, List.length_map, List.length_map, List.length_append,
      List.length_singleton] at hlength
    exact absurd hlength (Nat.not_succ_le_self _)

/-- The end of a body is not invented where the input has no size line without a digit, no size
line that wraps to zero with trailers that end, and no trailer line with one visible byte. -/
theorem honestEnd_iff (bytes : Bytes) : HonestEnd bytes ↔ PlainEnd bytes :=
  ⟨HonestEnd.plainEnd, PlainEnd.honestEnd⟩

/-- An empty line and a blank line. -/
theorem not_honestEnd_newlines : ¬HonestEnd [10, 10] := by
  intro h
  have hext : NoDigits [] := noDigits_nil
  exact h.bare .nil hext (by decide)

end Khttpd
