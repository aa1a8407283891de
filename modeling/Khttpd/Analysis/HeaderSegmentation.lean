import Khttpd.Analysis.BodyFraming
import Khttpd.Analysis.Chunked
import Khttpd.Model.HeaderParser

/-!
# Header sections over any cuts of the input

A header section whose lines all have their separator, that has no folded lines and that is within
the size limit is read in the same way however its bytes arrive. `PlainHeader` is the grammar of
these header sections, and the induction over it carries the buffer and the reads still to come.
-/

set_option autoImplicit false

namespace Khttpd

open KHttpSink

variable {P : RequestParser} {h2 : Bool}

/-! ## Header sections -/

/-- What `KHttpSink::parse` makes of a line; `none` is an error. -/
def KRequestData.accept (P : RequestParser) (h2 : Bool) (d : KRequestData) (rs : KHttpParseResult) :
    Option KRequestData :=
  (d.parseHeader P rs.attr rs.val rs.isFirst).filter fun d =>
    !(rs.isFirst && d.meth == methPri && h2)

/-- The bytes of a header section without folded lines, whose lines have their separators, and
that waits for more bytes only within the size limit. What follows a line that is an error does not
matter. `started` says that the request line is behind, and `n` is the length of what is behind. -/
inductive PlainHeader (P : RequestParser) (h2 : Bool) : KRequestData → Bool → ℕ → Bytes → Prop
  | partLine {d : KRequestData} {started : Bool} {n : ℕ} {w : Bytes} (hn : n ≤ maxHttpHeadSize)
      (hw : 10 ∉ w) : PlainHeader P h2 d started n w
  | skip {d : KRequestData} {n : ℕ} {line rest : Bytes} (hn : n ≤ maxHttpHeadSize)
      (hline : 10 ∉ line)
      (hblank : isBlankLine line = true)
      (hrest : PlainHeader P h2 d false (n + (line.length + 1)) rest) :
      PlainHeader P h2 d false n (line ++ 10 :: rest)
  | blank {d : KRequestData} {n : ℕ} {line rest : Bytes} (hn : n ≤ maxHttpHeadSize)
      (hline : 10 ∉ line) (hblank : isBlankLine line = true) :
      PlainHeader P h2 d true n (line ++ 10 :: rest)
  | line {d : KRequestData} {started : Bool} {n : ℕ} {line rest : Bytes} (hn : n ≤ maxHttpHeadSize)
      (hline : 10 ∉ line) (hblank : isBlankLine line = false)
      (hseparator : headerSeparator (!started) ∈ line)
      (hfold : started = true → ∀ ch ∈ rest.head?, isFold ch = false)
      (hrest : ∀ rs d', khttpParseHeader (!started) (stripCr line) = .success rs →
        d.accept P h2 rs = some d' → PlainHeader P h2 d' true (n + (line.length + 1)) rest) :
      PlainHeader P h2 d started n (line ++ 10 :: rest)

/-- The bytes hold a whole header section, up to its blank line, and then `body`. -/
inductive EndsHeader : Bool → Bytes → Bytes → Prop
  | skip {line rest body : Bytes} (hline : 10 ∉ line) (hblank : isBlankLine line = true)
      (hrest : EndsHeader false rest body) : EndsHeader false (line ++ 10 :: rest) body
  | blank {line body : Bytes} (hline : 10 ∉ line) (hblank : isBlankLine line = true) :
      EndsHeader true (line ++ 10 :: body) body
  | line {started : Bool} {line rest body : Bytes} (hline : 10 ∉ line)
      (hblank : isBlankLine line = false) (hrest : EndsHeader true rest body) :
      EndsHeader started (line ++ 10 :: rest) body

/-- The bytes are parsed in the same way over all cuts into reads, and where they hold a whole
header section the parser does not wait before its end. -/
def SegmentationFree (P : RequestParser) (h2 : Bool) (d : KRequestData) (w : Bytes) : Prop :=
  (∀ reads reads' : List HeaderRead, reads.flatMap HeaderRead.got = w →
    reads'.flatMap HeaderRead.got = w →
    feed P h2 .init ⟨d, [], none⟩ reads = feed P h2 .init ⟨d, [], none⟩ reads') ∧
  ∀ body, EndsHeader false w body → ∀ reads : List HeaderRead, reads.flatMap HeaderRead.got = w →
    (feed P h2 .init ⟨d, [], none⟩ reads).2 = .finished body ∨
      (feed P h2 .init ⟨d, [], none⟩ reads).2 = .error

/-! ## Lines -/

/-- The first newline says where the line ends. -/
theorem line_unique {line line' rest rest' : Bytes} (hline : 10 ∉ line) (hline' : 10 ∉ line')
    (h : line ++ 10 :: rest = line' ++ 10 :: rest') : line = line' ∧ rest = rest' := by
  have hfirst := memchr_append hline rest
  rw [h, memchr_append hline' rest'] at hfirst
  cases hfirst
  exact ⟨rfl, rfl⟩

/-- A part of the input that holds a newline holds the first line. -/
theorem line_of_prefix {buf more line rest : Bytes} (hline : 10 ∉ line) (hbuf : (10 : Byte) ∈ buf)
    (h : buf ++ more = line ++ 10 :: rest) :
    ∃ buf', buf = line ++ 10 :: buf' ∧ buf' ++ more = rest := by
  cases hmem : memchr 10 buf with
  | none => exact absurd hbuf (memchr_eq_none hmem)
  | some r =>
    obtain ⟨hline', heq⟩ := memchr_eq_some hmem
    rw [heq, List.append_assoc, List.cons_append] at h
    obtain ⟨hl, hr⟩ := line_unique hline' hline h
    exact ⟨r.2, by rw [heq, hl], hr⟩

/-- A line with its separator is handed to `parse_header`. -/
theorem khttpParseHeader_success {isFirst : Bool} {line : Bytes}
    (h : headerSeparator isFirst ∈ line) :
    ∃ rs, khttpParseHeader isFirst (stripCr line) = .success rs := by
  have hmem : headerSeparator isFirst ∈ stripCr line := by
    unfold stripCr
    split
    · rename_i hcr
      obtain ⟨front, hfront⟩ := List.getLast?_eq_some_iff.mp hcr.2
      rw [hfront, List.mem_append, List.mem_singleton] at h
      rw [hfront, List.dropLast_concat]
      refine h.resolve_right fun hsep => ?_
      cases isFirst
      · exact absurd hsep (by decide)
      · exact absurd hsep (by decide)
    · exact h
  unfold khttpParseHeader
  cases hparse : memchr (headerSeparator isFirst) (stripCr line) with
  | none => exact absurd hmem (memchr_eq_none hparse)
  | some r => exact ⟨_, rfl⟩

/-! ## Calls of `khttp_parse` -/

/-- Bytes without a newline are kept. -/
theorem khttpParse_partLine {buf : Bytes} (h : (10 : Byte) ∉ buf) (beyond : Byte) (fuel : ℕ)
    (p : KHttpParser) : khttpParse beyond (fuel + 1) p buf = ⟨p, buf, .continue⟩ := by
  rw [khttpParse]
  cases hmem : memchr 10 buf with
  | none => rfl
  | some r =>
    obtain ⟨-, heq⟩ := memchr_eq_some hmem
    refine absurd ?_ h
    rw [heq]
    exact List.mem_append_right _ List.mem_cons_self

/-- The blank lines that fuel has room for do not matter. -/
theorem khttpParse_fuel (beyond : Byte) {fuel fuel' : ℕ} (p : KHttpParser) (buf : Bytes)
    (hfuel : buf.length < fuel) (hfuel' : buf.length < fuel') :
    khttpParse beyond fuel p buf = khttpParse beyond fuel' p buf := by
  induction fuel generalizing fuel' p buf with
  | zero => exact absurd hfuel (Nat.not_lt_zero _)
  | succ fuel ih =>
    obtain ⟨fuel', rfl⟩ : ∃ n, fuel' = n + 1 := ⟨fuel' - 1, by omega⟩
    rw [khttpParse, khttpParse]
    cases hmem : memchr 10 buf with
    | none => rfl
    | some r =>
      obtain ⟨-, heq⟩ := memchr_eq_some hmem
      have hlength : r.2.length < buf.length := by
        rw [heq, List.length_append, List.length_cons]
        omega
      dsimp only
      rw [ih { p with headerLen := p.headerLen + (r.1.length + 1) } r.2 (by omega)
        (Nat.lt_of_lt_of_le hlength (Nat.lt_succ_iff.mp hfuel'))]

/-- A blank line before the request line is skipped. -/
theorem khttpParse_skip {line : Bytes} (hline : 10 ∉ line) (hblank : isBlankLine line = true)
    (rest : Bytes) (beyond : Byte) (n : ℕ) :
    khttpParse beyond ((line ++ 10 :: rest).length + 1) ⟨n, false⟩ (line ++ 10 :: rest) =
      khttpParse beyond (rest.length + 1) ⟨n + (line.length + 1), false⟩ rest := by
  rw [khttpParse, memchr_append hline]
  dsimp only
  rw [if_pos hblank, if_neg Bool.false_ne_true]
  apply khttpParse_fuel
  · rw [List.length_append, List.length_cons]
    omega
  · exact Nat.lt_succ_self _

/-- A blank line behind the request line ends the header section. -/
theorem khttpParse_blank {line rest : Bytes} (hline : 10 ∉ line) (hblank : isBlankLine line = true)
    (beyond : Byte) (fuel n : ℕ) :
    khttpParse beyond (fuel + 1) ⟨n, true⟩ (line ++ 10 :: rest) =
      ⟨⟨n + (line.length + 1), true⟩, rest, .finished⟩ := by
  rw [khttpParse, memchr_append hline]
  dsimp only
  rw [if_pos hblank, if_pos rfl]

/-- A header line at the end of the buffer waits for the byte behind it. -/
theorem khttpParse_lookahead {line : Bytes} (hline : 10 ∉ line) (hblank : isBlankLine line = false)
    (beyond : Byte) (fuel n : ℕ) :
    khttpParse beyond (fuel + 1) ⟨n, true⟩ (line ++ [10]) =
      ⟨⟨n, true⟩, line ++ [10], .continue⟩ := by
  rw [khttpParse, memchr_append hline]
  dsimp only
  rw [if_neg (by rw [hblank]; exact Bool.false_ne_true), if_pos rfl, if_pos rfl]

/-- A line that is not folded is taken. -/
theorem khttpParse_line {started : Bool} {line rest : Bytes} (hline : 10 ∉ line)
    (hblank : isBlankLine line = false) (hrest : started = true → rest ≠ [])
    (hfold : started = true → ∀ ch ∈ rest.head?, isFold ch = false) (beyond : Byte) (fuel n : ℕ) :
    khttpParse beyond (fuel + 1) ⟨n, started⟩ (line ++ 10 :: rest) =
      takeLine ⟨n, started⟩ line rest := by
  rw [khttpParse, memchr_append hline]
  dsimp only
  rw [if_neg (by rw [hblank]; exact Bool.false_ne_true)]
  cases started with
  | false => rw [if_neg Bool.false_ne_true]
  | true =>
    rw [if_pos rfl, if_neg (hrest rfl)]
    cases rest with
    | nil => exact absurd rfl (hrest rfl)
    | cons ch rest =>
      have hch : ¬isFold ((ch :: rest).headD beyond) = true := by
        rw [List.headD_cons, hfold rfl ch rfl]
        exact Bool.false_ne_true
      rw [joinFolded, if_neg hch]

/-! ## Reads -/

/-- The reads from a call of `KHttpSink::parse` on. -/
def feedFrom (P : RequestParser) (h2 : Bool) (beyond : Byte) (fuel : ℕ) (p : KHttpParser)
    (s : KHttpSink) (reads : List HeaderRead) : List KHttpParseResult × HeaderOutcome :=
  let r := s.parseLoop P h2 false beyond fuel p
  match r.result with
  | .continue =>
    let next := feed P h2 r.parser r.sink reads
    (r.lines ++ next.1, next.2)
  | .finished => (r.lines, .finished (r.sink.buffer ++ reads.flatMap HeaderRead.got))
  | .error => (r.lines, .error)

/-- Where the parser waits, the next read comes behind what is left. -/
theorem feedFrom_wait {beyond : Byte} {p : KHttpParser} {d : KRequestData} {buf : Bytes}
    (hparse : khttpParse beyond (buf.length + 1) p buf = ⟨p, buf, .continue⟩)
    (hn : p.headerLen ≤ maxHttpHeadSize) (fuel : ℕ) (reads : List HeaderRead) :
    feedFrom P h2 beyond (fuel + 1) p ⟨d, buf, none⟩ reads = feed P h2 p ⟨d, buf, none⟩ reads := by
  have hcheck : checkContinue false p = .continue := by
    refine if_neg fun h => ?_
    rcases h with h | h
    · exact Bool.false_ne_true h
    · exact Nat.not_lt.mpr hn h
  unfold feedFrom
  rw [parseLoop]
  dsimp only
  rw [hparse]
  dsimp only
  rw [hcheck]
  rfl

/-- A line that is taken is handed to `parse_header`. -/
theorem feedFrom_line {beyond : Byte} {p p' : KHttpParser} {d : KRequestData} {buf rest : Bytes}
    {rs : KHttpParseResult}
    (hparse : khttpParse beyond (buf.length + 1) p buf = ⟨p', rest, .success rs⟩) (fuel : ℕ)
    (reads : List HeaderRead) :
    feedFrom P h2 beyond (fuel + 1) p ⟨d, buf, none⟩ reads =
      match d.accept P h2 rs with
      | none => ([rs], .error)
      | some d' =>
        let next := feedFrom P h2 beyond fuel p' ⟨d', rest, none⟩ reads
        (rs :: next.1, next.2) := by
  unfold feedFrom
  rw [parseLoop]
  dsimp only
  rw [hparse]
  dsimp only [KRequestData.accept]
  cases hheader : d.parseHeader P rs.attr rs.val rs.isFirst with
  | none => rfl
  | some d' =>
    rw [Option.filter_some]
    by_cases hpri : (rs.isFirst && d'.meth == methPri && h2) = true
    · have hpri' : rs.isFirst = true ∧ d'.meth = methPri ∧ h2 = true := by
        simpa [and_assoc] using hpri
      dsimp only
      rw [hpri, if_pos hpri']
      rfl
    · have hpri' : ¬(rs.isFirst = true ∧ d'.meth = methPri ∧ h2 = true) := by
        simpa [and_assoc] using hpri
      dsimp only
      rw [if_neg hpri', Bool.eq_false_iff.mpr hpri]
      have hkeep : (!false) = true := rfl
      rw [if_pos hkeep]
      dsimp only
      generalize parseLoop P h2 false beyond fuel p' ⟨d', rest, none⟩ = r
      cases r.result <;> rfl

/-- The blank line ends the reads. -/
theorem feedFrom_finished {beyond : Byte} {p p' : KHttpParser} {d : KRequestData} {buf rest : Bytes}
    (hparse : khttpParse beyond (buf.length + 1) p buf = ⟨p', rest, .finished⟩) (fuel : ℕ)
    (reads : List HeaderRead) :
    feedFrom P h2 beyond (fuel + 1) p ⟨d, buf, none⟩ reads =
      ([], .finished (rest ++ reads.flatMap HeaderRead.got)) := by
  have hbuffer : (headerFinished ⟨d, rest, none⟩).buffer = rest := by
    unfold headerFinished
    split <;> rfl
  unfold feedFrom
  rw [parseLoop]
  dsimp only
  rw [hparse]
  dsimp only
  rw [hbuffer]

/-- Waiting changes nothing: what holds of the buffers on which the parser goes on holds of all
reads. The parser waits on the buffers in `Waits`. -/
theorem feedFrom_of_waits {p : KHttpParser} {d : KRequestData} {w : Bytes}
    {out : List KHttpParseResult × HeaderOutcome} (Waits : Bytes → Prop)
    (hn : p.headerLen ≤ maxHttpHeadSize)
    (hwait : ∀ buf beyond, Waits buf →
      khttpParse beyond (buf.length + 1) p buf = ⟨p, buf, .continue⟩)
    (hend : Waits w → out = ([], .waiting))
    (hgo : ∀ buf beyond fuel reads, ¬Waits buf → buf ++ reads.flatMap HeaderRead.got = w →
      buf.length < fuel → feedFrom P h2 beyond fuel p ⟨d, buf, none⟩ reads = out)
    (reads : List HeaderRead) {buf : Bytes} {beyond : Byte} {fuel : ℕ}
    (hinput : buf ++ reads.flatMap HeaderRead.got = w) (hfuel : buf.length < fuel) :
    feedFrom P h2 beyond fuel p ⟨d, buf, none⟩ reads = out := by
  induction reads generalizing buf beyond fuel with
  | nil =>
    by_cases hbuf : Waits buf
    · obtain ⟨fuel, rfl⟩ : ∃ n, fuel = n + 1 := ⟨fuel - 1, by omega⟩
      rw [List.flatMap_nil, List.append_nil] at hinput
      rw [feedFrom_wait (hwait buf beyond hbuf) hn, hend (hinput ▸ hbuf)]
      rfl
    · exact hgo buf beyond fuel [] hbuf hinput hfuel
  | cons read reads ih =>
    by_cases hbuf : Waits buf
    · obtain ⟨fuel, rfl⟩ : ∃ n, fuel = n + 1 := ⟨fuel - 1, by omega⟩
      rw [feedFrom_wait (hwait buf beyond hbuf) hn]
      rw [List.flatMap_cons, ← List.append_assoc] at hinput
      exact ih hinput (Nat.lt_succ_self _)
    · exact hgo buf beyond fuel _ hbuf hinput hfuel

/-- A header section of the grammar is read in one way over all cuts, to its end if it is whole. -/
theorem PlainHeader.feedFrom {d : KRequestData} {started : Bool} {n : ℕ} {w : Bytes}
    (h : PlainHeader P h2 d started n w) :
    ∃ out : List KHttpParseResult × HeaderOutcome,
      (∀ body, EndsHeader started w body → out.2 = .finished body ∨ out.2 = .error) ∧
      ∀ buf beyond fuel reads, buf ++ reads.flatMap HeaderRead.got = w → buf.length < fuel →
        feedFrom P h2 beyond fuel ⟨n, started⟩ ⟨d, buf, none⟩ reads = out := by
  induction h with
  | @partLine d started n w hn hw =>
    refine ⟨([], .waiting), ?_, ?_⟩
    · intro body hends
      cases hends <;> exact absurd (List.mem_append_right _ List.mem_cons_self) hw
    · intro buf beyond fuel reads hinput hfuel
      refine feedFrom_of_waits (fun buf => (10 : Byte) ∉ buf) hn ?_ (fun _ => rfl) ?_
        reads hinput hfuel
      · intro buf beyond hbuf
        exact khttpParse_partLine hbuf beyond _ _
      · intro buf beyond fuel reads hbuf hinput' hfuel'
        refine absurd (fun hmem => hw ?_) hbuf
        rw [← hinput']
        exact List.mem_append_left _ hmem
  | @skip d n line rest hn hline hblank hrest ih =>
    obtain ⟨out, hwhole, hfeed⟩ := ih
    refine ⟨out, ?_, ?_⟩
    · intro body hends
      generalize hw : line ++ 10 :: rest = w at hends
      generalize hstarted : false = started at hends
      cases hends with
      | skip hline' hblank' hrest' =>
        obtain ⟨-, rfl⟩ := line_unique hline hline' hw
        exact hwhole body hrest'
      | blank hline' hblank' => cases hstarted
      | line hline' hblank' hrest' =>
        obtain ⟨rfl, -⟩ := line_unique hline hline' hw
        rw [hblank] at hblank'
        cases hblank'
    · intro buf beyond fuel reads hinput hfuel
      refine feedFrom_of_waits (fun buf => (10 : Byte) ∉ buf) hn ?_ ?_ ?_ reads hinput hfuel
      · intro buf beyond hbuf
        exact khttpParse_partLine hbuf beyond _ _
      · intro hw
        exact absurd (List.mem_append_right _ List.mem_cons_self) hw
      · intro buf beyond fuel reads hbuf hinput' hfuel'
        obtain ⟨buf', rfl, hrest'⟩ := line_of_prefix hline (not_not.mp hbuf) hinput'
        have hlength : buf'.length < fuel := by
          rw [List.length_append, List.length_cons] at hfuel'
          omega
        rw [← hfeed buf' beyond fuel reads hrest' hlength]
        obtain ⟨fuel, rfl⟩ : ∃ k, fuel = k + 1 := ⟨fuel - 1, by omega⟩
        have hskip := khttpParse_skip hline hblank buf' beyond n
        unfold Khttpd.feedFrom
        rw [parseLoop, parseLoop]
        dsimp only
        rw [hskip]
  | @blank d n line rest hn hline hblank =>
    refine ⟨([], .finished rest), ?_, ?_⟩
    · intro body hends
      generalize hw : line ++ 10 :: rest = w at hends
      generalize hstarted : true = started at hends
      cases hends with
      | skip hline' hblank' hrest' => cases hstarted
      | blank hline' hblank' =>
        obtain ⟨-, rfl⟩ := line_unique hline hline' hw
        exact .inl rfl
      | line hline' hblank' hrest' =>
        obtain ⟨rfl, -⟩ := line_unique hline hline' hw
        rw [hblank] at hblank'
        cases hblank'
    · intro buf beyond fuel reads hinput hfuel
      refine feedFrom_of_waits (fun buf => (10 : Byte) ∉ buf) hn ?_ ?_ ?_ reads hinput hfuel
      · intro buf beyond hbuf
        exact khttpParse_partLine hbuf beyond _ _
      · intro hw
        exact absurd (List.mem_append_right _ List.mem_cons_self) hw
      · intro buf beyond fuel reads hbuf hinput' hfuel'
        obtain ⟨buf', rfl, hrest'⟩ := line_of_prefix hline (not_not.mp hbuf) hinput'
        obtain ⟨fuel, rfl⟩ : ∃ k, fuel = k + 1 := ⟨fuel - 1, by omega⟩
        rw [feedFrom_finished (khttpParse_blank hline hblank beyond _ n), hrest']
  | @line d started n line rest hn hline hblank hseparator hfold hrest ih =>
    have hends_rest : ∀ body, EndsHeader started (line ++ 10 :: rest) body →
        EndsHeader true rest body := by
      intro body hends
      generalize hw : line ++ 10 :: rest = w at hends
      cases hends with
      | skip hline' hblank' hrest' =>
        obtain ⟨rfl, -⟩ := line_unique hline hline' hw
        rw [hblank] at hblank'
        cases hblank'
      | blank hline' hblank' =>
        obtain ⟨rfl, -⟩ := line_unique hline hline' hw
        rw [hblank] at hblank'
        cases hblank'
      | line hline' hblank' hrest' =>
        obtain ⟨-, rfl⟩ := line_unique hline hline' hw
        exact hrest'
    -- the parser waits for the newline, and behind the request line for one byte more
    obtain ⟨Waits, hWaits⟩ : ∃ Waits : Bytes → Prop, Waits = fun buf =>
        (10 : Byte) ∉ buf ∨ started = true ∧ buf = line ++ [10] := ⟨_, rfl⟩
    have hwait : ∀ buf beyond, Waits buf →
        khttpParse beyond (buf.length + 1) ⟨n, started⟩ buf = ⟨⟨n, started⟩, buf, .continue⟩ := by
      intro buf beyond hbuf
      rw [hWaits] at hbuf
      rcases hbuf with hbuf | ⟨rfl, rfl⟩
      · exact khttpParse_partLine hbuf beyond _ _
      · exact khttpParse_lookahead hline hblank beyond _ n
    have hparse : ∀ (buf : Bytes) (beyond : Byte) (reads : List HeaderRead), ¬Waits buf →
        buf ++ reads.flatMap HeaderRead.got = line ++ 10 :: rest →
        ∃ buf', buf = line ++ 10 :: buf' ∧ buf' ++ reads.flatMap HeaderRead.got = rest ∧
          khttpParse beyond (buf.length + 1) ⟨n, started⟩ buf =
            takeLine ⟨n, started⟩ line buf' := by
      intro buf beyond reads hbuf hinput
      rw [hWaits, not_or] at hbuf
      obtain ⟨buf', rfl, hrest'⟩ := line_of_prefix hline (not_not.mp hbuf.1) hinput
      have hne : started = true → buf' ≠ [] := by
        rintro hstarted rfl
        exact hbuf.2 ⟨hstarted, rfl⟩
      refine ⟨buf', rfl, hrest', khttpParse_line hline hblank hne ?_ beyond _ n⟩
      intro hstarted ch hch
      refine hfold hstarted ch ?_
      obtain ⟨tail, rfl⟩ := List.head?_eq_some_iff.mp hch
      rw [← hrest']
      rfl
    obtain ⟨rs, hrs⟩ := khttpParseHeader_success hseparator
    by_cases hlast : started = true ∧ rest = []
    · refine ⟨([], .waiting), ?_, ?_⟩
      · intro body hends
        have hempty := hends_rest body hends
        rw [hlast.2] at hempty
        generalize hw : ([] : Bytes) = w at hempty
        cases hempty <;> exact absurd hw (by simp)
      · intro buf beyond fuel reads hinput hfuel
        refine feedFrom_of_waits Waits hn hwait (fun _ => rfl) ?_ reads hinput hfuel
        intro buf beyond fuel reads hbuf hinput' hfuel'
        obtain ⟨buf', hbuf', hrest', -⟩ := hparse buf beyond reads hbuf hinput'
        rw [hlast.2] at hrest'
        refine absurd ?_ hbuf
        rw [hWaits]
        refine .inr ⟨hlast.1, ?_⟩
        rw [hbuf', (List.append_eq_nil_iff.mp hrest').1]
    · have hend : ∀ {out : List KHttpParseResult × HeaderOutcome}, Waits (line ++ 10 :: rest) →
          out = ([], .waiting) := by
        intro out hw
        rw [hWaits] at hw
        rcases hw with hw | ⟨hstarted, hw⟩
        · exact absurd (List.mem_append_right _ List.mem_cons_self) hw
        · exact absurd ⟨hstarted, List.tail_eq_of_cons_eq (List.append_cancel_left hw)⟩ hlast
      cases haccept : d.accept P h2 rs with
      | none =>
        refine ⟨([rs], .error), fun _ _ => .inr rfl, ?_⟩
        intro buf beyond fuel reads hinput hfuel
        refine feedFrom_of_waits Waits hn hwait hend ?_ reads hinput hfuel
        intro buf beyond fuel reads hbuf hinput' hfuel'
        obtain ⟨buf', -, -, hline'⟩ := hparse buf beyond reads hbuf hinput'
        obtain ⟨fuel, rfl⟩ : ∃ k, fuel = k + 1 := ⟨fuel - 1, by omega⟩
        rw [takeLine, hrs] at hline'
        rw [feedFrom_line hline', haccept]
      | some d' =>
        obtain ⟨out, hwhole, hfeed⟩ := ih rs d' hrs haccept
        refine ⟨(rs :: out.1, out.2), fun body hends => hwhole body (hends_rest body hends), ?_⟩
        intro buf beyond fuel reads hinput hfuel
        refine feedFrom_of_waits Waits hn hwait hend ?_ reads hinput hfuel
        intro buf beyond fuel reads hbuf hinput' hfuel'
        obtain ⟨buf', hbuf', hrest', hline'⟩ := hparse buf beyond reads hbuf hinput'
        obtain ⟨fuel, rfl⟩ : ∃ k, fuel = k + 1 := ⟨fuel - 1, by omega⟩
        have hlength : buf'.length < fuel := by
          rw [hbuf', List.length_append, List.length_cons] at hfuel'
          omega
        rw [takeLine, hrs] at hline'
        rw [feedFrom_line hline', haccept]
        dsimp only
        rw [hfeed buf' beyond fuel reads hrest' hlength]

/-- A request with one field. -/
def hostRequest : Bytes := kglString "GET / HTTP/1.1\r\nHost: a\r\n\r\n"

/-- A request with a line that has no colon. -/
def fooRequest : Bytes := kglString "GET / HTTP/1.1\r\nfoo\r\n\r\n"

end Khttpd
