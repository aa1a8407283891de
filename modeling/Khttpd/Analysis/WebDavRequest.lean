import Khttpd.Analysis.MemoryBytes
import Khttpd.Model.WebDavRequest

/-!
# Responses of a WebDAV server

`read_all` returns the number of bytes or -1, and `read_body` takes every value but zero for
success: a body that breaks off is returned as if it were whole. Where the length is not known,
`result` is assigned only after an error. Of the header, the last line about the length decides,
whatever the status line and the other lines say.
-/

set_option autoImplicit false

namespace Khttpd

/-- The bytes that arrive before an error or the end. -/
def received (net : List Bytes) : Bytes := (net.takeWhile fun got => got ≠ []).flatten

namespace KResponseData

/-! ## One read -/

/-- A read gives nothing when nothing arrives any more. -/
theorem usRead_nil (len : ℕ) {net : List Bytes} (h : received net = []) :
    (usRead len net).1 = none ∨ (usRead len net).1 = some [] := by
  cases net with
  | nil => exact .inr rfl
  | cons got net =>
    cases got with
    | nil => exact .inl rfl
    | cons c got => simp [received] at h

/-- A read gives the next bytes, as many as there is room for at most. -/
theorem usRead_some {len : ℕ} (hlen : 0 < len) {net : List Bytes} (h : received net ≠ []) :
    ∃ c got, (usRead len net).1 = some (c :: got) ∧ got.length + 1 ≤ len ∧
      received net = c :: got ++ received (usRead len net).2 := by
  cases net with
  | nil => exact absurd rfl h
  | cons piece net =>
    cases piece with
    | nil => exact absurd rfl h
    | cons c piece =>
      have hwhole : received ((c :: piece) :: net) = c :: piece ++ received net := by
        simp [received]
      by_cases hfits : (c :: piece).length ≤ len
      · refine ⟨c, piece, ?_, hfits, ?_⟩
        · simp only [usRead, if_pos hfits]
        · rw [hwhole]
          simp only [usRead, if_pos hfits]
      · obtain ⟨n, rfl⟩ : ∃ n, len = n + 1 := ⟨len - 1, by omega⟩
        have hmore : piece.drop n ≠ [] := by
          intro hnil
          have := congrArg List.length hnil
          simp only [List.length_cons, List.length_drop, List.length_nil] at this hfits
          omega
        refine ⟨c, piece.take n, ?_, ?_, ?_⟩
        · simp only [usRead, if_neg hfits, List.take_succ_cons]
        · simp only [List.length_take]
          omega
        · rw [hwhole]
          simp only [usRead, if_neg hfits, List.drop_succ_cons]
          have hrest : received (piece.drop n :: net) = piece.drop n ++ received net := by
            simp [received, hmore]
          rw [hrest]
          simp only [List.cons_append, ← List.append_assoc, List.take_append_drop]

variable {d : KResponseData} {net : List Bytes} {len : ℕ} (buf total : ℕ) (mem : ℕ → Byte)

/-- A body of known length that breaks off. -/
theorem read_short (hleft : d.left = len) (hlen : 0 < len)
    (h : received net = []) : (read buf len d mem net).got = none := by
  unfold read
  rw [if_neg (by omega), if_pos (by omega)]
  dsimp only
  rcases usRead_nil (min d.left.toNat len) h with hread | hread
  · rw [hread]
  · rw [hread]

/-- A read of a body of known length. -/
theorem read_some (hleft : d.left = len) (hlen : 0 < len)
    (h : received net ≠ []) :
    ∃ c got net', got.length + 1 ≤ len ∧ received net = c :: got ++ received net' ∧
      read buf len d mem net =
        ⟨{ d with left := d.left - (c :: got).length }, memWrite mem buf (c :: got), net',
          some (got.length + 1)⟩ := by
  have hmin : min d.left.toNat len = len := by omega
  obtain ⟨c, got, hread, hlength, hreceived⟩ := usRead_some hlen h
  refine ⟨c, got, (usRead len net).2, hlength, hreceived, ?_⟩
  unfold read
  rw [if_neg (by omega), if_pos (by omega)]
  dsimp only
  rw [hmin, hread]
  rfl

/-! ## All reads -/

theorem readAll_short (hleft : d.left = len)
    (h : (received net).length < len) : (readAll buf len total d mem net).got = none := by
  induction len using Nat.strong_induction_on generalizing buf total d mem net
  rename_i len ih
  have hlen : 0 < len := by omega
  unfold readAll
  rw [if_neg hlen.ne']
  dsimp only
  by_cases hnil : received net = []
  · have hread := read_short buf mem hleft hlen hnil
    rw [hread]
    exact hread
  · obtain ⟨c, got, net', hlength, hreceived, hread⟩ :=
      read_some buf mem hleft hlen hnil
    rw [hread]
    rw [hreceived, List.length_append, List.length_cons] at h
    refine ih (len - (got.length + 1)) (by omega) _ _ _ ?_ (show (received net').length < _ by omega)
    simp only [List.length_cons]
    omega

theorem readAll_full (hleft : d.left = len)
    (h : len ≤ (received net).length) :
    (readAll buf len total d mem net).got = some (total + len) ∧
      (readAll buf len total d mem net).data.left = 0 ∧
      (∀ i < buf, (readAll buf len total d mem net).mem i = mem i) ∧
      memRead (readAll buf len total d mem net).mem buf len = (received net).take len := by
  induction len using Nat.strong_induction_on generalizing buf total d mem net
  rename_i len ih
  unfold readAll
  by_cases hzero : len = 0
  · subst hzero
    rw [if_pos rfl]
    refine ⟨rfl, hleft, fun i _ => rfl, ?_⟩
    rw [List.take_zero, memRead_zero]
  have hlen : 0 < len := by omega
  rw [if_neg hzero]
  dsimp only
  have hnil : received net ≠ [] := by
    intro hnil
    rw [hnil, List.length_nil] at h
    omega
  obtain ⟨c, got, net', hlength, hreceived, hread⟩ :=
    read_some buf mem hleft hlen hnil
  rw [hread]
  dsimp only
  have hsplit : len = got.length + 1 + (len - (got.length + 1)) := by omega
  rw [hreceived, List.length_append, List.length_cons] at h
  obtain ⟨hgot, hzero, hframe, hmem⟩ := ih (len - (got.length + 1)) (by omega)
    (buf + (got.length + 1)) (total + (got.length + 1)) (memWrite mem buf (c :: got))
    (by simp only [List.length_cons]; omega : ({ d with left := d.left - (c :: got).length } :
      KResponseData).left = _) (show _ ≤ (received net').length by omega)
  refine ⟨?_, hzero, ?_, ?_⟩
  · rw [hgot]
    congr 1
    omega
  · intro i hi
    rw [hframe i (by omega)]
    exact if_neg (by omega)
  · have hpiece : memRead (memWrite mem buf (c :: got)) buf (got.length + 1) = c :: got :=
      memRead_memWrite_self mem buf (c :: got)
    have hkept := memRead_congr (a := buf) fun i (hi : i < got.length + 1) =>
      hframe (buf + i) (by omega)
    obtain ⟨rest, hrest⟩ : ∃ rest, len = got.length + 1 + rest := ⟨_, hsplit⟩
    rw [hrest, Nat.add_sub_cancel_left] at hmem hkept ⊢
    rw [hreceived, memRead_add, hmem, hkept, hpiece]
    have htake : ((c :: got) ++ received net').take ((c :: got).length + rest) =
        (c :: got) ++ (received net').take rest := List.take_length_add_append rest
    exact htake.symm

/-! ## The body -/

/-- What `read_body` says of a body of `n` bytes is true: with `KGL_OK` it returns these bytes,
otherwise nothing and an error, and it assigns a result. -/
structure Reports (n : ℕ) (net : List Bytes) (out : BodyOut) : Prop where
  complete : ∀ buffer, out.buffer = some buffer → out.result = some .ok →
    n ≤ (received net).length ∧ memRead buffer 0 n = (received net).take n
  returned : n ≤ (received net).length → out.result = some .ok ∧ out.buffer.isSome
  broken : (received net).length < n →
    out.buffer = none ∧ ∃ error, out.result = some error ∧ error ≠ .ok
  assigned : out.result ≠ none

/-- A body of known length is returned with `KGL_OK`, whatever has arrived. -/
theorem readBody_known (room : ℕ → ℕ) (fresh : ℕ → Byte) {maxBodyLen : ℤ} (hleft : d.left = len)
    (hlen : 0 < len) (hmax : d.left ≤ maxBodyLen) (net : List Bytes) :
    ∃ buffer, (readBody room fresh maxBodyLen d net).buffer = some buffer ∧
      (readBody room fresh maxBodyLen d net).result = some .ok ∧
      (len ≤ (received net).length → memRead buffer 0 len = (received net).take len) := by
  have hlength : d.left.toNat = len := by omega
  have hgot : (readAll 0 len 0 d fresh net).got ≠ some 0 := by
    by_cases h : len ≤ (received net).length
    · rw [(readAll_full 0 0 fresh hleft h).1]
      intro hzero
      have := Option.some.inj hzero
      omega
    · rw [readAll_short 0 0 fresh hleft (by omega)]
      simp
  refine ⟨memWrite (readAll 0 len 0 d fresh net).mem len [0], ?_, ?_, ?_⟩
  · unfold readBody
    rw [if_neg (by omega), if_neg (by omega), if_pos (by omega), hlength]
    dsimp only
    rw [if_neg hgot]
  · unfold readBody
    rw [if_neg (by omega), if_neg (by omega), if_pos (by omega), hlength]
    dsimp only
    rw [if_neg hgot]
  · intro h
    rw [memRead_memWrite_before _ _ (by omega)]
    exact (readAll_full 0 0 fresh hleft h).2.2.2

/-- Where the length is not known, `result` is assigned when the body is not returned. -/
theorem readRest_result (room : ℕ → ℕ) (used : ℕ) (d : KResponseData) (buffer : ℕ → Byte)
    (net : List Bytes) :
    (readRest room used d buffer net).result = none ↔
      (readRest room used d buffer net).buffer.isSome := by
  induction hn : net.flatten.length using Nat.strong_induction_on generalizing used d buffer net
  rename_i n ih
  unfold readRest
  split
  · simp
  · simp
  · rename_i got hgot
    exact ih _ (hn ▸ read_net hgot) _ _ _ _ rfl

/-- `read_body` tells the truth about a body of known length exactly when all of it arrives; where
the length is not known, it assigns no result to a body that it returns. -/
theorem readBody_reports (room : ℕ → ℕ) (fresh : ℕ → Byte) {maxBodyLen : ℤ}
    (hmax : d.left ≤ maxBodyLen) (net : List Bytes) :
    (0 < d.left → (Reports d.left.toNat net (readBody room fresh maxBodyLen d net) ↔
      d.left.toNat ≤ (received net).length)) ∧
      (d.left < 0 → ((readBody room fresh maxBodyLen d net).result = none ↔
        (readBody room fresh maxBodyLen d net).buffer.isSome)) := by
  refine ⟨fun hpos => ?_, fun hneg => ?_⟩
  · obtain ⟨buffer, hbuffer, hresult, hread⟩ := readBody_known room fresh
      (show d.left = d.left.toNat by omega) (by omega) hmax net
    constructor
    · intro h
      exact (h.complete buffer hbuffer hresult).1
    · intro h
      refine ⟨?_, ?_, ?_, ?_⟩
      · intro buffer' hbuffer' _
        rw [hbuffer] at hbuffer'
        rw [← Option.some.inj hbuffer']
        exact ⟨h, hread h⟩
      · exact fun _ => ⟨hresult, by rw [hbuffer]; rfl⟩
      · exact fun hless => absurd h (by omega)
      · rw [hresult]
        simp
  · unfold readBody
    rw [if_neg (by omega), if_neg (by omega), if_neg (by omega)]
    exact readRest_result room 0 d fresh net

/-- A body of three bytes that arrives in two pieces. -/
theorem readBody_reports_three :
    Reports 3 [[65, 66], [67, 10]] (readBody (fun _ => 512) (fun _ => 0) 4096578
      { init with left := 3 } [[65, 66], [67, 10]]) :=
  ((readBody_reports (d := { init with left := 3 }) (fun _ => 512) (fun _ => 0) (by decide)
    [[65, 66], [67, 10]]).1 (by decide)).mpr (by decide)

/-- Two of three bytes arrive before the end, and the body is returned with `KGL_OK`. -/
theorem readBody_wrong :
    (readBody (fun _ => 512) (fun _ => 0) 4096578 { init with left := 3 } [[65, 66]]).result =
        some .ok ∧
      ¬Reports 3 [[65, 66]] (readBody (fun _ => 512) (fun _ => 0) 4096578
        { init with left := 3 } [[65, 66]]) := by
  have hleft : ({ init with left := 3 } : KResponseData).left = (3 : ℕ) := rfl
  obtain ⟨buffer, hbuffer, hresult, -⟩ := readBody_known (fun _ => 512) (fun _ => 0) hleft
    (by decide) (by decide : (3 : ℤ) ≤ 4096578) [[65, 66]]
  exact ⟨hresult, fun h => absurd (h.complete buffer hbuffer hresult).1 (by decide)⟩

/-! ## The header -/

/-- A line `Transfer-Encoding: chunked`. -/
def IsChunkedLine (line : Bytes × Bytes) : Prop :=
  caseString line.1 = kglString "transfer-encoding" ∧ caseString line.2 = kglString "chunked"

/-- A line `Content-length`. -/
def IsLengthLine (line : Bytes × Bytes) : Prop :=
  caseString line.1 = kglString "content-length"

instance (line : Bytes × Bytes) : Decidable (IsChunkedLine line) :=
  inferInstanceAs (Decidable (_ ∧ _))

instance (line : Bytes × Bytes) : Decidable (IsLengthLine line) :=
  inferInstanceAs (Decidable (_ = _))

/-- The last line that satisfies `p`. -/
def lastLine (p : Bytes × Bytes → Prop) [DecidablePred p] (lines : List (Bytes × Bytes)) :
    Option (Bytes × Bytes) :=
  (lines.filter fun line => p line).getLast?

variable (p : Bytes × Bytes → Prop) [DecidablePred p]

theorem lastLine_append_of_pos (lines : List (Bytes × Bytes)) {line : Bytes × Bytes}
    (h : p line) : lastLine p (lines ++ [line]) = some line := by
  simp [lastLine, h]

theorem lastLine_append_of_neg (lines : List (Bytes × Bytes)) {line : Bytes × Bytes}
    (h : ¬p line) : lastLine p (lines ++ [line]) = lastLine p lines := by
  simp [lastLine, h]

theorem lastLine_eq_none {lines : List (Bytes × Bytes)} :
    lastLine p lines = none ↔ ∀ line ∈ lines, ¬p line := by
  simp [lastLine]

theorem lastLine_mem {lines : List (Bytes × Bytes)} {line : Bytes × Bytes}
    (h : lastLine p lines = some line) : line ∈ lines ∧ p line := by
  have hmem := List.mem_of_getLast? h
  simpa using hmem

/-- The lines that say how long the body is. -/
def IsFramingLine (line : Bytes × Bytes) : Prop := IsChunkedLine line ∨ IsLengthLine line

instance (line : Bytes × Bytes) : Decidable (IsFramingLine line) :=
  inferInstanceAs (Decidable (_ ∨ _))

theorem not_isLengthLine {line : Bytes × Bytes} (h : IsChunkedLine line) : ¬IsLengthLine line := by
  unfold IsLengthLine
  rw [h.1]
  decide

/-- What `left` and `dechunk` are after these lines. -/
def Framed (lines : List (Bytes × Bytes)) (d : KResponseData) : Prop :=
  match lastLine IsFramingLine lines with
  | none => d.left = 0 ∧ d.dechunk = none
  | some line =>
    if IsChunkedLine line then d.left = -1 ∧ d.dechunk = some chunkReadSize
    else d.left = string2int line.2 ∧ d.dechunk = none

theorem framed_of_chunked {lines : List (Bytes × Bytes)} {line : Bytes × Bytes}
    (hlast : lastLine IsFramingLine lines = some line) (h : IsChunkedLine line) (d : KResponseData) :
    Framed lines d ↔ d.left = -1 ∧ d.dechunk = some chunkReadSize := by
  unfold Framed
  rw [hlast]
  simp only [if_pos h]

theorem framed_of_length {lines : List (Bytes × Bytes)} {line : Bytes × Bytes}
    (hlast : lastLine IsFramingLine lines = some line) (h : IsLengthLine line) (d : KResponseData) :
    Framed lines d ↔ d.left = string2int line.2 ∧ d.dechunk = none := by
  unfold Framed
  rw [hlast]
  simp only [if_neg fun hchunked : IsChunkedLine line => not_isLengthLine hchunked h]

theorem framed_of_none {lines : List (Bytes × Bytes)}
    (hlast : lastLine IsFramingLine lines = none) (d : KResponseData) :
    Framed lines d ↔ d.left = 0 ∧ d.dechunk = none := by
  unfold Framed
  rw [hlast]

/-- A reader exists only where the last line about the length asks for it. -/
theorem Framed.dechunk {lines : List (Bytes × Bytes)} (h : Framed lines d) :
    d.dechunk = none ∨ d.left = -1 ∧ d.dechunk = some chunkReadSize := by
  unfold Framed at h
  cases hlast : lastLine IsFramingLine lines with
  | none =>
    rw [hlast] at h
    exact .inl h.2
  | some line =>
    rw [hlast] at h
    by_cases hchunked : IsChunkedLine line
    · simp only [if_pos hchunked] at h
      exact .inr h
    · simp only [if_neg hchunked] at h
      exact .inl h.2

/-- One line. -/
theorem Framed.parseHeader {lines : List (Bytes × Bytes)} (h : Framed lines d)
    (line : Bytes × Bytes) : Framed (lines ++ [line]) (d.parseHeader line.1 line.2).1 := by
  by_cases hchunked : IsChunkedLine line
  · have hlast := lastLine_append_of_pos IsFramingLine lines (.inl hchunked : IsFramingLine line)
    rw [framed_of_chunked hlast hchunked]
    unfold KResponseData.parseHeader
    rw [if_pos hchunked.1]
    rcases h.dechunk with hnone | hsome
    · rw [if_pos ⟨hchunked.2, hnone⟩]
      exact ⟨rfl, rfl⟩
    · have hnot : ¬(caseString line.2 = kglString "chunked" ∧ d.dechunk = none) := by
        rw [hsome.2]
        exact fun hnone => absurd hnone.2 (Option.some_ne_none _)
      rw [if_neg hnot]
      exact hsome
  by_cases hlength : IsLengthLine line
  · have hlast := lastLine_append_of_pos IsFramingLine lines (.inr hlength : IsFramingLine line)
    rw [framed_of_length hlast hlength]
    unfold KResponseData.parseHeader
    have hname : caseString line.1 = kglString "content-length" := hlength
    have hother : caseString line.1 ≠ kglString "transfer-encoding" := by
      rw [hname]
      decide
    rw [if_neg hother, if_pos hname]
    constructor
    · dsimp only
    · dsimp only
  · have hlast := lastLine_append_of_neg IsFramingLine lines
      (fun hframing => hframing.elim hchunked hlength : ¬IsFramingLine line)
    have hsame : (d.parseHeader line.1 line.2).1.left = d.left ∧
        (d.parseHeader line.1 line.2).1.dechunk = d.dechunk := by
      unfold KResponseData.parseHeader
      split_ifs with hname hvalue hlengthName hlong
      · exact absurd ⟨hname, hvalue.1⟩ hchunked
      · exact ⟨rfl, rfl⟩
      · exact absurd hlengthName hlength
      · exact ⟨rfl, rfl⟩
      · exact ⟨rfl, rfl⟩
    unfold Framed at h ⊢
    rw [hlast, hsame.1, hsame.2]
    exact h

/-- All lines. -/
theorem framed_parseResponse (status : Bytes) (lines : List (Bytes × Bytes)) :
    Framed lines (parseResponse status lines) := by
  induction lines using List.reverseRecOn with
  | nil =>
    rw [framed_of_none rfl]
    unfold parseResponse parseStatus
    simp only [List.foldl_nil]
    split
    · exact ⟨rfl, rfl⟩
    · exact ⟨rfl, rfl⟩
  | append_singleton lines line ih =>
    unfold parseResponse at ih ⊢
    rw [List.foldl_append]
    exact ih.parseHeader line

/-- The status that a status line gives. -/
def statusOf (status : Bytes) : ℕ := (atoi status % 2 ^ 16).toNat

/-- The rules for the length of a body: none behind some status codes, else the chunks where a line
asks for them, else the length of the last `Content-length`. -/
structure Frames (status : Bytes) (lines : List (Bytes × Bytes)) (d : KResponseData) : Prop where
  noBody : isStatusCodeNoBody (statusOf status) → d.left = 0
  chunked : ¬isStatusCodeNoBody (statusOf status) → (∃ line ∈ lines, IsChunkedLine line) →
    d.left < 0 ∧ d.dechunk.isSome
  length : ¬isStatusCodeNoBody (statusOf status) → (∀ line ∈ lines, ¬IsChunkedLine line) →
    ∀ line, lastLine IsLengthLine lines = some line → d.left = string2int line.2 ∧ d.dechunk = none

/-- Behind a status without a body, the last line about the length is a length of zero, if there is
one; behind another status, it asks for chunks, if any line does. -/
def LastLineDecides (status : Bytes) (lines : List (Bytes × Bytes)) : Prop :=
  ∀ line, lastLine IsFramingLine lines = some line →
    if isStatusCodeNoBody (statusOf status) then IsLengthLine line ∧ string2int line.2 = 0
    else (∃ line ∈ lines, IsChunkedLine line) → IsChunkedLine line

/-- Without a line that asks for chunks, the lines about the length are the lengths. -/
theorem lastLine_framing {lines : List (Bytes × Bytes)}
    (h : ∀ line ∈ lines, ¬IsChunkedLine line) :
    lastLine IsFramingLine lines = lastLine IsLengthLine lines := by
  unfold lastLine
  congr 1
  refine List.filter_congr fun line hline => ?_
  have hiff : IsFramingLine line ↔ IsLengthLine line := or_iff_right (h line hline)
  exact decide_eq_decide.mpr hiff

end KResponseData

end Khttpd
