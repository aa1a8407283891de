import Khttpd.Model.Sink

/-!
# Body framing and the order of header fields

A request that says `Transfer-Encoding: chunked` is framed by the chunked coding in every order of
its header fields exactly when no `Content-length` field says anything else than -1.
-/

set_option autoImplicit false

namespace Khttpd

/-- The field says `Transfer-Encoding: chunked`. -/
def IsChunkedLine (line : Bytes × Bytes) : Prop :=
  isTransferEncoding line.1 = true ∧ memCaseSame line.2 (kglString "chunked") = true

namespace KRequestData

/-- The flag and the number that the chunked coding stands for. -/
def Chunked (d : KRequestData) : Prop := d.inputChunked = true ∧ d.leftRead = -1

/-- Whatever follows the header section, the calls of `KSink::read` return what the decoder of the
body returns, up to the end of the body. -/
def ReadThroughDecoder (d : KRequestData) : Prop :=
  ∀ (buf : Bytes) (net : List Bytes) (length : ℕ → ℕ) (n : ℕ),
    some [] ∉ (KDechunkContext.reads length n (.init buf) net).1 →
    ((KHttpSink.headerFinished ⟨d, buf, none⟩).reads length (n + 1) net).1 =
      (KDechunkContext.reads length (n + 1) (.init buf) net).1

/-- The request is framed by the chunked coding, and its body is read so. -/
def FramedAsChunked (d : KRequestData) : Prop := d.Chunked ∧ d.ReadThroughDecoder

end KRequestData

/-! ## Reading -/

namespace KHttpSink

/-- A call of `read` on a chunked body is a call of the decoder. -/
theorem read_chunked {s : KHttpSink} {ctx : KDechunkContext} (hctx : s.dechunk = some ctx)
    (hleft : s.data.leftRead = -1) (len : ℕ) (net : List Bytes) :
    (s.read len net).2 = (ctx.read len net).2 ∧
      ((ctx.read len net).2.2 ≠ some [] → (s.read len net).1.data.leftRead = -1) ∧
      (s.read len net).1.dechunk = some (ctx.read len net).1 := by
  obtain ⟨data, buffer, dechunk⟩ := s
  dsimp only at hctx hleft
  subst hctx
  have hlimit : readLimit { data with haveExpect := false } len = len := by
    refine if_neg fun h => ?_
    exact absurd (hleft ▸ h.1) (by decide)
  unfold read
  dsimp only
  rw [hlimit, internalRead]
  dsimp only
  cases hgot : (ctx.read len net).2.2 with
  | none => exact ⟨rfl, fun _ => hleft, rfl⟩
  | some got =>
    refine ⟨rfl, fun hne => ?_, rfl⟩
    have hgot' : got ≠ [] := fun h => hne (by rw [h])
    have hpos : ¬0 < data.leftRead := by
      rw [hleft]
      decide
    dsimp only [leftAfter]
    rw [if_neg hgot', if_neg hpos]
    exact hleft

/-- The calls of `read` on a chunked body are calls of the decoder up to its end. -/
theorem reads_chunked {n : ℕ} {s : KHttpSink} {ctx : KDechunkContext} {net : List Bytes}
    {length : ℕ → ℕ} (hctx : s.dechunk = some ctx) (hleft : s.data.leftRead = -1)
    (hopen : some [] ∉ (ctx.reads length n net).1) :
    (s.reads length (n + 1) net).1 = (ctx.reads length (n + 1) net).1 := by
  induction n generalizing s ctx net length with
  | zero =>
    obtain ⟨hread, -, -⟩ := read_chunked hctx hleft (length 0) net
    simp only [reads, KDechunkContext.reads, hread]
  | succ n ih =>
    obtain ⟨hread, hnext, hctx'⟩ := read_chunked hctx hleft (length 0) net
    simp only [KDechunkContext.reads, List.mem_cons, not_or] at hopen
    have hrest := ih hctx' (hnext (Ne.symm hopen.1)) hopen.2
    rw [reads, KDechunkContext.reads]
    simp only [hread]
    rw [hrest]

end KHttpSink

/-- A request that is framed by the chunked coding is read so. -/
theorem KRequestData.Chunked.readThroughDecoder {d : KRequestData} (h : d.Chunked) :
    d.ReadThroughDecoder := by
  intro buf net length n hopen
  have hfinished : KHttpSink.headerFinished ⟨d, buf, none⟩ = ⟨d, buf, some (.init buf)⟩ :=
    if_pos h.1
  rw [hfinished]
  exact KHttpSink.reads_chunked rfl h.2 hopen

/-! ## Header fields -/

namespace KRequestData

/-- What a header field does to the fields that say nothing about the body. -/
def headStep (P : RequestParser) (head : KRequestHead) (line : Bytes × Bytes) :
    Option KRequestHead :=
  if head.httpVersion > 0x100 ∧ line.1.head? = some 58 then P.pseudoHeader head line.1 line.2
  else if isContentLength line.1 then some head
  else if isTransferEncoding line.1 then some head
  else head.parseOther P line.1 line.2

/-- The fields that say nothing about the body do not depend on the others. -/
theorem parseHeader_head (P : RequestParser) (d : KRequestData) (line : Bytes × Bytes) :
    (d.parseHeader P line.1 line.2 false).map toKRequestHead =
      headStep P d.toKRequestHead line := by
  have hmap : ∀ next : Option KRequestHead,
      (next.map fun head => { d with toKRequestHead := head }).map toKRequestHead = next := by
    intro next
    cases next <;> rfl
  unfold parseHeader headStep
  split
  · exact hmap _
  · rw [if_neg fun h => Bool.false_ne_true h.1]
    split
    · rfl
    · split
      · split <;> rfl
      · exact hmap _

/-- Which header fields are accepted depends on those fields alone. -/
theorem parseHeaders_head (P : RequestParser) (d : KRequestData) (lines : List (Bytes × Bytes)) :
    (d.parseHeaders P lines).map toKRequestHead = lines.foldlM (headStep P) d.toKRequestHead := by
  unfold parseHeaders
  induction lines generalizing d with
  | nil => rfl
  | cons line lines ih =>
    have hstep := parseHeader_head P d line
    rw [List.foldlM_cons, List.foldlM_cons]
    cases hparse : d.parseHeader P line.1 line.2 false with
    | none =>
      rw [hparse] at hstep
      rw [← hstep]
      rfl
    | some d' =>
      rw [hparse] at hstep
      rw [← hstep]
      exact ih d'

/-- A name that is the same but for case as one with a letter in front has no colon in front. -/
theorem head_ne_colon {attr name : Bytes} (h : memCaseSame attr name = true)
    (hname : (name.map toLower).head? ≠ some 58) : attr.head? ≠ some 58 := by
  have hmap : attr.map toLower = name.map toLower := eq_of_beq h
  intro hcolon
  apply hname
  rw [← hmap, List.head?_map, hcolon]
  rfl

/-- What `parse_header` does with `Content-length`. -/
theorem parseHeader_contentLength {P : RequestParser} {d : KRequestData} {line : Bytes × Bytes}
    (hline : isContentLength line.1 = true) :
    d.parseHeader P line.1 line.2 false =
      some { d with leftRead := string2int line.2, hasContentLen := true } := by
  have hcolon := head_ne_colon hline (by decide)
  unfold parseHeader
  rw [if_neg fun h => hcolon h.2, if_neg fun h => Bool.false_ne_true h.1, if_pos hline]

/-- What `parse_header` does with `Transfer-Encoding: chunked`. -/
theorem parseHeader_chunked {P : RequestParser} {d : KRequestData} {line : Bytes × Bytes}
    (hline : IsChunkedLine line) :
    d.parseHeader P line.1 line.2 false = some { d with inputChunked := true, leftRead := -1 } := by
  have hcolon := head_ne_colon hline.1 (by decide)
  have hlength : ¬isContentLength line.1 = true := by
    intro h
    have hsame : (kglString "Content-length").map toLower =
        (kglString "Transfer-Encoding").map toLower :=
      (eq_of_beq h).symm.trans (eq_of_beq hline.1)
    exact absurd hsame (by decide +kernel)
  unfold parseHeader
  rw [if_neg fun h => hcolon h.2, if_neg fun h => Bool.false_ne_true h.1, if_neg hlength,
    if_pos hline.1, if_pos hline.2]

/-- A chunked request stays chunked under a header field that says no other length. -/
theorem Chunked.parseHeader {P : RequestParser} {d d' : KRequestData} (hd : d.Chunked)
    {line : Bytes × Bytes} (hline : isContentLength line.1 = true → string2int line.2 = -1)
    (h : d.parseHeader P line.1 line.2 false = some d') : d'.Chunked := by
  by_cases hlength : isContentLength line.1 = true
  · rw [parseHeader_contentLength hlength] at h
    have hvalue := hline hlength
    cases h
    refine ⟨hd.1, ?_⟩
    dsimp only
    exact hvalue
  · have hmap : ∀ {next : Option KRequestHead},
        (next.map fun head => { d with toKRequestHead := head }) = some d' → d'.Chunked := by
      intro next hnext
      obtain ⟨head, -, heq⟩ := Option.map_eq_some_iff.mp hnext
      rw [← heq]
      exact hd
    unfold KRequestData.parseHeader at h
    split at h
    · exact hmap h
    · simp only [Bool.false_eq_true, false_and, if_false] at h
      split at h
      · cases h
        split
        · exact ⟨rfl, rfl⟩
        · exact hd
      · exact hmap h

/-- A chunked request stays chunked under header fields that say no other length. -/
theorem Chunked.parseHeaders {P : RequestParser} {lines : List (Bytes × Bytes)}
    {d d' : KRequestData}
    (hd : d.Chunked)
    (hlines : ∀ line ∈ lines, isContentLength line.1 = true → string2int line.2 = -1)
    (h : d.parseHeaders P lines = some d') : d'.Chunked := by
  induction lines generalizing d with
  | nil =>
    cases h
    exact hd
  | cons line lines ih =>
    obtain ⟨d1, hparse, hrest⟩ := Option.bind_eq_some_iff.mp h
    exact ih (hd.parseHeader (hlines line List.mem_cons_self) hparse)
      (fun line' hmem => hlines line' (List.mem_cons_of_mem _ hmem)) hrest

/-- Header fields with a chunked line make a request chunked if no other length is said. -/
theorem chunked_of_parseHeaders {P : RequestParser} {lines : List (Bytes × Bytes)}
    {d d' : KRequestData} (hchunked : ∃ line ∈ lines, IsChunkedLine line)
    (hlines : ∀ line ∈ lines, isContentLength line.1 = true → string2int line.2 = -1)
    (h : d.parseHeaders P lines = some d') : d'.Chunked := by
  induction lines generalizing d with
  | nil =>
    obtain ⟨line, hmem, -⟩ := hchunked
    cases hmem
  | cons line lines ih =>
    obtain ⟨d1, hparse, hrest⟩ := Option.bind_eq_some_iff.mp h
    have htail : ∀ line' ∈ lines, isContentLength line'.1 = true → string2int line'.2 = -1 :=
      fun line' hmem => hlines line' (List.mem_cons_of_mem _ hmem)
    obtain ⟨line', hmem, hline'⟩ := hchunked
    rcases List.mem_cons.mp hmem with heq | hmem
    · subst heq
      have hparse' := (parseHeader_chunked hline').symm.trans hparse
      cases hparse'
      exact Chunked.parseHeaders ⟨rfl, rfl⟩ htail hrest
    · exact ih ⟨line', hmem, hline'⟩ htail hrest

/-- A `Content-length` field can be put last, and then its length is the one that counts. -/
theorem parseHeaders_length_last {P : RequestParser} {before after : List (Bytes × Bytes)}
    {line : Bytes × Bytes} (hline : isContentLength line.1 = true) {d : KRequestData}
    (haccepted : (d.parseHeaders P (before ++ line :: after)).isSome) :
    ∃ d', d.parseHeaders P (before ++ after ++ [line]) = some d' ∧
      d'.leftRead = string2int line.2 := by
  have hskip : ∀ head, headStep P head line = some head := by
    intro head
    unfold headStep
    rw [if_neg fun h => head_ne_colon hline (by decide) h.2, if_pos hline]
  have hhead : (d.parseHeaders P (before ++ line :: after)).map toKRequestHead =
      (d.parseHeaders P (before ++ after)).map toKRequestHead := by
    rw [parseHeaders_head, parseHeaders_head, List.foldlM_append, List.foldlM_append]
    congr 1
    funext head
    rw [List.foldlM_cons, hskip]
    rfl
  have hsome : (d.parseHeaders P (before ++ after)).isSome := by
    rw [← Option.isSome_map (f := toKRequestHead), ← hhead, Option.isSome_map]
    exact haccepted
  obtain ⟨d1, hd1⟩ := Option.isSome_iff_exists.mp hsome
  refine ⟨{ d1 with leftRead := string2int line.2, hasContentLen := true }, ?_, by dsimp only⟩
  have hlast := parseHeader_contentLength (P := P) (d := d1) hline
  unfold parseHeaders at hd1 ⊢
  rw [List.foldlM_append, hd1, Option.bind_eq_bind, Option.bind_some, List.foldlM_cons, hlast]
  rfl

end KRequestData

open KRequestData

/-- A parser of requests that accepts every request line and host. -/
def acceptingParser : RequestParser where
  requestLine := fun _ _ => some ⟨1, some 0x101, false⟩
  urlHost := fun _ => true
  pseudoHeader := fun d _ _ => some d

/-- A request behind its request line. -/
def afterRequestLine : KRequestData :=
  { meth := 1, httpVersion := 0x101, hasHost := false, haveExpect := false,
    hasKeepConnection := true, hasConnectionUpgrade := false, connectionUpgrade := false,
    connectionClose := false, header := [], inputChunked := false, hasContentLen := false,
    leftRead := 0 }

/-- The field `Transfer-Encoding: chunked`. -/
def chunkedField : Bytes × Bytes := (kglString "Transfer-Encoding", kglString "chunked")

/-- The field `Content-Length: 5`. -/
def lengthField : Bytes × Bytes := (kglString "Content-Length", kglString "5")

end Khttpd
