import Khttpd.Analysis.BodyFraming
import Khttpd.Analysis.Chunked
import Khttpd.Model.KeepAlive

/-!
# Bodies are not parsed as requests

The bytes between two requests of a connection. Where a request has one framing and does not wait
for an answer to `Expect`, `start_pipe_line` returns true only behind its body.
-/

set_option autoImplicit false

namespace Khttpd

/-! ## Bodies -/

namespace Exchange

/-- The body of the request, as its framing delimits it, ends where `rest` begins. -/
def BodyEnds (e : Exchange) (rest : Bytes) : Prop :=
  if e.data.inputChunked then
    ∀ (b : ChunkedBody) (tail : Bytes), e.unread = b.encode ++ tail → rest = tail
  else ∃ body : Bytes, (body.length : ℤ) = e.data.leftRead ∧ e.unread = body ++ rest

/-- Where `start_pipe_line` returned true the body has been consumed, and the next request is parsed
from the byte behind it. -/
def Consumed (e : Exchange) : Prop :=
  (∀ rest, e.piped = some rest → e.BodyEnds rest) ∧ ∀ rest, e.next = some rest → e.piped = some rest

/-- The request is framed by the chunked coding alone, or by a length within 63 bits. -/
def OneFraming (e : Exchange) : Prop :=
  if e.data.inputChunked then e.data.leftRead = -1 else 0 ≤ e.data.leftRead

/-- The handler read from the connection if the request announced `Expect: 100-continue`. -/
def Answered (e : Exchange) : Prop :=
  e.data.haveExpect = true → ∃ len, HandlerStep.read len ∈ e.steps

/-- The handler has room for a byte wherever it reads a chunked body. -/
def HasRoom (e : Exchange) : Prop :=
  e.data.inputChunked = true → ∀ len, HandlerStep.read len ∈ e.steps → 0 < len

end Exchange

namespace KHttpSink

/-! ## The end of a header section -/

/-- The connection right behind a header section: a decoder reads a chunked body, and only that. -/
def AtBody (s : KHttpSink) : Prop :=
  s.dechunk = if s.data.inputChunked then some (.init s.buffer) else none

/-- The parser makes a decoder where the header section ends, and only there. -/
theorem parseLoop_dechunk (P : RequestParser) (h2 late : Bool) (beyond : Byte) (fuel : ℕ)
    (p : KHttpParser) {s : KHttpSink} (hs : s.dechunk = none) :
    ((s.parseLoop P h2 late beyond fuel p).result = .finished →
      (s.parseLoop P h2 late beyond fuel p).sink.AtBody) ∧
    ((s.parseLoop P h2 late beyond fuel p).result ≠ .finished →
      (s.parseLoop P h2 late beyond fuel p).sink.dechunk = none) := by
  induction fuel generalizing p s with
  | zero => exact ⟨nofun, fun _ => hs⟩
  | succ fuel ih =>
    rw [parseLoop]
    dsimp only
    generalize khttpParse beyond (s.buffer.length + 1) p s.buffer = out
    cases hout : out.result with
    | «continue» =>
      refine ⟨fun h => ?_, fun _ => hs⟩
      dsimp only [checkContinue] at h
      split at h <;> cases h
    | finished =>
      refine ⟨fun _ => ?_, fun h => absurd rfl h⟩
      dsimp only [headerFinished]
      split
      · rename_i hchunked
        unfold AtBody
        dsimp only
        rw [if_pos hchunked]
      · rename_i hchunked
        unfold AtBody
        dsimp only
        rw [if_neg hchunked, hs]
    | success rs =>
      dsimp only
      cases s.data.parseHeader P rs.attr rs.val rs.isFirst with
      | none => exact ⟨nofun, fun _ => hs⟩
      | some data =>
        dsimp only
        split
        · exact ⟨nofun, fun _ => hs⟩
        · have hnext : ({ s with buffer := out.rest, data := data } : KHttpSink).dechunk = none :=
            hs
          exact ih out.parser hnext

/-- The connection behind a header section, and the reads that are still to come. -/
theorem readHeader_atBody {env : HeaderEnv} {p : KHttpParser} {s s' : KHttpSink}
    {net net' : List Bytes} (hs : s.dechunk = none) (hnet : [] ∉ net)
    (h : readHeader env p s net = some (s', net')) : s'.AtBody ∧ [] ∉ net' := by
  induction net generalizing p s with
  | nil =>
    have hparse := parseLoop_dechunk env.parser env.h2 (env.late s []) (env.beyond s [])
      (s.buffer.length + 1) p hs
    unfold readHeader at h
    dsimp only [parse] at h
    split at h
    · rename_i hfinished
      cases h
      exact ⟨hparse.1 hfinished, List.not_mem_nil⟩
    · cases h
  | cons got net ih =>
    have hparse := parseLoop_dechunk env.parser env.h2 (env.late s (got :: net))
      (env.beyond s (got :: net)) (s.buffer.length + 1) p hs
    unfold readHeader at h
    dsimp only [parse] at h
    split at h
    · rename_i hfinished
      cases h
      exact ⟨hparse.1 hfinished, hnet⟩
    · rename_i hcontinue
      have hgot : got ≠ [] := fun hgot => hnet (hgot ▸ List.mem_cons_self)
      rw [if_neg hgot] at h
      refine ih ?_ (fun hmem => hnet (List.mem_cons_of_mem _ hmem)) h
      refine hparse.2 fun hfinished => ?_
      rw [hcontinue] at hfinished
      cases hfinished
    · cases h

/-! ## A chunked body -/

/-- The decoder is in the body in front of `tail`, or behind it. -/
def ChunkedLeft (tail : Bytes) (s : KHttpSink) (net : List Bytes) : Prop :=
  [] ∉ net ∧ ∃ ctx, s.dechunk = some ctx ∧
    ((s.data.leftRead = -1 ∧ ∃ st payload pieces, ChunkState.Fits st ∧ ctx.chunkSize = st.word ∧
        Pending tail st (ctx.buffer ++ net.flatten) payload pieces) ∨
      s.data.leftRead = 0 ∧ ctx.chunkSize = chunkIsEnd ∧ ctx.buffer ++ net.flatten = tail)

end KHttpSink

/-- Behind the end of a body the decoder keeps what it gets. -/
theorem KDechunkContext.read_end {ctx : KDechunkContext} (hend : ctx.chunkSize = chunkIsEnd)
    (length : ℕ) {net : List Bytes} (hnet : [] ∉ net) :
    (ctx.read length net).1.chunkSize = chunkIsEnd ∧ [] ∉ (ctx.read length net).2.1 ∧
      (ctx.read length net).1.buffer ++ (ctx.read length net).2.1.flatten =
        ctx.buffer ++ net.flatten ∧
      ((ctx.read length net).2.2 = none ∨ (ctx.read length net).2.2 = some []) := by
  have hround : ∀ {c : KDechunkContext}, c.chunkSize = chunkIsEnd → c.buffer ≠ [] →
      c.readRound length = (c, .end) := by
    intro c hc hne
    have hcall : ∀ buf, dechunk chunkIsEnd buf length = ⟨chunkIsEnd, buf, .end⟩ := by
      intro buf
      rw [dechunk, if_neg (by decide), if_pos rfl]
    obtain ⟨chunkSize, buffer, trailer⟩ := c
    dsimp only at hc hne
    subst hc
    rw [readRound, if_neg hne, dechunkLoop]
    dsimp only
    rw [hcall]
  by_cases hbuffer : ctx.buffer = []
  · have hempty : ctx.readRound length = (ctx, .continue) := if_pos hbuffer
    cases net with
    | nil =>
      unfold read
      rw [hempty]
      exact ⟨hend, List.not_mem_nil, rfl, .inl rfl⟩
    | cons got net =>
      have hgot : got ≠ [] := fun hgot => hnet (hgot ▸ List.mem_cons_self)
      have hnet' : [] ∉ net := fun hmem => hnet (List.mem_cons_of_mem _ hmem)
      have hend' : ({ ctx with buffer := ctx.buffer ++ got } : KDechunkContext).chunkSize =
          chunkIsEnd := hend
      have hne : ({ ctx with buffer := ctx.buffer ++ got } : KDechunkContext).buffer ≠ [] := by
        dsimp only
        rw [hbuffer]
        exact hgot
      have hread : ctx.read length (got :: net) =
          ({ ctx with buffer := ctx.buffer ++ got }, net, some []) := by
        rw [read, hempty]
        dsimp only
        rw [if_neg hgot]
        cases net <;> rw [read, hround hend' hne]
      rw [hread]
      refine ⟨hend, hnet', ?_, .inr rfl⟩
      rw [List.flatten_cons, List.append_assoc]
  · have hread : ctx.read length net = (ctx, net, some []) := by
      cases net <;> rw [read, hround hend hbuffer]
    rw [hread]
    exact ⟨hend, hnet, rfl, .inr rfl⟩

namespace KHttpSink

/-- A call of `KSink::read` on a chunked body stays in it, or ends right behind it. -/
theorem read_chunkedLeft {tail : Bytes} {s : KHttpSink} {net : List Bytes} {len : ℕ}
    (hlen : 0 < len) (hupgrade : s.data.connectionUpgrade = false) (h : ChunkedLeft tail s net) :
    ChunkedLeft tail (s.read len net).1 (s.read len net).2.1 := by
  obtain ⟨hnet, ctx, hctx, hleft⟩ := h
  obtain ⟨data, buffer, dechunk⟩ := s
  dsimp only at hupgrade hctx hleft
  subst hctx
  rcases hleft with ⟨hleft, st, payload, pieces, hfits, hword, hpending⟩ | ⟨hleft, hword, htail⟩
  · have hlimit : readLimit { data with haveExpect := false } len = len := by
      refine if_neg fun h => ?_
      exact absurd (hleft ▸ h.1) (by decide)
    have hread := KDechunkContext.read_pending hfits hword hlen hnet hpending rfl
    unfold read
    dsimp only
    rw [hlimit, internalRead]
    dsimp only
    generalize ctx.read len net = r at hread
    cases hread with
    | piece piece left hne hpayload st' hfits' hword' hnet' pieces' h' htrailer' =>
      have hpos : ¬0 < data.leftRead := by
        rw [hleft]
        decide
      refine ⟨hnet', _, rfl, .inl ⟨?_, st', left, pieces', hfits', hword', h'⟩⟩
      dsimp only [leftAfter]
      rw [if_neg hne, if_neg hpos]
      exact hleft
    | done hpayload hword' hnet' htail' htrailer' =>
      refine ⟨hnet', _, rfl, .inr ⟨?_, hword', htail'⟩⟩
      dsimp only [leftAfter]
      rw [if_pos rfl, if_pos ⟨hleft, by rw [hupgrade]; rfl⟩]
  · have hlimit : readLimit { data with haveExpect := false } len = 0 := by
      unfold readLimit
      rw [if_pos ⟨hleft ▸ Int.le_refl 0, by dsimp only; rw [hupgrade]; rfl⟩]
      rw [hleft]
      exact Nat.min_zero len
    obtain ⟨hword', hnet', hbytes, hgot⟩ := KDechunkContext.read_end hword 0 hnet
    unfold read
    dsimp only
    rw [hlimit, internalRead]
    dsimp only
    rw [htail] at hbytes
    rcases hgot with hgot | hgot
    · rw [hgot]
      exact ⟨hnet', _, rfl, .inr ⟨hleft, hword', hbytes⟩⟩
    · rw [hgot]
      refine ⟨hnet', _, rfl, .inr ⟨?_, hword', hbytes⟩⟩
      dsimp only [leftAfter]
      have hne : ¬(data.leftRead = -1 ∧ (!data.connectionUpgrade) = true) := by
        rintro ⟨h, -⟩
        rw [hleft] at h
        exact absurd h (by decide)
      rw [if_pos rfl, if_neg hne]
      exact hleft

/-- The loop of `skip_post` over a chunked body stops right behind it. -/
theorem skipChunked_pending {tail : Bytes} {fuel : ℕ} {ctx ctx' : KDechunkContext}
    {net net' : List Bytes} {st : ChunkState} {payload : Bytes} {pieces : List Bytes}
    (hfits : st.Fits) (hword : ctx.chunkSize = st.word) (hnet : [] ∉ net)
    (hpending : Pending tail st (ctx.buffer ++ net.flatten) payload pieces)
    (h : skipChunked fuel ctx net = some (ctx', net')) :
    [] ∉ net' ∧ ctx'.buffer ++ net'.flatten = tail := by
  induction fuel generalizing ctx net st payload pieces with
  | zero => cases h
  | succ fuel ih =>
    have hlength : 0 < 4096 := by decide
    have hread := KDechunkContext.read_pending hfits hword hlength hnet hpending rfl
    rw [skipChunked] at h
    generalize ctx.read 4096 net = r at hread h
    cases hread with
    | piece piece left hne hpayload st' hfits' hword' hnet' pieces' h' htrailer' =>
      dsimp only at h
      rw [if_neg hne] at h
      exact ih hfits' hword' hnet' h' h
    | done hpayload hword' hnet' htail' htrailer' =>
      dsimp only at h
      rw [if_pos rfl] at h
      cases h
      exact ⟨hnet', htail'⟩

/-! ## A body with a length -/

/-- Of the `n` bytes of the body in `whole`, those are behind that `left_read` does not count. -/
def LengthLeft (whole : Bytes) (n : ℤ) (s : KHttpSink) (net : List Bytes) : Prop :=
  [] ∉ net ∧ s.dechunk = none ∧ 0 ≤ s.data.leftRead ∧
    ∃ body : Bytes, (body.length : ℤ) + s.data.leftRead = n ∧ whole = body ++ s.unread net

/-- Without a decoder `internal_read` takes the next bytes of the connection. -/
theorem internalRead_plain {s : KHttpSink} (hs : s.dechunk = none) (len : ℕ) {net : List Bytes}
    (hnet : [] ∉ net) :
    (s.internalRead len net).1.dechunk = none ∧ (s.internalRead len net).1.data = s.data ∧
      [] ∉ (s.internalRead len net).2.1 ∧
      match (s.internalRead len net).2.2 with
      | none => (s.internalRead len net).1.unread (s.internalRead len net).2.1 = s.unread net
      | some got => got.length ≤ len ∧
          s.unread net = got ++ (s.internalRead len net).1.unread (s.internalRead len net).2.1 := by
  unfold internalRead
  rw [hs]
  dsimp only
  by_cases hbuffer : s.buffer = []
  · rw [if_neg (not_not.mpr hbuffer)]
    cases net with
    | nil => exact ⟨hs, rfl, List.not_mem_nil, rfl⟩
    | cons got net =>
      have hnet' : [] ∉ net := fun hmem => hnet (List.mem_cons_of_mem _ hmem)
      have hunread : s.unread (got :: net) = got ++ net.flatten := by
        unfold unread received
        rw [hs]
        dsimp only
        rw [hbuffer, List.nil_append, List.flatten_cons]
      dsimp only [kfiberNetRead]
      rw [hunread]
      unfold unread received
      rw [hs]
      dsimp only
      rw [hbuffer]
      split
      · rename_i hfits
        refine ⟨rfl, rfl, hnet', hfits.trans' ?_, ?_⟩
        · rw [List.length_take]
          exact Nat.min_le_right _ _
        · rw [List.take_of_length_le hfits, List.nil_append]
      · rename_i hfits
        have hdrop : got.drop len ≠ [] := by
          intro hdrop
          rw [List.drop_eq_nil_iff] at hdrop
          exact hfits hdrop
        refine ⟨rfl, rfl, ?_, ?_, ?_⟩
        · intro hmem
          rcases List.mem_cons.mp hmem with hmem | hmem
          · exact hdrop hmem.symm
          · exact hnet' hmem
        · rw [List.length_take]
          exact Nat.min_le_left _ _
        · rw [List.flatten_cons, List.nil_append, ← List.append_assoc, List.take_append_drop]
  · rw [if_pos hbuffer]
    refine ⟨rfl, rfl, hnet, ?_, ?_⟩
    · rw [List.length_take]
      exact Nat.min_le_left _ _
    · unfold unread received
      dsimp only
      rw [hs]
      dsimp only
      rw [← List.append_assoc, List.take_append_drop]

/-- A call of `KSink::read` on a body with a length does not go beyond it. -/
theorem read_lengthLeft {whole : Bytes} {n : ℤ} {s : KHttpSink} {net : List Bytes} (len : ℕ)
    (hupgrade : s.data.connectionUpgrade = false) (h : LengthLeft whole n s net) :
    LengthLeft whole n (s.read len net).1 (s.read len net).2.1 := by
  obtain ⟨hnet, hs, hleft, body, hbody, hwhole⟩ := h
  obtain ⟨data, buffer, dechunk⟩ := s
  dsimp only at hupgrade hs hleft hbody
  subst hs
  have hlimit : readLimit { data with haveExpect := false } len = min len data.leftRead.toNat :=
    if_pos ⟨hleft, by dsimp only; rw [hupgrade]; rfl⟩
  have hplain := internalRead_plain (s := ⟨{ data with haveExpect := false }, buffer, none⟩) rfl
    (min len data.leftRead.toNat) hnet
  have hunread : unread ⟨{ data with haveExpect := false }, buffer, none⟩ net =
      unread ⟨data, buffer, none⟩ net := rfl
  rw [hunread] at hplain
  unfold read
  dsimp only
  rw [hlimit]
  generalize internalRead (min len data.leftRead.toNat)
    ⟨{ data with haveExpect := false }, buffer, none⟩ net = r at hplain
  obtain ⟨⟨data', buffer', dechunk'⟩, net', answer⟩ := r
  obtain ⟨hdechunk, hdata, hnet', hanswer⟩ := hplain
  dsimp only at hdechunk hdata hnet' hanswer
  subst hdechunk hdata
  cases answer with
  | none =>
    dsimp only at hanswer
    refine ⟨hnet', rfl, hleft, body, hbody, ?_⟩
    rw [hwhole, ← hanswer]
  | some got =>
    obtain ⟨hlength, hbytes⟩ := hanswer
    have hmost : (got.length : ℤ) ≤ data.leftRead := by
      have hnat := hlength.trans (Nat.min_le_right _ _)
      omega
    have hafter : leftAfter { data with haveExpect := false } got = data.leftRead - got.length := by
      unfold leftAfter
      dsimp only
      split
      · rename_i hgot
        have hne : ¬(data.leftRead = -1 ∧ (!data.connectionUpgrade) = true) := by
          rintro ⟨h, -⟩
          omega
        rw [if_neg hne, hgot, List.length_nil]
        omega
      · rename_i hgot
        have hpos := List.length_pos_iff.mpr hgot
        rw [if_pos (by omega)]
    refine ⟨hnet', rfl, ?_, body ++ got, ?_, ?_⟩
    · dsimp only
      rw [hafter]
      omega
    · dsimp only
      rw [hafter, List.length_append]
      omega
    · rw [hwhole, hbytes, List.append_assoc]
      rfl

/-- The loop of `skip_post` over a body with a length stops right behind it. -/
theorem skipLength_lengthLeft {whole : Bytes} {n : ℤ} {fuel : ℕ} {s s' : KHttpSink}
    {net net' : List Bytes} (h : LengthLeft whole n s net)
    (hskip : skipLength fuel s net = some (s', net')) :
    LengthLeft whole n s' net' ∧ s'.data.leftRead = 0 := by
  have hstop : ∀ {s : KHttpSink} {net : List Bytes}, LengthLeft whole n s net →
      ¬0 < s.data.leftRead → s.data.leftRead = 0 := by
    intro s net hs hpos
    have hleft := hs.2.2.1
    omega
  induction fuel generalizing s net with
  | zero =>
    rw [skipLength] at hskip
    split at hskip
    · cases hskip
    · rename_i hpos
      cases hskip
      exact ⟨h, hstop h hpos⟩
  | succ fuel ih =>
    rw [skipLength] at hskip
    split at hskip
    · obtain ⟨hnet, hs, hleft, body, hbody, hwhole⟩ := h
      have hplain := internalRead_plain hs (min 4096 s.data.leftRead.toNat) hnet
      generalize s.internalRead (min 4096 s.data.leftRead.toNat) net = r at hplain hskip
      obtain ⟨⟨data', buffer', dechunk'⟩, net1, answer⟩ := r
      obtain ⟨hdechunk, hdata, hnet', hanswer⟩ := hplain
      dsimp only at hdechunk hdata hnet' hanswer hskip
      subst hdechunk hdata
      cases answer with
      | none => cases hskip
      | some got =>
        obtain ⟨hlength, hbytes⟩ := hanswer
        have hnat := hlength.trans (Nat.min_le_right _ _)
        dsimp only at hskip
        split at hskip
        · cases hskip
        · refine ih ⟨hnet', rfl, ?_, body ++ got, ?_, ?_⟩ hskip
          · dsimp only
            omega
          · dsimp only
            rw [List.length_append]
            omega
          · rw [hwhole, hbytes, List.append_assoc]
            rfl
    · rename_i hpos
      cases hskip
      exact ⟨h, hstop h hpos⟩

/-! ## Request handlers -/

/-- The only flag that a call of `read` changes is `RQ_HAVE_EXPECT`. -/
theorem read_head (len : ℕ) (s : KHttpSink) (net : List Bytes) :
    (s.read len net).1.data.toKRequestHead =
      { s.data.toKRequestHead with haveExpect := false } := by
  have hdata : ∀ (s : KHttpSink) (len : ℕ), (s.internalRead len net).1.data = s.data := by
    intro s len
    unfold internalRead
    split
    · rfl
    · split <;> rfl
  unfold read
  dsimp only
  split
  · rw [hdata]
  · dsimp only
    rw [hdata]

/-- What the steps of a handler keep while it has not upgraded the connection. -/
theorem newRequest_rule {I : KHttpSink → List Bytes → Prop} (steps : List HandlerStep)
    (hread : ∀ len s net, HandlerStep.read len ∈ steps → s.data.connectionUpgrade =
      false → I s net →
      I (s.read len net).1 (s.read len net).2.1)
    (hclose : ∀ s net, I s net → I { s with data := { s.data with connectionClose := true } } net)
    {s : KHttpSink} {net : List Bytes} (h : s.data.connectionUpgrade = true ∨ I s net) :
    (s.newRequest steps net).1.data.connectionUpgrade = true ∨
      I (s.newRequest steps net).1 (s.newRequest steps net).2 := by
  induction steps generalizing s net with
  | nil => exact h
  | cons step steps ih =>
    rw [newRequest]
    refine ih (fun len s net hmem => hread len s net (List.mem_cons_of_mem _ hmem)) ?_
    cases step with
    | read len =>
      dsimp only [handle]
      rw [read_head]
      cases hflag : s.data.connectionUpgrade with
      | true => exact .inl rfl
      | false =>
        rw [hflag] at h
        exact .inr (hread len s net List.mem_cons_self hflag (h.resolve_left Bool.false_ne_true))
    | closeConnection => exact h.imp id (hclose s net)
    | upgradeConnection => exact .inl rfl

/-- After a call of `read` no answer to `Expect` is missing. -/
theorem newRequest_answered {steps : List HandlerStep} {s : KHttpSink} (net : List Bytes)
    (h : s.data.haveExpect = true → ∃ len, HandlerStep.read len ∈ steps) :
    (s.newRequest steps net).1.data.haveExpect = false := by
  induction steps generalizing s net with
  | nil =>
    refine Bool.eq_false_iff.mpr fun hexpect => ?_
    obtain ⟨len, hmem⟩ := h hexpect
    cases hmem
  | cons step steps ih =>
    rw [newRequest]
    refine ih _ ?_
    cases step with
    | read len =>
      intro hexpect
      dsimp only [handle] at hexpect
      rw [read_head] at hexpect
      cases hexpect
    | closeConnection | upgradeConnection =>
      intro hexpect
      obtain ⟨len, hmem⟩ := h hexpect
      rcases List.mem_cons.mp hmem with hmem | hmem
      · cases hmem
      · exact ⟨len, hmem⟩

/-- A handler that does not read leaves the bytes of the connection and the flag. -/
theorem newRequest_unread {steps : List HandlerStep} (s : KHttpSink) (net : List Bytes)
    (h : ∀ len, HandlerStep.read len ∉ steps) :
    (s.newRequest steps net).1.unread (s.newRequest steps net).2 = s.unread net ∧
      (s.newRequest steps net).1.data.haveExpect = s.data.haveExpect := by
  induction steps generalizing s net with
  | nil => exact ⟨rfl, rfl⟩
  | cons step steps ih =>
    rw [newRequest]
    have hrest : ∀ len, HandlerStep.read len ∉ steps :=
      fun len hmem => h len (List.mem_cons_of_mem _ hmem)
    cases step with
    | read len => exact absurd List.mem_cons_self (h len)
    | closeConnection | upgradeConnection =>
      obtain ⟨hunread, hexpect⟩ := ih _ _ hrest
      refine ⟨hunread.trans ?_, hexpect.trans ?_⟩
      · rfl
      · rfl

/-! ## Reads that return nothing -/

end KHttpSink

/-- A call of the decoder leaves reads that were still to come. -/
theorem KDechunkContext.read_net (length : ℕ) (ctx : KDechunkContext) {net : List Bytes}
    (hnet : [] ∉ net) : [] ∉ (ctx.read length net).2.1 := by
  induction net generalizing ctx with
  | nil =>
    rw [read]
    split <;> exact List.not_mem_nil
  | cons got net ih =>
    have hnet' : [] ∉ net := fun hmem => hnet (List.mem_cons_of_mem _ hmem)
    rw [read]
    split
    · exact hnet
    · exact hnet
    · split
      · exact hnet'
      · exact ih _ hnet'
    · exact hnet

namespace KHttpSink

/-- A call of `internal_read` leaves reads that were still to come. -/
theorem internalRead_net (len : ℕ) {s : KHttpSink} {net : List Bytes} (hnet : [] ∉ net) :
    [] ∉ (s.internalRead len net).2.1 := by
  cases hs : s.dechunk with
  | none => exact (internalRead_plain hs len hnet).2.2.1
  | some ctx =>
    unfold internalRead
    rw [hs]
    exact KDechunkContext.read_net len ctx hnet

/-- A call of `read` leaves reads that were still to come. -/
theorem read_net (len : ℕ) {s : KHttpSink} {net : List Bytes} (hnet : [] ∉ net) :
    [] ∉ (s.read len net).2.1 := by
  unfold read
  dsimp only
  split
  · exact internalRead_net _ hnet
  · exact internalRead_net _ hnet

/-- A handler leaves reads that were still to come. -/
theorem newRequest_net {steps : List HandlerStep} {s : KHttpSink} {net : List Bytes}
    (hnet : [] ∉ net) : [] ∉ (s.newRequest steps net).2 := by
  induction steps generalizing s net with
  | nil => exact hnet
  | cons step steps ih =>
    rw [newRequest]
    apply ih
    cases step with
    | read len => exact read_net len hnet
    | closeConnection | upgradeConnection => exact hnet

/-- The loop over a chunked body leaves reads that were still to come. -/
theorem skipChunked_net {fuel : ℕ} {ctx ctx' : KDechunkContext} {net net' : List Bytes}
    (hnet : [] ∉ net) (h : skipChunked fuel ctx net = some (ctx', net')) : [] ∉ net' := by
  induction fuel generalizing ctx net with
  | zero => cases h
  | succ fuel ih =>
    have hread := KDechunkContext.read_net 4096 ctx hnet
    rw [skipChunked] at h
    split at h
    · cases h
    · split at h
      · cases h
        exact hread
      · exact ih hread h

/-- The loop over a body with a length leaves reads that were still to come. -/
theorem skipLength_net {fuel : ℕ} {s s' : KHttpSink} {net net' : List Bytes} (hnet : [] ∉ net)
    (h : skipLength fuel s net = some (s', net')) : [] ∉ net' := by
  induction fuel generalizing s net with
  | zero =>
    rw [skipLength] at h
    split at h
    · cases h
    · cases h
      exact hnet
  | succ fuel ih =>
    rw [skipLength] at h
    split at h
    · have hread := internalRead_net (min 4096 s.data.leftRead.toNat) (s := s) hnet
      dsimp only at h
      split at h
      · cases h
      · split at h
        · cases h
        · exact ih hread h
    · cases h
      exact hnet

/-- `skip_post` leaves reads that were still to come. -/
theorem skipPost_net {s s' : KHttpSink} {net net' : List Bytes} (hnet : [] ∉ net)
    (h : s.skipPost net = some (s', net')) : [] ∉ net' := by
  unfold skipPost at h
  split at h
  · obtain ⟨r, hskip, heq⟩ := Option.map_eq_some_iff.mp h
    cases heq
    exact skipChunked_net hnet hskip
  · exact skipLength_net hnet h

/-! ## The next request -/

/-- What `start_pipe_line` did where it returned true. -/
theorem startPipeLine_some {s s1 : KHttpSink} {net net1 : List Bytes}
    (h : s.startPipeLine net = some (s1, net1)) :
    s.data.connectionUpgrade = false ∧ ∃ s0 : KHttpSink, s1.unread net1 = s0.unread net1 ∧
      if s.data.leftRead ≠ 0 ∧ s.data.haveExpect = false then s.skipPost net = some (s0, net1)
      else s0 = s ∧ net1 = net := by
  unfold startPipeLine at h
  split at h
  · cases h
  · rename_i hkeep
    obtain ⟨⟨s0, net0⟩, hskip, heq⟩ := Option.map_eq_some_iff.mp h
    cases heq
    refine ⟨?_, s0, rfl, ?_⟩
    · cases hflag : s.data.connectionUpgrade with
      | false => rfl
      | true =>
        rw [hflag, Bool.or_true, Bool.true_or] at hkeep
        exact absurd rfl hkeep
    · by_cases hcond : s.data.leftRead ≠ 0 ∧ s.data.haveExpect = false
      · rw [if_pos hcond] at hskip ⊢
        exact hskip
      · rw [if_neg hcond] at hskip ⊢
        cases hskip
        exact ⟨rfl, rfl⟩

/-- `start_pipe_line` leaves reads that were still to come. -/
theorem startPipeLine_net {s s1 : KHttpSink} {net net1 : List Bytes} (hnet : [] ∉ net)
    (h : s.startPipeLine net = some (s1, net1)) : [] ∉ net1 := by
  obtain ⟨-, s0, -, hskip⟩ := startPipeLine_some h
  split at hskip
  · exact skipPost_net hnet hskip
  · rw [hskip.2]
    exact hnet

/-- The next request is parsed with the bytes that were left. -/
theorem nextRequest_unread {s s2 : KHttpSink} {net net2 : List Bytes} (hnet : [] ∉ net)
    (h : s.nextRequest net = some (s2, net2)) :
    s2.unread net2 = s.unread net ∧ s2.dechunk = none ∧ [] ∉ net2 := by
  unfold nextRequest at h
  split at h
  · cases h
    exact ⟨rfl, rfl, hnet⟩
  · rename_i hreceived
    have hempty : s.received = [] := not_not.mp hreceived
    cases net with
    | nil => cases h
    | cons got net =>
      have hgot : got ≠ [] := fun hgot => hnet (hgot ▸ List.mem_cons_self)
      dsimp only at h
      rw [if_neg hgot] at h
      cases h
      refine ⟨?_, rfl, fun hmem => hnet (List.mem_cons_of_mem _ hmem)⟩
      unfold unread
      rw [hempty, List.flatten_cons, List.nil_append]
      rfl

/-- Where `start_pipe_line` returned true behind a chunked body, it stopped right behind it. -/
theorem startPipeLine_chunked {tail : Bytes} {s s1 : KHttpSink} {net net1 : List Bytes}
    (h : ChunkedLeft tail s net) (hexpect : s.data.haveExpect = false)
    (hpipe : s.startPipeLine net = some (s1, net1)) : s1.unread net1 = tail := by
  obtain ⟨-, s0, hunread, hskip⟩ := startPipeLine_some hpipe
  obtain ⟨hnet, ctx, hctx, hleft⟩ := h
  rw [hunread]
  rcases hleft with ⟨hleft, st, payload, pieces, hfits, hword, hpending⟩ | ⟨hleft, -, htail⟩
  · have hcond : s.data.leftRead ≠ 0 ∧ s.data.haveExpect = false := by
      refine ⟨?_, hexpect⟩
      rw [hleft]
      decide
    rw [if_pos hcond, skipPost, hctx] at hskip
    obtain ⟨⟨ctx', net'⟩, hloop, heq⟩ := Option.map_eq_some_iff.mp hskip
    cases heq
    exact (skipChunked_pending hfits hword hnet hpending hloop).2
  · rw [if_neg fun hcond => hcond.1 hleft] at hskip
    obtain ⟨rfl, rfl⟩ := hskip
    unfold unread received
    rw [hctx]
    exact htail

/-- Where `start_pipe_line` returned true behind a body with a length, it stopped right behind it.
-/
theorem startPipeLine_length {whole : Bytes} {n : ℤ} {s s1 : KHttpSink} {net net1 : List Bytes}
    (h : LengthLeft whole n s net) (hexpect : s.data.haveExpect = false)
    (hpipe : s.startPipeLine net = some (s1, net1)) :
    ∃ body : Bytes, (body.length : ℤ) = n ∧ whole = body ++ s1.unread net1 := by
  obtain ⟨-, s0, hunread, hskip⟩ := startPipeLine_some hpipe
  have hend : LengthLeft whole n s0 net1 ∧ s0.data.leftRead = 0 := by
    by_cases hleft : s.data.leftRead = 0
    · rw [if_neg fun hcond => hcond.1 hleft] at hskip
      obtain ⟨rfl, rfl⟩ := hskip
      exact ⟨h, hleft⟩
    · rw [if_pos ⟨hleft, hexpect⟩, skipPost, h.2.1] at hskip
      exact skipLength_lengthLeft h hskip
  obtain ⟨⟨-, -, -, body, hbody, hwhole⟩, hzero⟩ := hend
  rw [hzero, add_zero] at hbody
  exact ⟨body, hbody, by rw [hunread, hwhole]⟩

end KHttpSink

open KHttpSink

/-! ## The loop -/

/-- What an exchange says where `start_pipe_line` returned true: the bytes that are left begin
behind the body, or they are all where `Expect` is unanswered. -/
def Exchange.Framed (e : Exchange) : Prop :=
  (e.OneFraming → e.HasRoom → ∀ rest, e.piped = some rest →
    (e.Answered → e.BodyEnds rest) ∧ (¬e.Answered → rest = e.unread)) ∧
  ∀ rest, e.next = some rest → e.piped = some rest

/-- The bytes that are left behind one request. -/
theorem piped_framed {s s1 : KHttpSink} {net net1 : List Bytes} {steps : List HandlerStep}
    (hbody : s.AtBody) (hnet : [] ∉ net)
    (hpipe : (s.newRequest steps net).1.startPipeLine (s.newRequest steps net).2 = some (s1, net1))
    {next : Option Bytes} (hnext : ∀ rest, next = some rest → s1.unread net1 = rest) :
    (⟨s.data, s.unread net, steps, some (s1.unread net1), next⟩ : Exchange).Framed := by
  refine ⟨?_, fun rest h => congrArg some (hnext rest h)⟩
  intro hframing hroom rest hrest
  cases hrest
  have hupgrade := (startPipeLine_some hpipe).1
  refine ⟨fun hanswered => ?_, fun hanswered => ?_⟩
  · have hexpect := newRequest_answered net hanswered
    unfold Exchange.OneFraming at hframing
    unfold Exchange.BodyEnds
    dsimp only at hframing ⊢
    by_cases hchunked : s.data.inputChunked = true
    · rw [if_pos hchunked] at hframing ⊢
      intro b tail hunread
      have hctx : s.dechunk = some (.init s.buffer) := hbody.trans (if_pos hchunked)
      have hinput : (KDechunkContext.init s.buffer).buffer ++ net.flatten = b.encode ++ tail := by
        rw [← hunread, unread, received, hctx]
      have hpending := b.pending tail
      rw [← hinput] at hpending
      have hstart : ChunkState.start.Fits := trivial
      have hleft : ChunkedLeft tail s net :=
        ⟨hnet, _, hctx, .inl ⟨hframing, .start, _, _, hstart, rfl, hpending⟩⟩
      have hrun := newRequest_rule (I := ChunkedLeft tail) steps
        (fun len s net hmem hflag h => read_chunkedLeft (hroom hchunked len hmem) hflag h)
        (fun s net h => h) (.inr hleft)
      rw [hupgrade] at hrun
      exact startPipeLine_chunked (hrun.resolve_left Bool.false_ne_true) hexpect hpipe
    · rw [if_neg hchunked] at hframing ⊢
      have hctx : s.dechunk = none := hbody.trans (if_neg hchunked)
      have hleft : LengthLeft (s.unread net) s.data.leftRead s net :=
        ⟨hnet, hctx, hframing, [], by rw [List.length_nil, Nat.cast_zero, zero_add], rfl⟩
      have hrun := newRequest_rule (I := LengthLeft (s.unread net) s.data.leftRead) steps
        (fun len s net _ hflag h => read_lengthLeft len hflag h) (fun s net h => h) (.inr hleft)
      rw [hupgrade] at hrun
      exact startPipeLine_length (hrun.resolve_left Bool.false_ne_true) hexpect hpipe
  · unfold Exchange.Answered at hanswered
    rw [Classical.not_imp, not_exists] at hanswered
    obtain ⟨hexpect, hnone⟩ := hanswered
    obtain ⟨hunread, hflag⟩ := newRequest_unread s net hnone
    obtain ⟨-, s0, hs0, hskip⟩ := startPipeLine_some hpipe
    dsimp only at hexpect ⊢
    have hcond : ¬((s.newRequest steps net).1.data.leftRead ≠ 0 ∧
        (s.newRequest steps net).1.data.haveExpect = false) := by
      rintro ⟨-, hfalse⟩
      rw [hflag, hexpect] at hfalse
      cases hfalse
    rw [if_neg hcond] at hskip
    rw [hs0, hskip.1, hskip.2, hunread]

/-- Every request of the loop. -/
theorem serve_framed {env : HeaderEnv} {handlers : List (List HandlerStep)} {s : KHttpSink}
    {net : List Bytes} (hs : s.dechunk = none) (hnet : [] ∉ net) :
    ∀ e ∈ serve env handlers s net, e.Framed := by
  induction handlers generalizing s net with
  | nil => exact fun e he => absurd he List.not_mem_nil
  | cons steps handlers ih =>
    intro e he
    rw [serve] at he
    split at he
    · cases he
    · rename_i s' net' hheader
      obtain ⟨hbody, hnet'⟩ := readHeader_atBody hs hnet hheader
      dsimp only at he
      split at he
      · rw [List.mem_singleton.mp he]
        exact ⟨fun _ _ => nofun, nofun⟩
      · rename_i s1 net1 hpipe
        have hnet1 := startPipeLine_net (newRequest_net hnet') hpipe
        split at he
        · rw [List.mem_singleton.mp he]
          exact piped_framed hbody hnet' hpipe nofun
        · rename_i s2 net2 hnext
          obtain ⟨hunread, hs2, hnet2⟩ := nextRequest_unread hnet1 hnext
          rcases List.mem_cons.mp he with rfl | he
          · refine piped_framed hbody hnet' hpipe ?_
            intro rest h
            cases h
            exact hunread.symm
          · exact ih hs2 hnet2 e he

/-- A server without HTTP/2 that accepts every request line and host. -/
def plainEnv : HeaderEnv where
  parser := acceptingParser
  h2 := false
  late := fun _ _ => false
  beyond := fun _ _ => 0

/-- A request with `Expect: 100-continue`, with its body right behind it. -/
def expectRequest : Bytes :=
  kglString "POST / HTTP/1.1\r\nExpect: 100-continue\r\nContent-Length: 5\r\n\r\nhello"

end Khttpd
