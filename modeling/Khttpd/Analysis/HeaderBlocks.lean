import Khttpd.Analysis.FrameStream
import Khttpd.Analysis.HeaderPool

/-!
# Header blocks end

A header block starts when `state_headers` takes a HEADERS frame for the parser's stream, and ends
in `state_header_complete`, which passes the stream to `on_header_success`. Blocks follow each
other, the stream does not change within a block, and a block whose last frame was received has
ended.
-/

set_option autoImplicit false

namespace Khttpd

/-- What happens to a header block: it starts, or ends, with a stream of the parser. -/
inductive BlockMark
  | opened (stream : Option CtxId)
  | ended (stream : Option CtxId)
  deriving DecidableEq, Repr

/-- Every block that started has ended, with the same stream, before the next; the latest first. -/
inductive BlocksEnded : List BlockMark → Prop
  | nil : BlocksEnded []
  | block (stream : Option CtxId) {l : List BlockMark} (h : BlocksEnded l) :
      BlocksEnded (.ended stream :: .opened stream :: l)

namespace KHttp2

/-- What a call does to a header block. -/
def blockMark (codes : HuffDecodeCodes) (call : Handler × KHttp2 × Bytes) : Option BlockMark :=
  match call.1 with
  | .stateHeaders =>
    let r := exec codes call.1 call.2.1 call.2.2
    if r.2.next = some .stateHeaderBlock then some (.opened r.1.state.stream) else none
  | .stateHeaderComplete =>
    if call.2.1.state.length = 0 ∧ hasFlag call.2.1.state.flags endHeadersFlag then
      some (.ended call.2.1.state.stream)
    else none
  | _ => none

/-- The blocks so far, when a handler is called. -/
def BlocksAt (h : Handler) (s : KHttp2) (l : List BlockMark) : Prop :=
  if h.inBlock then ∃ l', l = .opened s.state.stream :: l' ∧ BlocksEnded l' else BlocksEnded l

theorem blocksAt_of_stream {h : Handler} {s t : KHttp2} {l : List BlockMark}
    (hstream : t.state.stream = s.state.stream) (hs : BlocksAt h s l) : BlocksAt h t l := by
  unfold BlocksAt at hs ⊢
  rw [hstream]
  exact hs

/-- A handler within a block that does not end it. -/
theorem blocksAt_stays {h : Handler} {s : KHttp2} {l : List BlockMark} {r : KHttp2 × Ret}
    (hs : BlocksAt h s l) (hin : InBlock h) (hr : Stays InBlock s r) :
    ∀ h' ∈ r.2.next, BlocksAt h' r.1 l := by
  intro h' hh'
  obtain ⟨hin', hg⟩ := hr h' hh'
  unfold BlocksAt at hs ⊢
  rw [if_pos hin] at hs
  rw [if_pos hin', hg.stream]
  exact hs

theorem blocksAt_stateHeaderComplete (codes : HuffDecodeCodes) {s : KHttp2} {p : Bytes}
    {l : List BlockMark} (hs : BlocksAt .stateHeaderComplete s l) :
    ∀ h' ∈ (s.stateHeaderComplete p).2.next, BlocksAt h' (s.stateHeaderComplete p).1
      ((blockMark codes (.stateHeaderComplete, s, p)).toList ++ l) := by
  intro h' hh'
  have hmark : blockMark codes (.stateHeaderComplete, s, p) =
      if s.state.length = 0 ∧ hasFlag s.state.flags endHeadersFlag then
        some (.ended s.state.stream) else none := rfl
  by_cases hlength : s.state.length = 0
  · by_cases hend : hasFlag s.state.flags endHeadersFlag = true
    · rw [hmark, if_pos ⟨hlength, hend⟩]
      obtain ⟨l', rfl, hl'⟩ := hs
      have hout : h'.inBlock = false := by
        unfold stateHeaderComplete at hh'
        rw [if_neg (not_not.mpr hlength), if_neg (by rw [hend]; decide)] at hh'
        extract_lets s1 at hh'
        exact (ends_endFrame _ p h' hh').1.1
      unfold BlocksAt
      rw [if_neg (by rw [hout]; decide)]
      exact .block s.state.stream hl'
    · have hnone : (if s.state.length = 0 ∧ hasFlag s.state.flags endHeadersFlag then
          some (BlockMark.ended s.state.stream) else none) = none := if_neg fun h => hend h.2
      have hcont : s.stateHeaderComplete p = s.handleContinuation p .stateHeaderComplete := by
        unfold stateHeaderComplete
        rw [if_neg (not_not.mpr hlength), if_pos (by simpa using hend)]
      rw [hmark, hnone]
      rw [hcont] at hh' ⊢
      exact blocksAt_stays hs rfl (s.stays_handleContinuation p rfl) h' hh'
  · have hnone : (if s.state.length = 0 ∧ hasFlag s.state.flags endHeadersFlag then
        some (BlockMark.ended s.state.stream) else none) = none := if_neg fun h => hlength h.1
    have hpos : s.stateHeaderComplete p = (s, .pos .stateHeaderBlock p) := if_pos hlength
    rw [hmark, hnone]
    rw [hpos] at hh' ⊢
    exact blocksAt_stays hs rfl (Stays.pos rfl (.refl s)) h' hh'

/-- What a call does to the blocks. -/
theorem blocksAt_exec (codes : HuffDecodeCodes) {h : Handler} {s : KHttp2} (p : Bytes)
    {l : List BlockMark} (hs : BlocksAt h s l) :
    ∀ h' ∈ (exec codes h s p).2.next,
      BlocksAt h' (exec codes h s p).1 ((blockMark codes (h, s, p)).toList ++ l) := by
  have hforward := (forward_follows codes h s p).next
  cases h with
  | stateHeaderBlock => exact blocksAt_stays hs rfl (s.stays_stateHeaderBlock p)
  | stateProcessHeader => exact blocksAt_stays hs rfl (s.stays_stateProcessHeader p)
  | stateFieldLen => exact blocksAt_stays hs rfl (s.stays_stateFieldLen p)
  | stateFieldHuff => exact blocksAt_stays hs rfl (s.stays_stateFieldHuff codes p)
  | stateFieldRaw => exact blocksAt_stays hs rfl (s.stays_stateFieldRaw p)
  | stateFieldSkip => exact blocksAt_stays hs rfl (s.stays_stateFieldSkip p)
  | stateHeaderComplete => exact blocksAt_stateHeaderComplete codes hs
  | stateHeaders =>
    intro h' hh'
    have hmark : blockMark codes (.stateHeaders, s, p) =
        if (s.stateHeaders p).2.next = some .stateHeaderBlock then
          some (.opened (s.stateHeaders p).1.state.stream) else none := rfl
    have hnext : (s.stateHeaders p).2.next = some h' := hh'
    have hl : BlocksEnded l := hs
    rw [hmark, hnext]
    by_cases hblock : h' = .stateHeaderBlock
    · subst hblock
      rw [if_pos rfl]
      exact ⟨l, rfl, hl⟩
    · have hout : h'.inBlock = false := by
        rcases hforward h' hh' with hmem | rfl
        · rcases List.mem_pair.mp hmem with rfl | rfl
          · exact absurd rfl hblock
          · rfl
        · rfl
      rw [if_neg fun heq => hblock (Option.some.inj heq)]
      unfold BlocksAt
      rw [if_neg (by rw [hout]; decide)]
      exact hl
  | statePreface | statePrefaceEnd | stateHead | stateData | stateReadData | statePriority
  | stateRstStream | stateSettings | stateSettingsParams | statePushPromise | statePing
  | stateGoaway | stateWindowUpdate | stateContinuation | stateAltsvc | stateSkip
  | stateComplete =>
    intro h' hh'
    have hl : BlocksEnded l := hs
    have hout : h'.inBlock = false := by
      rcases hforward h' hh' with hmem | rfl
      · cases h' <;> first | rfl | exact absurd hmem (by decide)
      · rfl
    unfold BlocksAt
    rw [if_neg (by rw [hout]; decide)]
    exact hl

/-! ## Runs -/

/-- The blocks of a connection between two events. -/
def BlocksOf (s : KHttp2) (l : List BlockMark) : Prop :=
  s.readProcessing = true → s.deleted = false → BlocksAt s.state.handler s l

theorem blocksOf_carries {s t : KHttp2} {l : List BlockMark}
    (h : Carries Kind.betweenReads s t) (hs : BlocksOf s l) : BlocksOf t l := by
  intro hread hlive
  obtain ⟨hstate, hread', hlive'⟩ := state_of_carries h hread hlive
  rw [hstate]
  exact blocksAt_of_stream (congrArg ParserState.stream hstate) (hs hread' hlive')

/-- A connection keeps to its blocks. -/
theorem noted_blocksOf (codes : HuffDecodeCodes) :
    Noted codes (blockMark codes) (fun _ _ _ => True) fun _ l s => BlocksOf s l where
  carries h hs := blocksOf_carries h hs
  read := by
    intro x l s chunk hchunk hread hlive hs hcalls
    let start := ({ s with pinged := false } : KHttp2).setState fun st => { st with buffer := [] }
    have hloop := @Resumable.run_noted _ _ _ _ (exec codes) measure (blockMark codes)
      (fun h p t l => BlocksAt h t l) (fun _ _ _ => True)
      (fun l r => (r.2 = none → r.1.readProcessing = false) ∧
        ∀ h' rest, r.2 = some (h', rest) → BlocksAt h' r.1 l)
      (fun h t p h' rest hout => measure_exec codes hout)
      (fun h t p l h' rest ht _ hout => blocksAt_exec codes p ht h' hout.next)
      (fun h t p l h' rest ht _ hout => by
        refine ⟨fun hnone => (by cases hnone), fun h'' rest' heq => ?_⟩
        cases heq
        exact blocksAt_exec codes p ht h' hout.next)
      (fun h t p l ht _ hout => by
        refine ⟨fun _ => ?_, fun h'' rest' heq => by cases heq⟩
        exact (forward_follows codes h t p).stop (by rw [hout]; rfl))
      (measure s.state.handler (s.state.buffer ++ chunk) + 1) s.state.handler start
      (s.state.buffer ++ chunk) l (Nat.lt_succ_self _) (hs hread hlive) hcalls
    refine onReadResult_of_run (Q := fun t => BlocksOf t _) (fun h ht => ?_) rfl
      (fun hnone => ?_) fun h' kept hsome => ?_
    · exact blocksOf_carries h ht
    · exact fun hreading => absurd (hreading.symm.trans (hloop.1 hnone)) (by decide)
    · exact fun _ _ => blocksAt_of_stream rfl (hloop.2 h' kept hsome)

/-- A new connection has read no block. -/
theorem Starts.blocksOf {s : KHttp2} (h : Starts s) : BlocksOf s [] := by
  intro _ _
  obtain ⟨handler, hmem, hstate⟩ := h.state
  have hhandler : s.state.handler = handler := congrArg ParserState.handler hstate
  have hout : handler.inBlock = false := by
    cases handler <;> first | rfl | exact absurd hmem (by decide)
  unfold BlocksAt
  rw [hhandler, if_neg (by rw [hout]; decide)]
  exact .nil

/-- Blocks follow each other and end with the stream that they started with; and when the bytes that
a connection received end between two frames, with no block left to a CONTINUATION frame, every
block that started has ended. -/
structure EndsBlocks (d : FramePlace) (marks : List BlockMark) (s : KHttp2) : Prop where
  inTurn : s.readProcessing = true → s.deleted = false → BlocksAt s.state.handler s marks
  between : s.readProcessing = true → s.deleted = false → d.Between → d.seen ≠ [] →
    blockOpen d.seen = false → BlocksEnded marks

end KHttp2

end Khttpd
