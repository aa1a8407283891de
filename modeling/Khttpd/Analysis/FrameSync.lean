import Khttpd.Lib.RecordStream
import Khttpd.Analysis.ParserBounds

/-!
# The parser and the frames of the stream

The bytes that a connection receives are a stream of frames, whatever the parser makes of them.
The parser is in step when the place that it has reached in its frame is the place of the stream.
Every handler keeps it in step but for one frame that it loses the padding of, and it waits between
two frames in `state_head`, but for one way of ending a header block.
-/

set_option autoImplicit false

namespace Khttpd

/-! ## Frames -/

/-- The header of a frame. -/
structure FrameHead where
  sid : ℕ
  length : ℕ
  type : ℕ
  flags : UInt8
  deriving DecidableEq, Repr

/-- The header that the bytes at `p` are. -/
def parseFrameHead (p : Bytes) : FrameHead where
  sid := parseSid (p.drop 5)
  length := parseLength (parseUint32 p)
  type := parseType (parseUint32 p)
  flags := p.getD 4 0

/-- Frames as records of a byte stream. -/
def frameFormat : RecordStream.Format FrameHead Byte :=
  ⟨frameHeaderSize, parseFrameHead, FrameHead.length⟩

/-- A place in a stream of frames. -/
abbrev FramePlace : Type := RecordStream.Place FrameHead Byte

/-- The last of the frames leaves its header block to the next. -/
def blockOpen : List FrameHead → Bool
  | [] => false
  | a :: _ => (a.type == headersFrame || a.type == continuationFrame) &&
      !hasFlag a.flags endHeadersFlag

theorem blockOpen_cons (a : FrameHead) (l : List FrameHead) :
    blockOpen (a :: l) = ((a.type == headersFrame || a.type == continuationFrame) &&
      !hasFlag a.flags endHeadersFlag) := rfl

theorem getD_take {p : Bytes} {i n : ℕ} (h : i < n) : (p.take n).getD i 0 = p.getD i 0 := by
  rw [List.getD_eq_getElem?_getD, List.getD_eq_getElem?_getD, List.getElem?_take_of_lt h]

theorem parseUint32_take {p : Bytes} {n : ℕ} (h : 4 ≤ n) :
    parseUint32 (p.take n) = parseUint32 p := by
  unfold parseUint32
  rw [getD_take (by omega), getD_take (by omega), getD_take (by omega), getD_take (by omega)]

theorem parseFrameHead_length (p : Bytes) :
    (parseFrameHead p).length = parseLength (parseUint32 p) := rfl

theorem parseFrameHead_type (p : Bytes) :
    (parseFrameHead p).type = parseType (parseUint32 p) := rfl

theorem parseFrameHead_flags (p : Bytes) : (parseFrameHead p).flags = p.getD 4 0 := rfl

/-- A header says nothing about the bytes behind it. -/
theorem parseFrameHead_take (p : Bytes) :
    parseFrameHead (p.take frameHeaderSize) = parseFrameHead p := by
  unfold parseFrameHead frameHeaderSize parseSid
  rw [List.drop_take, parseUint32_take (by decide), parseUint32_take (by decide),
    getD_take (by decide)]

theorem hasFlag_or {flags mask : UInt8} (h : hasFlag flags mask = false) (more : UInt8) :
    hasFlag (flags ||| more) mask = hasFlag more mask := by
  have hnone : flags &&& mask = 0 := by simpa [hasFlag] using h
  have hsplit : (flags ||| more) &&& mask = flags &&& mask ||| more &&& mask := by
    apply UInt8.toBitVec_inj.mp
    simp only [UInt8.toBitVec_and, UInt8.toBitVec_or, BitVec.and_or_distrib_right]
  unfold hasFlag
  rw [hsplit, hnone, UInt8.zero_or]

namespace KHttp2

/-! ## The headers that the parser takes -/

/-- The header that `handle_continuation` takes out of its input, if it is there. -/
def continuationTaken (s : KHttp2) (p : Bytes) : Option FrameHead :=
  let start := s.state.length + s.paddingSkip p.length
  if p.length < start + frameHeaderSize then none else some (parseFrameHead (p.drop start))

/-- What a `state_field_*` handler gives to `handle_continuation`. -/
def fieldContinues (s : KHttp2) (p : Bytes) : Option (KHttp2 × Bytes) :=
  let size := s.fieldSize p
  if s.state.fieldRest ≠ size ∧ s.state.length = size ∧ !hasFlag s.state.flags endHeadersFlag then
    some (s.fieldTake size, p.drop size)
  else none

/-- What a handler gives to `handle_continuation`, if it calls it. -/
def continuationInput (h : Handler) (s : KHttp2) (p : Bytes) : Option (KHttp2 × Bytes) :=
  match h with
  | .stateHeaderBlock => if p ≠ [] ∧ s.intContinues then some (s, p) else none
  | .stateHeaderComplete =>
    if s.state.length = 0 ∧ !hasFlag s.state.flags endHeadersFlag then some (s, p) else none
  | .stateFieldLen => if s.intContinues then some (s, p) else none
  | .stateFieldHuff | .stateFieldRaw | .stateFieldSkip => s.fieldContinues p
  | _ => none

/-- The frame header that a call takes, if it does not close the connection before it. -/
def headTaken (h : Handler) (s : KHttp2) (p : Bytes) : Option FrameHead :=
  if h = .stateHead then
    if p.length < frameHeaderSize then none else some (parseFrameHead p)
  else (continuationInput h s p).bind fun r => r.1.continuationTaken r.2

/-! ## What goes wrong -/

/-- The stream that a HEADERS frame depends on. -/
def headersDepend (s : KHttp2) (p : Bytes) : ℕ :=
  if hasFlag s.state.flags priorityFlag then
    parseSid (p.drop (if hasFlag s.state.flags paddedFlag then 1 else 0))
  else 0

/-- `state_headers` skips the block of the frame: no stream takes it. -/
def skipsHeaders (s : KHttp2) (depend : ℕ) : Bool :=
  let accepts := s.clientModel || s.state.sid % 2 ≠ 0 && s.lastPeerSid ≤ s.state.sid &&
    !s.selfGoaway && depend ≠ s.state.sid
  match s.getNode s.state.sid with
  | none => s.clientModel
  | some ⟨_, c⟩ => accepts && (!(s.ctx c).isAvailable || (s.ctx c).inClosed)

/-- `state_headers` skips a frame with padding. -/
structure SkipsPadded (s : KHttp2) (p : Bytes) : Prop where
  padded : hasFlag s.state.flags paddedFlag = true
  size : s.headersSize < s.state.length ∧ s.headersSize ≤ p.length
  padding : (p.getD 0 0).toNat ≠ 0 ∧ (p.getD 0 0).toNat ≤ s.state.length - s.headersSize
  skips : s.skipsHeaders (s.headersDepend p) = true

instance (s : KHttp2) (p : Bytes) : Decidable (s.SkipsPadded p) :=
  decidable_of_iff ((hasFlag s.state.flags paddedFlag = true ∧
      (s.headersSize < s.state.length ∧ s.headersSize ≤ p.length)) ∧
    ((p.getD 0 0).toNat ≠ 0 ∧ (p.getD 0 0).toNat ≤ s.state.length - s.headersSize) ∧
      s.skipsHeaders (s.headersDepend p) = true)
    ⟨fun ⟨⟨hpad, hsize⟩, hp, hs⟩ => ⟨hpad, hsize, hp, hs⟩,
      fun h => ⟨⟨h.padded, h.size⟩, h.padding, h.skips⟩⟩

/-- `handle_continuation` ends a block of which nothing is left with an empty frame, the last bytes
of its input. -/
def EndsEmpty (s : KHttp2) (p : Bytes) : Prop :=
  s.state.length = 0 ∧ p.length = s.paddingSkip p.length + frameHeaderSize ∧
    ∃ a ∈ s.continuationTaken p, a.length = 0 ∧ a.type = continuationFrame ∧
      a.sid = s.state.sid ∧ hasFlag a.flags endHeadersFlag = true

instance (s : KHttp2) (p : Bytes) : Decidable (s.EndsEmpty p) :=
  inferInstanceAs (Decidable (_ ∧ _ ∧ ∃ a ∈ s.continuationTaken p, _ ∧ _ ∧ _ ∧ _))

/-- A call that loses the padding of a frame. -/
def LosesPadding (h : Handler) (s : KHttp2) (p : Bytes) : Prop :=
  h = .stateHeaders ∧ s.SkipsPadded p

instance (h : Handler) (s : KHttp2) (p : Bytes) : Decidable (LosesPadding h s p) :=
  inferInstanceAs (Decidable (_ ∧ _))

/-- A call that does not go on though the header block has ended. -/
def StopsEarly (h : Handler) (s : KHttp2) (p : Bytes) : Prop :=
  ∃ r ∈ continuationInput h s p, r.1.EndsEmpty r.2

instance (h : Handler) (s : KHttp2) (p : Bytes) : Decidable (StopsEarly h s p) :=
  inferInstanceAs (Decidable (∃ r ∈ continuationInput h s p, r.1.EndsEmpty r.2))

end KHttp2

/-! ## The parser in step -/

/-- The handlers of HEADERS frames. -/
def Handler.ofHeaders : Handler → Bool
  | .stateHeaders | .stateHeaderBlock | .stateProcessHeader | .stateHeaderComplete | .stateFieldLen
  | .stateFieldHuff | .stateFieldRaw | .stateFieldSkip => true
  | _ => false

/-- The handlers that know of padding behind their frame. -/
def Handler.mayPad : Handler → Bool
  | .stateReadData => true
  | h => h.ofHeaders && h != .stateHeaders

/-- The preface is still to come. -/
def Handler.inPreface : Handler → Bool
  | .statePreface | .statePrefaceEnd => true
  | _ => false

/-- What is left of the frame at hand when a handler is called. -/
def Handler.frameLeft (h : Handler) (a : AtHand) : ℕ :=
  match h with
  | .statePreface => prefaceStart.length + prefaceEnd.length
  | .statePrefaceEnd => prefaceEnd.length
  | .stateHead | .stateComplete => 0
  | _ => a.length + a.padding

/-- A call of a handler is in step: the stream is at `c` where the handler's input starts. -/
structure InStep (c : FramePlace) (h : Handler) (a : AtHand) (p : Bytes) : Prop where
  head : c.head = []
  left : c.left = h.frameLeft a
  block : h.ofHeaders = true → blockOpen c.seen = !hasFlag a.flags endHeadersFlag
  padding : h.mayPad = false → a.padding = 0
  params : h = .stateSettingsParams → a.length % 6 = 0
  more : h = .stateHeaderBlock → p = [] →
    0 < a.length + a.padding ∨ hasFlag a.flags endHeadersFlag = false
  start : h.inPreface = true → c.seen = []

/-- A parser that waits has taken all headers of the stream, `l`, and between two frames it waits in
`state_head`. -/
structure Rested (d : FramePlace) (l : List FrameHead) (h : Handler) (rest : Bytes) : Prop where
  seen : d.seen = l
  between : d.Between → l ≠ [] → blockOpen l = false → h = .stateHead ∧ rest = []

/-- A call that started at `c` keeps in step, has taken `taken`, and waits where it may. -/
structure Follows (c : FramePlace) (taken : Option FrameHead) (p : Bytes) (r : KHttp2 × Ret) :
    Prop where
  step : ∀ h ∈ r.2.next, ∃ c', InStep c' h r.1.atHand r.2.rest ∧
    frameFormat.feed c' r.2.rest = frameFormat.feed c p ∧ c'.seen = taken.toList ++ c.seen
  waits : ∀ h rest, r.2.Waits h rest →
    Rested (frameFormat.feed c p) (taken.toList ++ c.seen) h rest
  taken : taken.toList ++ c.seen <:+ (frameFormat.feed c p).seen

/-- A call that goes on. -/
theorem Follows.onward {c : FramePlace} {taken : Option FrameHead} {p rest : Bytes}
    {r : KHttp2 × Ret} {h : Handler} (hr : Follows c taken p r) (hout : r.2.GoesOn h rest) :
    ∃ c', InStep c' h r.1.atHand rest ∧ frameFormat.feed c' rest = frameFormat.feed c p ∧
      c'.seen = taken.toList ++ c.seen := by
  obtain ⟨s, out⟩ := r
  rcases hout with hout | hout
  · cases hout
    exact hr.step h rfl
  · cases hout
    exact hr.step h rfl

/-- A call that waits. -/
theorem Follows.rest {c : FramePlace} {taken : Option FrameHead} {p rest : Bytes}
    {r : KHttp2 × Ret} {h : Handler} (hr : Follows c taken p r) (hout : r.2.Waits h rest) :
    ∃ c', InStep c' h r.1.atHand rest ∧ frameFormat.feed c' rest = frameFormat.feed c p ∧
      c'.seen = taken.toList ++ c.seen ∧
        Rested (frameFormat.feed c p) (taken.toList ++ c.seen) h rest := by
  have hrested := hr.waits h rest hout
  obtain ⟨s, out⟩ := r
  rcases hout with hout | ⟨hout, -⟩
  · cases hout
    obtain ⟨c', hstep, hfeed, hseen⟩ := hr.step h rfl
    exact ⟨c', hstep, hfeed, hseen, hrested⟩
  · cases hout
    obtain ⟨c', hstep, hfeed, hseen⟩ := hr.step h rfl
    exact ⟨c', hstep, hfeed, hseen, hrested⟩

namespace Rested

variable {c d : FramePlace} {l : List FrameHead} {h : Handler} {p rest : Bytes}

/-- Within the payload of a frame. -/
theorem payload (hshort : p.length < c.left) : Rested (frameFormat.feed c p) c.seen h rest where
  seen := by rw [RecordStream.Format.feed_payload hshort.le]
  between hbetween := absurd hbetween (RecordStream.Format.not_between_feed hshort)

theorem of_open (hseen : d.seen = l) (hopen : blockOpen l = true) : Rested d l h rest where
  seen := hseen
  between _ _ hclosed := absurd (hopen.symm.trans hclosed) (by decide)

theorem of_start (hseen : d.seen = l) (hnone : l = []) : Rested d l h rest where
  seen := hseen
  between _ hne _ := absurd hnone hne

end Rested

namespace InStep

variable {c : FramePlace} {a : AtHand} {p : Bytes} {h : Handler}

/-- The frame has ended. -/
theorem complete (hhead : c.head = []) (hleft : c.left = 0) (hpadding : a.padding = 0) :
    InStep c .stateComplete a p where
  head := hhead
  left := hleft
  block hin := by cases hin
  padding _ := hpadding
  params heq := by cases heq
  more heq := by cases heq
  start hin := by cases hin

/-- The next frame is to come. -/
theorem next (hhead : c.head = []) (hleft : c.left = 0) (hpadding : a.padding = 0) :
    InStep c .stateHead a p where
  head := hhead
  left := hleft
  block hin := by cases hin
  padding _ := hpadding
  params heq := by cases heq
  more heq := by cases heq
  start hin := by cases hin

/-- The rest of a frame is to be skipped. -/
theorem skip (hhead : c.head = []) (hleft : c.left = a.length) (hpadding : a.padding = 0) :
    InStep c .stateSkip a p where
  head := hhead
  left := by
    show c.left = a.length + a.padding
    rw [hleft, hpadding, Nat.add_zero]
  block hin := by cases hin
  padding _ := hpadding
  params heq := by cases heq
  more heq := by cases heq
  start hin := by cases hin

/-- A handler of header blocks. -/
theorem inBlock (hin : h.ofHeaders = true) (hpad : h.mayPad = true) (hhead : c.head = [])
    (hleft : c.left = a.length + a.padding)
    (hblock : blockOpen c.seen = !hasFlag a.flags endHeadersFlag)
    (hmore : h = .stateHeaderBlock → p = [] →
      0 < a.length + a.padding ∨ hasFlag a.flags endHeadersFlag = false) : InStep c h a p where
  head := hhead
  left := by
    rw [hleft]
    cases h <;> first | rfl | cases hin
  block _ := hblock
  padding hnot := absurd (hpad.symm.trans hnot) (by decide)
  params heq := by
    subst heq
    cases hin
  more := hmore
  start hpre := by cases h <;> first | exact absurd hpre (by decide) | exact absurd hin (by decide)

/-- The frame behind a header. -/
theorem frame (hmem : h ∈ Handler.follows .stateHead) (hhead : c.head = [])
    (hleft : c.left = a.length) (hpadding : a.padding = 0)
    (hblock : h = .stateHeaders → blockOpen c.seen = !hasFlag a.flags endHeadersFlag) :
    InStep c h a p where
  head := hhead
  left := by
    have hall : a.length + a.padding = h.frameLeft a := by
      cases h <;> first | rfl | exact absurd hmem (by decide)
    rw [← hall, hleft, hpadding, Nat.add_zero]
  block hin := by
    cases h <;>
      first | exact hblock rfl | exact absurd hin (by decide) | exact absurd hmem (by decide)
  padding _ := hpadding
  params heq := by
    subst heq
    exact absurd hmem (by decide)
  more heq := by
    subst heq
    exact absurd hmem (by decide)
  start hpre := by
    cases h <;> first | exact absurd hpre (by decide) | exact absurd hmem (by decide)

/-- The payload of a DATA frame. -/
theorem readData (hhead : c.head = []) (hleft : c.left = a.length + a.padding) :
    InStep c .stateReadData a p where
  head := hhead
  left := hleft
  block hin := by cases hin
  padding hnot := by cases hnot
  params heq := by cases heq
  more heq := by cases heq
  start hin := by cases hin

/-- The parameters of a SETTINGS frame. -/
theorem settingsParams (hhead : c.head = []) (hleft : c.left = a.length) (hpadding : a.padding = 0)
    (hparams : a.length % 6 = 0) : InStep c .stateSettingsParams a p where
  head := hhead
  left := by
    show c.left = a.length + a.padding
    rw [hleft, hpadding, Nat.add_zero]
  block hin := by cases hin
  padding _ := hpadding
  params _ := hparams
  more heq := by cases heq
  start hin := by cases hin

/-- Only whether there is any input matters. -/
theorem of_input {q : Bytes} (hs : InStep c h a p) (hq : q = [] → p = []) : InStep c h a q where
  head := hs.head
  left := hs.left
  block := hs.block
  padding := hs.padding
  params := hs.params
  more heq hnil := hs.more heq (hq hnil)
  start := hs.start

/-- What is left of a frame without padding. -/
theorem left_plain (hs : InStep c h a p) (hpad : h.mayPad = false)
    (hframe : h.frameLeft a = a.length + a.padding) : c.left = a.length := by
  rw [hs.left, hframe, hs.padding hpad, Nat.add_zero]

/-- What is left in a header block. -/
theorem left_block (hs : InStep c h a p) (hin : h.ofHeaders = true) :
    c.left = a.length + a.padding := by
  rw [hs.left]
  cases h <;> first | rfl | cases hin

end InStep

namespace Follows

variable {c c' : FramePlace} {taken : Option FrameHead} {p q : Bytes} {s : KHttp2} {h : Handler}

/-- The header that was taken is one of the stream. -/
theorem taken_of_feed (hfeed : frameFormat.feed c' q = frameFormat.feed c p)
    (hseen : c'.seen = taken.toList ++ c.seen) :
    taken.toList ++ c.seen <:+ (frameFormat.feed c p).seen := by
  rw [← hfeed, ← hseen]
  exact RecordStream.Format.seen_feed c' q

theorem jump (hstep : InStep c' h s.atHand q)
    (hfeed : frameFormat.feed c' q = frameFormat.feed c p)
    (hseen : c'.seen = taken.toList ++ c.seen) : Follows c taken p (s, .jump h q) where
  step _ hnext := by
    cases hnext
    exact ⟨c', hstep, hfeed, hseen⟩
  waits _ _ hout := by rcases hout with hout | ⟨hout, -⟩ <;> cases hout
  taken := taken_of_feed hfeed hseen

theorem pos (hstep : InStep c' h s.atHand q)
    (hfeed : frameFormat.feed c' q = frameFormat.feed c p)
    (hseen : c'.seen = taken.toList ++ c.seen) (hrest : q = [] → Rested c' c'.seen h []) :
    Follows c taken p (s, .pos h q) where
  step _ hnext := by
    cases hnext
    exact ⟨c', hstep, hfeed, hseen⟩
  waits _ _ hout := by
    rcases hout with hout | ⟨hout, hnil⟩
    · cases hout
    · cases hout
      subst hnil
      rw [← hfeed, ← hseen]
      exact hrest rfl
  taken := taken_of_feed hfeed hseen

/-- A connection that is closed takes no more frames. -/
theorem fail (htaken : taken.toList ++ c.seen <:+ (frameFormat.feed c p).seen) (status : ℕ) :
    Follows c taken p (s.fail status) where
  step _ hnext := by cases hnext
  waits _ _ hout := by rcases hout with hout | ⟨hout, -⟩ <;> cases hout
  taken := htaken

/-- Closing before a header is taken. -/
theorem fail_none (s : KHttp2) (status : ℕ) : Follows c none p (s.fail status) :=
  have htaken : (none : Option FrameHead).toList ++ c.seen <:+ (frameFormat.feed c p).seen :=
    RecordStream.Format.seen_feed c p
  fail htaken status

theorem save (hstep : InStep c' h s.atHand q)
    (hfeed : frameFormat.feed c' q = frameFormat.feed c p)
    (hseen : c'.seen = taken.toList ++ c.seen)
    (hrest : Rested (frameFormat.feed c p) (taken.toList ++ c.seen) h q) :
    Follows c taken p (s.stateSave q h) := by
  unfold KHttp2.stateSave
  split
  · exact fail (taken_of_feed hfeed hseen) _
  · refine ⟨fun _ hnext => ?_, fun _ _ hout => ?_, taken_of_feed hfeed hseen⟩
    · cases hnext
      exact ⟨c', hstep, hfeed, hseen⟩
    · rcases hout with hout | ⟨hout, -⟩
      · cases hout
        exact hrest
      · cases hout

/-- A handler that waits for more with all its input. -/
theorem again (hstep : InStep c h s.atHand p) (hshort : p.length < c.left) :
    Follows c none p (s.stateSave p h) :=
  save hstep rfl rfl (.payload hshort)

/-- A handler that takes bytes of the payload. -/
theorem jump_drop {n : ℕ} (hleft : n ≤ c.left) (hlength : n ≤ p.length)
    (hstep : InStep { c with left := c.left - n } h s.atHand (p.drop n)) :
    Follows c none p (s, .jump h (p.drop n)) :=
  jump hstep (RecordStream.Format.feed_drop hleft hlength) rfl

/-- Input that was taken before. -/
theorem of_feed {r : KHttp2 × Ret} (hfeed : frameFormat.feed c' q = frameFormat.feed c p)
    (hseen : c'.seen = c.seen) (hfollows : Follows c' taken q r) : Follows c taken p r where
  step h hnext := by
    obtain ⟨d, hstep, hsame, htaken⟩ := hfollows.step h hnext
    exact ⟨d, hstep, hsame.trans hfeed, by rw [htaken, hseen]⟩
  waits h rest hout := by
    rw [← hfeed, ← hseen]
    exact hfollows.waits h rest hout
  taken := by
    rw [← hfeed, ← hseen]
    exact hfollows.taken

/-- A handler that takes nothing. -/
theorem jump_self (hstep : InStep c h s.atHand p) : Follows c none p (s, .jump h p) :=
  jump hstep rfl rfl

end Follows

namespace KHttp2

variable {c : FramePlace} {s : KHttp2} {p : Bytes}

/-! ## CONTINUATION frames -/

section Continuation

variable (s : KHttp2) (p : Bytes) (h : Handler)

/-- The padding that is dropped lies behind the bytes of the block. -/
theorem paddingSkip_le : s.paddingSkip p.length ≤ s.state.padding ∧
    (s.paddingSkip p.length = 0 ∨ s.state.length + s.paddingSkip p.length ≤ p.length) := by
  unfold paddingSkip
  split <;> omega

/-- All the padding is dropped before a header is taken. -/
theorem paddingSkip_eq (hroom : s.state.length + s.paddingSkip p.length < p.length) :
    s.paddingSkip p.length = s.state.padding := by
  unfold paddingSkip at hroom ⊢
  split at hroom
  · rename_i hpad
    rw [if_pos hpad]
    omega
  · rename_i hpad
    rw [if_neg hpad]
    omega

theorem continuationTaken_eq_none (h : s.continuationTaken p = none) :
    p.length < s.state.length + s.paddingSkip p.length + frameHeaderSize := by
  by_contra hfull
  unfold continuationTaken at h
  rw [if_neg hfull] at h
  cases h

theorem continuationTaken_eq_some {a : FrameHead} (h : s.continuationTaken p = some a) :
    s.paddingSkip p.length = s.state.padding ∧
      s.state.length + s.state.padding + frameHeaderSize ≤ p.length ∧
        parseFrameHead (p.drop (s.state.length + s.state.padding)) = a := by
  have hsmall : 0 < frameHeaderSize := by decide
  unfold continuationTaken at h
  dsimp only at h
  split at h
  · cases h
  · have hpad := paddingSkip_eq s p (by omega)
    rw [hpad] at h
    exact ⟨hpad, by omega, Option.some.inj h⟩

theorem paddingSkip_congr {s t : KHttp2} (h : t.atHand = s.atHand) (n : ℕ) :
    t.paddingSkip n = s.paddingSkip n := by
  have hlength : t.state.length = s.state.length := congrArg AtHand.length h
  have hpadding : t.state.padding = s.state.padding := congrArg AtHand.padding h
  unfold paddingSkip
  rw [hlength, hpadding]

theorem continuationTaken_congr {s t : KHttp2} (h : t.atHand = s.atHand) (p : Bytes) :
    t.continuationTaken p = s.continuationTaken p := by
  have hlength : t.state.length = s.state.length := congrArg AtHand.length h
  unfold continuationTaken
  rw [hlength, paddingSkip_congr h]

theorem endsEmpty_congr {s t : KHttp2} (h : t.atHand = s.atHand) (hsid : t.state.sid = s.state.sid)
    (p : Bytes) : t.EndsEmpty p ↔ s.EndsEmpty p := by
  have hlength : t.state.length = s.state.length := congrArg AtHand.length h
  unfold EndsEmpty
  rw [hlength, paddingSkip_congr h, continuationTaken_congr h, hsid]

/-- `handle_continuation` without a whole header. -/
theorem handleContinuation_none (htaken : s.continuationTaken p = none) :
    s.handleContinuation p h = (s.setState fun st =>
      { st with padding := st.padding - s.paddingSkip p.length }).stateSave
        (p.take s.state.length ++ p.drop (s.state.length + s.paddingSkip p.length)) h := by
  obtain ⟨-, hroom⟩ := paddingSkip_le s p
  have hshort := continuationTaken_eq_none s p htaken
  unfold handleContinuation
  refine if_pos ?_
  show (_ ++ p.drop (s.state.length + s.paddingSkip p.length)).length < s.state.length + _
  simp only [List.length_append, List.length_take, List.length_drop]
  omega

/-- `handle_continuation` with a header. -/
theorem handleContinuation_some {a : FrameHead} (htaken : s.continuationTaken p = some a) :
    s.handleContinuation p h =
      if a.type ≠ continuationFrame then (s.setState fun st => { st with padding := 0 }).fail
        protocolError
      else
        let t := s.setState fun st => { st with
          length := st.length + a.length, padding := 0, flags := st.flags ||| a.flags }
        if t.state.sid ≠ a.sid then t.fail protocolError
        else (t, .pos h (p.take s.state.length ++
          p.drop (s.state.length + s.state.padding + frameHeaderSize))) := by
  obtain ⟨hpad, hroom, ha⟩ := continuationTaken_eq_some s p htaken
  unfold handleContinuation
  extract_lets len skip s1 p1 head s2 t
  have hskip : skip = s.state.padding := hpad
  have hfront : (p.take len).length = len := List.length_take_of_le (by omega)
  have hdrop : ∀ k, p1.drop (len + k) = p.drop (len + s.state.padding + k) := by
    intro k
    rw [← List.drop_drop, ← List.drop_drop, ← hskip]
    exact congrArg (List.drop k) (List.drop_left' hfront)
  have hhead : p1.drop len = p.drop (len + s.state.padding) := hdrop 0
  have hs1 : s1 = s.setState fun st => { st with padding := 0 } := by
    simp only [s1, hskip, setState, Nat.sub_self]
  have htake : p1.take len = p.take len := List.take_left' hfront
  have htype : parseType head = a.type := by
    rw [← ha, ← hhead]
    rfl
  have hlength : parseLength head = a.length := by
    rw [← ha, ← hhead]
    rfl
  have hsid : parseSid (p1.drop (len + 5)) = a.sid := by
    rw [← ha, ← hhead, ← List.drop_drop]
    rfl
  have hflags : p1.getD (len + 4) 0 = a.flags := by
    rw [← ha, ← hhead]
    show _ = (p1.drop len).getD 4 0
    rw [List.getD_eq_getElem?_getD, List.getD_eq_getElem?_getD, List.getElem?_drop]
  have hs2 : s2 = t := by
    simp only [s2, t, hs1, hlength, hflags, setState]
  have hlong : ¬p1.length < len + frameHeaderSize := by
    simp only [p1, List.length_append, List.length_drop, hfront, hskip]
    omega
  rw [if_neg hlong, htype, hsid, hs1, hs2, htake, hdrop]

/-- Dropping padding, the parser stays where the stream is. -/
theorem feed_paddingSkip (hleft : c.left = s.state.length + s.state.padding) :
    frameFormat.feed { c with left := c.left - s.paddingSkip p.length }
      (p.take s.state.length ++ p.drop (s.state.length + s.paddingSkip p.length)) =
        frameFormat.feed c p := by
  obtain ⟨hle, hzero | hroom⟩ := paddingSkip_le s p
  · rw [hzero, Nat.add_zero, Nat.sub_zero, List.take_append_drop]
  · exact RecordStream.Format.feed_cut (by omega) hroom

/-- Taking a header, the parser stays where the stream is, and takes a header of the stream. -/
theorem feed_continuationTaken (hhead : c.head = [])
    (hleft : c.left = s.state.length + s.state.padding) {a : FrameHead}
    (htaken : s.continuationTaken p = some a) :
    frameFormat.feed ⟨s.state.length + a.length, [], a :: c.seen⟩ (p.take s.state.length ++
      p.drop (s.state.length + s.state.padding + frameHeaderSize)) = frameFormat.feed c p := by
  obtain ⟨hpad, hfull, ha⟩ := continuationTaken_eq_some s p htaken
  have hsmall : 0 < frameHeaderSize := by decide
  have hcut := feed_paddingSkip s p hleft
  rw [hpad] at hcut
  have hfront : (p.take s.state.length).length = s.state.length :=
    List.length_take_of_le (by omega)
  generalize hp1 : p.take s.state.length ++ p.drop (s.state.length + s.state.padding) = p1 at hcut
  have hdrop : p1.drop s.state.length = p.drop (s.state.length + s.state.padding) := by
    rw [← hp1]
    exact List.drop_left' hfront
  have hbehind : p1.drop (s.state.length + frameFormat.size) =
      p.drop (s.state.length + s.state.padding + frameHeaderSize) := by
    rw [← List.drop_drop, hdrop, List.drop_drop]
    rfl
  have htake : p1.take s.state.length = p.take s.state.length := by
    rw [← hp1]
    exact List.take_left' hfront
  have hroom : s.state.length + frameFormat.size ≤ p1.length := by
    show _ + frameHeaderSize ≤ _
    rw [← hp1, List.length_append, List.length_drop, hfront]
    omega
  have hparse : frameFormat.parse ((p.drop (s.state.length + s.state.padding)).take
      frameFormat.size) = a := (parseFrameHead_take _).trans ha
  have hleft1 : c.left - s.state.padding = s.state.length := by omega
  have hjoin := RecordStream.Format.feed_join (F := frameFormat)
    (c := { c with left := c.left - s.state.padding }) hleft1 hhead hsmall hroom
  rw [hdrop, hparse, htake, hbehind, hcut] at hjoin
  exact hjoin

end Continuation

/-- The header of a CONTINUATION frame is taken where the stream has it. -/
theorem follows_handleContinuation {h : Handler} (hin : h.ofHeaders = true) (hpad : h.mayPad = true)
    (hhead : c.head = []) (hleft : c.left = s.state.length + s.state.padding)
    (hopen : blockOpen c.seen = true) (hmore : hasFlag s.state.flags endHeadersFlag = false)
    (hends : ¬s.EndsEmpty p) :
    Follows c (s.continuationTaken p) p (s.handleContinuation p h) := by
  cases htaken : s.continuationTaken p with
  | none =>
    rw [handleContinuation_none s p h htaken]
    have hcut := feed_paddingSkip s p hleft
    obtain ⟨hle, hroom⟩ := paddingSkip_le s p
    have hshort := continuationTaken_eq_none s p htaken
    let c1 : FramePlace := { c with left := c.left - s.paddingSkip p.length }
    let t := s.setState fun st => { st with padding := st.padding - s.paddingSkip p.length }
    have hleft1 : c1.left = s.state.length + (s.state.padding - s.paddingSkip p.length) := by
      show c.left - _ = _
      omega
    have hblock : blockOpen c1.seen = !hasFlag s.state.flags endHeadersFlag := by
      rw [hmore]
      exact hopen
    -- no header is complete
    have hseen : (frameFormat.feed c p).seen = c.seen := by
      have hpart : (p.take s.state.length ++
          p.drop (s.state.length + s.paddingSkip p.length)).length <
            c1.left + frameFormat.size := by
        show _ < _ + frameHeaderSize
        rw [List.length_append, List.length_take, List.length_drop]
        omega
      rw [← hcut]
      exact RecordStream.Format.seen_feed_of_lt hhead hpart
    have hstep : InStep c1 h t.atHand
        (p.take s.state.length ++ p.drop (s.state.length + s.paddingSkip p.length)) :=
      .inBlock hin hpad hhead hleft1 hblock fun _ _ => .inr hmore
    exact Follows.save hstep hcut rfl (.of_open hseen hopen)
  | some a =>
    have hjoin := feed_continuationTaken s p hhead hleft htaken
    rw [handleContinuation_some s p h htaken]
    split
    · exact .fail (Follows.taken_of_feed hjoin rfl) _
    · extract_lets t
      split
      · exact .fail (Follows.taken_of_feed hjoin rfl) _
      · rename_i htype hsid
        have hcont : a.type = continuationFrame := not_not.mp htype
        have hnext : blockOpen (a :: c.seen) = !hasFlag a.flags endHeadersFlag := by
          rw [blockOpen_cons, hcont]
          rfl
        have hflags : hasFlag t.state.flags endHeadersFlag = hasFlag a.flags endHeadersFlag :=
          hasFlag_or hmore a.flags
        have hleft2 : s.state.length + a.length = t.state.length + t.state.padding :=
          (Nat.add_zero _).symm
        -- an empty frame does not end the block with the input
        have hnot : p.take s.state.length ++
            p.drop (s.state.length + s.state.padding + frameHeaderSize) = [] → a.length = 0 →
              hasFlag a.flags endHeadersFlag = false := by
          intro hnil hempty
          obtain ⟨hskip, hroom, -⟩ := continuationTaken_eq_some s p htaken
          obtain ⟨hfront, hback⟩ := List.append_eq_nil_iff.mp hnil
          have hlength := congrArg List.length hfront
          have hlast := congrArg List.length hback
          rw [List.length_take, List.length_nil] at hlength
          rw [List.length_drop, List.length_nil] at hlast
          refine Bool.eq_false_iff.mpr fun hend =>
            hends ⟨?_, ?_, a, htaken, hempty, hcont, ?_, hend⟩
          · omega
          · omega
          · exact (not_not.mp hsid).symm
        refine Follows.pos (.inBlock hin hpad rfl hleft2 (hnext.trans (by rw [← hflags]; rfl))
          fun _ hnil => ?_) hjoin rfl fun hnil => ⟨rfl, fun hbetween _ hblock => ?_⟩
        · by_cases hempty : a.length = 0
          · exact .inr (hflags.trans (hnot hnil hempty))
          · refine .inl ?_
            show 0 < t.state.length + t.state.padding
            omega
        · have hempty : a.length = 0 := Nat.eq_zero_of_add_eq_zero_left hbetween.1
          rw [hnext, hnot hnil hempty] at hblock
          cases hblock

/-! ## The handlers -/

theorem headersFrame_of_frameState {type : ℕ} (h : frameState type = .stateHeaders) :
    type = headersFrame := by
  unfold frameState at h
  split at h <;> first | rfl | cases h

theorem follows_stateHead (hs : InStep c .stateHead s.atHand p) :
    Follows c (headTaken .stateHead s p) p (s.stateHead p) := by
  have hleft : c.left = 0 := hs.left
  have hpadding : s.state.padding = 0 := hs.padding rfl
  unfold stateHead headTaken
  rw [if_pos rfl]
  split
  · rename_i hshort
    have hpart : frameFormat.feed c p = { c with head := p } := by
      have h := RecordStream.Format.feed_part (F := frameFormat) (x := p) hleft
        (by rw [hs.head]; exact (Nat.zero_add _).trans_lt hshort)
      rwa [hs.head, List.nil_append] at h
    have hseen : (frameFormat.feed c p).seen = c.seen := by rw [hpart]
    refine Follows.save hs rfl rfl ⟨hseen, fun hbetween _ _ => ⟨rfl, ?_⟩⟩
    rw [hpart] at hbetween
    exact hbetween.2
  · rename_i hfull
    extract_lets length type flags sid s1 s2 s3
    let a := parseFrameHead p
    have hcalm : Calm s2 s3 := by
      dsimp only [s3]
      split
      · exact .refl s2
      · exact s2.calm_checkStreamTimeout
    have hset : ∀ (length sid : ℕ) (flags : UInt8) (e : Ev), ((s.setState fun st =>
        { st with length := length, flags := flags, sid := sid }).log e).atHand =
          ⟨length, s.state.padding, flags⟩ := fun _ _ _ _ => rfl
    have hhand : s3.atHand = ⟨length, s.state.padding, flags⟩ :=
      (atHand_of_calm hcalm).trans (hset length sid flags _)
    rw [hpadding] at hhand
    have hfeed : frameFormat.feed ⟨a.length, [], a :: c.seen⟩ (p.drop frameHeaderSize) =
        frameFormat.feed c p := by
      have h := RecordStream.Format.feed_join (F := frameFormat) (x := p) hleft hs.head (by decide)
        (by rw [Nat.zero_add]; exact not_lt.mp hfull)
      have hparse : frameFormat.parse ((p.drop 0).take frameFormat.size) = a :=
        parseFrameHead_take p
      rw [hparse, Nat.zero_add, Nat.zero_add] at h
      exact h
    refine Follows.jump (.frame (frameState_mem type) rfl ?_ ?_ fun htype => ?_) hfeed rfl
    · rw [hhand]
      exact parseFrameHead_length p
    · rw [hhand]
    · have hheaders : a.type = headersFrame :=
        (parseFrameHead_type p).trans (headersFrame_of_frameState htype)
      rw [hhand, blockOpen_cons, hheaders]
      exact congrArg (fun flags => !hasFlag flags endHeadersFlag) (parseFrameHead_flags p)

theorem follows_statePreface (hs : InStep c .statePreface s.atHand p) :
    Follows c none p (s.statePreface p) := by
  have hleft : c.left = prefaceStart.length + prefaceEnd.length := hs.left
  have hone : 1 ≤ prefaceEnd.length := by decide
  unfold statePreface
  split
  · rename_i hshort
    refine Follows.save hs rfl rfl (.of_start ?_ (hs.start rfl))
    rw [RecordStream.Format.feed_payload (by omega)]
    rfl
  · rename_i hfull
    split
    · exact .fail_none s _
    · refine Follows.jump_drop (by omega) (by omega) ⟨hs.head, ?_, ?_, ?_, ?_, ?_, ?_⟩
      · show c.left - _ = prefaceEnd.length
        omega
      · exact fun hin => by cases hin
      · exact fun _ => hs.padding rfl
      · exact fun heq => by cases heq
      · exact fun heq => by cases heq
      · exact fun _ => hs.start rfl

theorem follows_statePrefaceEnd (hs : InStep c .statePrefaceEnd s.atHand p) :
    Follows c none p (s.statePrefaceEnd p) := by
  have hleft : c.left = prefaceEnd.length := hs.left
  unfold statePrefaceEnd
  split
  · rename_i hshort
    refine Follows.save hs rfl rfl (.of_start ?_ (hs.start rfl))
    rw [RecordStream.Format.feed_payload (by omega)]
    rfl
  · rename_i hfull
    split
    · exact .fail_none s _
    · refine Follows.jump_drop (by omega) (by omega) (.next hs.head ?_ (hs.padding rfl))
      show c.left - _ = 0
      omega

theorem follows_stateSkip (hs : InStep c .stateSkip s.atHand p) :
    Follows c none p (s.stateSkip p) := by
  have hpadding : s.state.padding = 0 := hs.padding rfl
  have hleft : c.left = s.state.length := by
    rw [hs.left]
    show s.state.length + s.state.padding = _
    rw [hpadding, Nat.add_zero]
  unfold stateSkip
  split
  · rename_i hshort
    let c1 : FramePlace := { c with left := c.left - p.length }
    let t := s.setState fun st => { st with length := st.length - p.length }
    have hfeed : frameFormat.feed c1 [] = frameFormat.feed c p :=
      (RecordStream.Format.feed_payload (by omega)).symm
    have hleft1 : c1.left = t.state.length := congrArg (· - p.length) hleft
    have hstep : InStep c1 .stateSkip t.atHand [] := .skip hs.head hleft1 hpadding
    exact Follows.save hstep hfeed rfl (.payload (by omega))
  · rename_i hfull
    refine Follows.jump_drop (by omega) (by omega) (.complete hs.head ?_ hpadding)
    show c.left - s.state.length = 0
    omega

theorem follows_stateSkipPadded (hhead : c.head = [])
    (hleft : c.left = s.state.length + s.state.padding) :
    Follows c none p (s.stateSkipPadded p) := by
  unfold stateSkipPadded
  exact Follows.jump_self (.skip hhead hleft rfl)

theorem follows_endFrame (hhead : c.head = []) (hleft : c.left = s.state.length + s.state.padding)
    (hlength : s.state.length = 0) : Follows c none p (s.endFrame p) := by
  unfold endFrame
  split
  · exact follows_stateSkipPadded hhead hleft
  · rename_i hpadding
    have hnone : s.state.padding = 0 := not_not.mp hpadding
    refine Follows.jump_self (.complete hhead ?_ hnone)
    omega

theorem follows_stateComplete (hs : InStep c .stateComplete s.atHand p) :
    Follows c none p (s.stateComplete p) := by
  have hpadding : s.releaseStateStream.atHand.padding = 0 := by
    rw [s.atHand_releaseStateStream]
    exact hs.padding rfl
  exact Follows.pos (.next hs.head hs.left hpadding) rfl rfl fun _ =>
    ⟨rfl, fun _ _ _ => ⟨rfl, rfl⟩⟩

/-! ### DATA -/

theorem follows_dataStream (flag : Bool) (hhead : c.head = [])
    (hleft : c.left = s.state.length + s.state.padding) : Follows c none p (s.dataStream flag p) := by
  have hskip : ∀ t : KHttp2, t.atHand = s.atHand →
      Follows c none p (t.stateSkipPadded p) := by
    intro t ht
    refine follows_stateSkipPadded hhead (hleft.trans ?_)
    exact (congrArg (fun a => a.length + a.padding) ht).symm
  have hstart : ∀ (t : KHttp2) (b : Bool), (if b then t.startWrite else t).atHand = t.atHand := by
    intro t b
    cases b with
    | true => exact atHand_of_calm t.calm_startWrite
    | false => rfl
  unfold dataStream
  split
  · exact hskip _ (hstart s flag)
  · rename_i sid c' hnode
    split
    · exact hskip _ (atHand_of_calm (s.calm_terminateStream c' _))
    · split
      · exact hskip _ (atHand_of_calm (s.calm_terminateStream c' _))
      · extract_lets s1 r s2
        split
        · have hr : r.1.atHand = s1.atHand := atHand_of_calm (s1.calm_terminateStream c' _)
          exact hskip _ ((hstart r.1 _).trans hr)
        · have h2 := hstart s2 flag
          refine Follows.jump_self (.readData hhead ?_)
          rw [h2]
          exact hleft

theorem follows_dataFlow (hhead : c.head = []) (hleft : c.left = s.state.length + s.state.padding) :
    Follows c none p (s.dataFlow p) := by
  unfold dataFlow
  split
  · exact .fail_none s _
  · extract_lets r
    refine follows_dataStream r.2 hhead (hleft.trans ?_)
    exact (congrArg (fun a => a.length + a.padding) s.atHand_useRecvWindow).symm

theorem follows_stateData (hs : InStep c .stateData s.atHand p) :
    Follows c none p (s.stateData p) := by
  have hleft : c.left = s.state.length := hs.left_plain rfl rfl
  unfold stateData
  split
  · split
    · exact .fail_none s _
    · rename_i hlength
      split
      · exact .again hs (by rw [hleft]; exact Nat.pos_of_ne_zero hlength)
      · rename_i padding q
        extract_lets s1
        split
        · exact .fail_none s1 _
        · rename_i hroom
          have hfit : s1.state.padding ≤ s.state.length - 1 := not_lt.mp hroom
          have hfeed : frameFormat.feed { c with left := c.left - 1 } q =
              frameFormat.feed c (padding :: q) := by
            refine RecordStream.Format.feed_drop (n := 1) (x := padding :: q) ?_ ?_
            · omega
            · exact Nat.succ_pos _
          refine .of_feed hfeed rfl (follows_dataFlow hs.head ?_)
          show c.left - 1 = s.state.length - 1 - s1.state.padding + s1.state.padding
          omega
  · refine follows_dataFlow hs.head ?_
    exact hs.left

theorem follows_stateReadData (hs : InStep c .stateReadData s.atHand p) :
    Follows c none p (s.stateReadData p) := by
  have hleft : c.left = s.state.length + s.state.padding := hs.left
  unfold stateReadData
  split
  · exact follows_stateSkipPadded hs.head hleft
  · rename_i c' hstream
    extract_lets size bytes s1 s2 p1 s3
    have hsize : size ≤ p.length ∧ size ≤ s.state.length :=
      ⟨Nat.min_le_left _ _, Nat.min_le_right _ _⟩
    have h2 : s2.atHand = ⟨s.state.length - size, s.state.padding, s.state.flags⟩ := by
      dsimp only [s2]
      split
      · rename_i hzero
        rw [hzero]
        rfl
      · have hwake : ((s1.logData c' (p.take size)).wakeReader c' false).atHand = s.atHand :=
          (atHand_of_calm (calm_wakeReader _ c' false)).trans (s1.atHand_logData c' _)
        exact congrArg (fun a : AtHand => AtHand.mk (a.length - size) a.padding a.flags) hwake
    have h3 : s3.atHand = s2.atHand := by
      dsimp only [s3]
      split
      · exact (atHand_of_calm (calm_wakeReader _ c' true)).trans (atHand_of_state rfl)
      · rfl
    let c1 : FramePlace := { c with left := c.left - size }
    have hfeed : frameFormat.feed c1 p1 = frameFormat.feed c p :=
      RecordStream.Format.feed_drop (by omega) hsize.1
    have hlength : s2.state.length = s.state.length - size := congrArg AtHand.length h2
    have hleft1 : c1.left = s2.atHand.length + s2.atHand.padding := by
      rw [h2]
      show c.left - size = s.state.length - size + s.state.padding
      omega
    split
    · rename_i hmore
      have hall : size = min p.length s.state.length := rfl
      have hstep : InStep c1 .stateReadData s2.atHand p1 := .readData hs.head hleft1
      exact Follows.save hstep hfeed rfl (.payload (by omega))
    · rename_i hnone
      refine .of_feed hfeed rfl (follows_endFrame hs.head ?_ ?_)
      · rw [← h3] at hleft1
        exact hleft1
      · exact (congrArg AtHand.length h3).trans (not_not.mp hnone)

/-! ### Frames of fixed length -/

/-- The frame ends behind `n` bytes. -/
theorem follows_last {n : ℕ} {t : KHttp2} (hhead : c.head = []) (hleft : c.left = n)
    (hlength : n ≤ p.length) (hpadding : t.atHand.padding = 0) :
    Follows c none p (t, .jump .stateComplete (p.drop n)) := by
  refine Follows.jump_drop hleft.ge hlength (.complete hhead ?_ hpadding)
  show c.left - n = 0
  omega

theorem follows_statePriority (hs : InStep c .statePriority s.atHand p) :
    Follows c none p (s.statePriority p) := by
  have hleft : c.left = s.state.length := hs.left_plain rfl rfl
  unfold statePriority
  split
  · exact .fail_none s _
  · rename_i hsize
    rw [not_not.mp hsize] at hleft
    split
    · exact .again hs (by omega)
    · split
      · exact .fail_none s _
      · exact follows_last hs.head hleft (by omega) (hs.padding rfl)

theorem follows_stateRstStream (hs : InStep c .stateRstStream s.atHand p) :
    Follows c none p (s.stateRstStream p) := by
  have hleft : c.left = s.state.length := hs.left_plain rfl rfl
  have hpadding : s.atHand.padding = 0 := hs.padding rfl
  unfold stateRstStream
  split
  · exact .fail_none s _
  · rename_i hsize
    rw [not_not.mp hsize] at hleft
    split
    · exact .again hs (by omega)
    · split
      · exact .fail_none s _
      · split
        · exact follows_last hs.head hleft (by omega) hpadding
        · rename_i sid c' hnode
          extract_lets ctx s1
          have hreset : (s.resetStream c').atHand = s.atHand :=
            atHand_of_calm (s.calm_resetStream c').1
          have h1 : s1.atHand = s.atHand := hreset
          have h2 : (s1.wakeReset c' ctx).atHand = s1.atHand :=
            atHand_of_calm (s1.calm_wakeReset c' ctx)
          refine follows_last hs.head hleft (by omega) ?_
          rw [h2, h1]
          exact hpadding

theorem follows_stateSettings (hs : InStep c .stateSettings s.atHand p) :
    Follows c none p (s.stateSettings p) := by
  have hleft : c.left = s.state.length := hs.left_plain rfl rfl
  have hpadding : s.atHand.padding = 0 := hs.padding rfl
  unfold stateSettings
  split
  · split
    · exact .fail_none s _
    · rename_i hsize
      rw [not_not.mp hsize] at hleft
      exact Follows.jump_self (.complete hs.head hleft hpadding)
  · split
    · exact .fail_none s _
    · rename_i hwhole
      have hack : s.sendSettingsAck.atHand = s.atHand := atHand_of_calm s.calm_sendSettingsAck
      refine Follows.jump_self ?_
      rw [hack]
      exact .settingsParams hs.head hleft hpadding (not_not.mp hwhole)

theorem follows_stateSettingsParams (hs : InStep c .stateSettingsParams s.atHand p) :
    Follows c none p (s.stateSettingsParams p) := by
  have hleft : c.left = s.state.length := hs.left_plain rfl rfl
  have hpadding : s.atHand.padding = 0 := hs.padding rfl
  have hwhole : s.state.length % 6 = 0 := hs.params rfl
  unfold stateSettingsParams
  split
  · rename_i hnone
    rw [hnone] at hleft
    exact Follows.jump_self (.complete hs.head hleft hpadding)
  · rename_i hsome
    split
    · exact .again hs (by omega)
    · extract_lets s1 id value next
      have hnext : ∀ t : KHttp2, t.atHand = s1.atHand → Follows c none p (t, next) := by
        intro t ht
        refine Follows.jump_drop (by omega) (by omega) ?_
        rw [ht]
        refine .settingsParams hs.head ?_ hpadding ?_
        · exact congrArg (· - 6) hleft
        · show (s.state.length - 6) % 6 = 0
          omega
      have hconnect : ∀ (t : KHttp2) (b : Bool), { t with enableConnect := b }.atHand = t.atHand :=
        fun _ _ => rfl
      clear_value id value
      split
      · split
        · exact .fail_none s1 _
        · exact hnext _ (atHand_adjustWindows _ _)
      · split
        · exact .fail_none s1 _
        · exact hnext _ rfl
      · exact hnext _ (hconnect _ _)
      · exact hnext _ rfl

theorem follows_statePing (hs : InStep c .statePing s.atHand p) :
    Follows c none p (s.statePing p) := by
  have hleft : c.left = s.state.length := hs.left_plain rfl rfl
  have hpadding : s.atHand.padding = 0 := hs.padding rfl
  unfold statePing
  split
  · exact .fail_none s _
  · rename_i hsize
    split
    · exact .again hs (by omega)
    · split
      · exact Follows.jump_self (.skip hs.head hleft hpadding)
      · extract_lets payload
        refine follows_last hs.head (hleft.trans (not_not.mp hsize)) (by omega) ?_
        rw [atHand_of_calm (calm_startWrite _)]
        exact hpadding

theorem follows_stateGoaway (hs : InStep c .stateGoaway s.atHand p) :
    Follows c none p (s.stateGoaway p) := by
  have hleft : c.left = s.state.length := hs.left_plain rfl rfl
  unfold stateGoaway
  split
  · exact .fail_none s _
  · split
    · exact .again hs (by omega)
    · exact Follows.jump_self (.skip hs.head hleft (hs.padding rfl))

theorem follows_stateWindowUpdate (hs : InStep c .stateWindowUpdate s.atHand p) :
    Follows c none p (s.stateWindowUpdate p) := by
  have hleft : c.left = s.state.length := hs.left_plain rfl rfl
  have hpadding : s.atHand.padding = 0 := hs.padding rfl
  unfold stateWindowUpdate
  split
  · exact .fail_none s _
  · rename_i hsize
    rw [not_not.mp hsize] at hleft
    split
    · exact .again hs (by omega)
    · extract_lets window next s1
      have hwindow : ∀ (e : Ev) (w : ℕ), { s.log e with sendWindow := w }.atHand = s.atHand :=
        fun _ _ => rfl
      have hnext : ∀ t : KHttp2, t.atHand = s.atHand → Follows c none p (t, next) := by
        intro t ht
        refine follows_last hs.head hleft (by omega) ?_
        rw [ht]
        exact hpadding
      split
      · exact hnext _ (s.atHand_streamWindowUpdate _)
      · split
        · exact .fail_none s _
        · refine hnext _ ?_
          split
          · exact (atHand_checkWriteWaitLoop _ _).trans (hwindow _ _)
          · exact hwindow _ _

theorem follows_stateAltsvc (hs : InStep c .stateAltsvc s.atHand p) :
    Follows c none p (s.stateAltsvc p) := by
  have hleft : c.left = s.state.length := hs.left_plain rfl rfl
  unfold stateAltsvc
  split
  · exact .fail_none s _
  · split
    · exact .again hs (by omega)
    · exact Follows.jump_self (.skip hs.head hleft (hs.padding rfl))

/-! ### HEADERS -/

theorem follows_headersForStream {c' : CtxId} (hs : c.head = [])
    (hleft : c.left = s.state.length + s.state.padding) (hpos : 0 < c.left)
    (hblock : blockOpen c.seen = !hasFlag s.state.flags endHeadersFlag)
    (hskip : (!(s.ctx c').isAvailable || (s.ctx c').inClosed) = true → s.state.padding = 0) :
    Follows c none p (s.headersForStream c' p) := by
  unfold headersForStream
  extract_lets s1 s2 fin
  split
  · rename_i hrefused
    have hnone : s.state.padding = 0 := hskip hrefused
    rw [hnone] at hleft
    exact Follows.jump_self (.skip hs hleft hnone)
  · have hhand : ((s2.modify c' fun ctx => { ctx with inClosed := fin }).logEnd c' fin).atHand =
        s.atHand := atHand_logEnd _ c' fin
    refine Follows.jump_self (.inBlock rfl rfl hs ?_ ?_ fun _ _ => .inl ?_)
    · rw [hhand]
      exact hleft
    · rw [hhand]
      exact hblock
    · rw [hhand]
      exact hpos.trans_eq hleft

theorem follows_headersStream (depend : ℕ) (hs : c.head = [])
    (hleft : c.left = s.state.length + s.state.padding) (hpos : 0 < c.left)
    (hblock : blockOpen c.seen = !hasFlag s.state.flags endHeadersFlag)
    (hskip : s.skipsHeaders depend = true → s.state.padding = 0) :
    Follows c none p (s.headersStream depend p) := by
  have hopen : ∀ t : KHttp2, t.atHand = s.atHand →
      Follows c none p (t, .jump .stateHeaderBlock p) := by
    intro t ht
    refine Follows.jump_self ?_
    rw [ht]
    exact .inBlock rfl rfl hs hleft hblock fun _ _ => .inl (hpos.trans_eq hleft)
  unfold headersStream
  extract_lets sid s1
  split
  · rename_i hclient
    split
    · rename_i hnode
      have hnone : s.state.padding = 0 := hskip (by
        unfold skipsHeaders
        rw [hnode]
        exact hclient)
      rw [hnone] at hleft
      exact Follows.jump_self (.skip hs hleft hnone)
    · rename_i sid' c' hnode
      refine follows_headersForStream hs hleft hpos hblock fun hrefused => hskip ?_
      unfold skipsHeaders
      rw [hnode]
      simp only [hclient, hrefused, Bool.true_or, Bool.true_and]
  · split
    · exact .fail_none s _
    · rename_i hsid
      split
      · exact hopen _ (atHand_of_calm (s.calm_sendRstStream _ _ _))
      · rename_i haway
        split
        · have h1 : s1.atHand = s.atHand := rfl
          exact hopen _ ((atHand_of_calm (s1.calm_sendRstStream _ _ _)).trans h1)
        · rename_i hdepend
          split
          · rename_i sid' c' hnode
            refine follows_headersForStream hs hleft hpos hblock fun hrefused => hskip ?_
            have hnode : s.getNode s.state.sid = some ⟨sid', c'⟩ := hnode
            have hrefused : (!(s.ctx c').isAvailable || (s.ctx c').inClosed) = true := hrefused
            have hodd : s.state.sid % 2 ≠ 0 ∧ s.lastPeerSid ≤ s.state.sid := by
              rw [not_or, not_lt] at hsid
              exact hsid
            unfold skipsHeaders
            rw [hnode]
            simp only [hrefused, Bool.and_true, Bool.or_eq_true, Bool.and_eq_true,
              decide_eq_true_eq, Bool.not_eq_true']
            exact .inr ⟨⟨hodd, Bool.eq_false_iff.mpr haway⟩, hdepend⟩
          · exact hopen _ (s1.atHand_headersNewStream p)

theorem follows_stateHeaders (hs : InStep c .stateHeaders s.atHand p)
    (hloses : ¬s.SkipsPadded p) : Follows c none p (s.stateHeaders p) := by
  have hleft : c.left = s.state.length := hs.left_plain rfl rfl
  have hpadding : s.state.padding = 0 := hs.padding rfl
  have hblock : blockOpen c.seen = !hasFlag s.state.flags endHeadersFlag := hs.block rfl
  unfold stateHeaders
  extract_lets s1 padded priority size s2 s3 s4 depend
  split
  · exact .fail_none s1 _
  · rename_i hsize
    split
    · exact .fail_none s1 _
    · rename_i hmore
      have hsmaller : size < s.state.length := lt_of_le_of_ne (not_lt.mp hsize) (Ne.symm hmore)
      split
      · refine .again ?_ (by omega)
        exact hs
      · rename_i hfull
        split
        · exact .fail_none s3 _
        · rename_i hroom
          let pad := if padded then (p.getD 0 0).toNat else 0
          have hpad : pad ≤ s.state.length - size ∧
              s4.atHand = ⟨s.state.length - size - pad, pad, s.state.flags⟩ ∧
                s4.skipsHeaders depend = s.skipsHeaders (s.headersDepend p) := by
            by_cases hflag : padded = true
            · have h3 : s3 = s2.setState fun st => { st with padding := (p.getD 0 0).toNat } :=
                if_pos hflag
              have h4 : s4 = s3.setState fun st => { st with length := st.length - st.padding } :=
                if_pos hflag
              have hpad : pad = (p.getD 0 0).toNat := if_pos hflag
              rw [hflag, h3] at hroom
              rw [h4, h3, hpad]
              refine ⟨?_, rfl, rfl⟩
              exact not_lt.mp fun hgt => hroom (decide_eq_true hgt)
            · have h3 : s3 = s2 := if_neg hflag
              have h4 : s4 = s3 := if_neg hflag
              have hpad : pad = 0 := if_neg hflag
              rw [h4, h3, hpad]
              refine ⟨Nat.zero_le _, ?_, rfl⟩
              show AtHand.mk (s.state.length - size) s.state.padding s.state.flags = _
              rw [hpadding, Nat.sub_zero]
          obtain ⟨hle, hhand, hskips⟩ := hpad
          have hlength : s4.state.length = s.state.length - size - pad :=
            congrArg AtHand.length hhand
          have hpadding4 : s4.state.padding = pad := congrArg AtHand.padding hhand
          have hflags : s4.state.flags = s.state.flags := congrArg AtHand.flags hhand
          have hfeed := RecordStream.Format.feed_drop (F := frameFormat) (c := c) (x := p)
            (n := size) (by omega) (not_lt.mp hfull)
          refine .of_feed hfeed rfl (follows_headersStream depend hs.head ?_ ?_ ?_ fun hskip => ?_)
          · show c.left - size = _
            omega
          · show 0 < c.left - size
            omega
          · rw [hflags]
            exact hblock
          · by_contra hne
            rw [hpadding4] at hne
            have hflag : padded = true := by
              by_contra hnot
              exact hne (if_neg hnot)
            have hpad : pad = (p.getD 0 0).toNat := if_pos hflag
            rw [hpad] at hne hle
            exact hloses ⟨hflag, ⟨hsmaller, not_lt.mp hfull⟩, ⟨hne, hle⟩, hskips.symm.trans hskip⟩

/-! ### Header blocks -/

section Block

variable {h : Handler}

theorem headTaken_of_none (hhead : h ≠ .stateHead) (hinput : continuationInput h s p = none) :
    headTaken h s p = none := by
  unfold headTaken
  rw [if_neg hhead, hinput]
  rfl

theorem headTaken_of_some {t : KHttp2} {q : Bytes} (hhead : h ≠ .stateHead)
    (hinput : continuationInput h s p = some (t, q)) :
    headTaken h s p = t.continuationTaken q := by
  unfold headTaken
  rw [if_neg hhead, hinput]
  rfl

/-- A handler that gives what it has to `handle_continuation`. -/
theorem follows_continues (hs : InStep c h s.atHand p) (hin : h.ofHeaders = true)
    (hpad : h.mayPad = true) (hinput : continuationInput h s p = some (s, p))
    (hmore : hasFlag s.state.flags endHeadersFlag = false) (hstops : ¬StopsEarly h s p) :
    Follows c (headTaken h s p) p (s.handleContinuation p h) := by
  have hhead : h ≠ .stateHead := by
    rintro rfl
    cases hin
  have hopen : blockOpen c.seen = true := by
    have hflag : s.atHand.flags = s.state.flags := rfl
    rw [hs.block hin, hflag, hmore]
    rfl
  rw [headTaken_of_some hhead hinput]
  exact follows_handleContinuation hin hpad hs.head (hs.left_block hin) hopen hmore
    fun hends => hstops ⟨_, hinput, hends⟩

/-- The next handler of the block. -/
theorem inStep_go {h' : Handler} {n : ℕ} {t : KHttp2} {q : Bytes} (hs : InStep c h s.atHand p)
    (hin : h.ofHeaders = true) (hin' : h'.ofHeaders = true) (hpad' : h'.mayPad = true)
    (hn : n ≤ s.state.length)
    (hhand : t.atHand = ⟨s.state.length - n, s.state.padding, s.state.flags⟩)
    (hmore : h' = .stateHeaderBlock → 0 < s.state.length - n) :
    InStep { c with left := c.left - n } h' t.atHand q := by
  have hleft : c.left = s.state.length + s.state.padding := hs.left_block hin
  rw [hhand]
  refine .inBlock hin' hpad' hs.head ?_ (hs.block hin) fun heq _ => .inl ?_
  · show c.left - n = s.state.length - n + s.state.padding
    omega
  · have hpos := hmore heq
    show 0 < s.state.length - n + s.state.padding
    omega

end Block

theorem follows_stateHeaderBlock (hs : InStep c .stateHeaderBlock s.atHand p)
    (hstops : ¬StopsEarly .stateHeaderBlock s p) :
    Follows c (headTaken .stateHeaderBlock s p) p (s.stateHeaderBlock p) := by
  have hleft : c.left = s.state.length + s.state.padding := hs.left
  unfold stateHeaderBlock
  split
  · rw [headTaken_of_none (by decide) rfl]
    refine Follows.save hs rfl rfl ⟨rfl, fun hbetween _ hclosed => ?_⟩
    have hopen : blockOpen c.seen = !hasFlag s.state.flags endHeadersFlag := hs.block rfl
    have hdone : c.left = 0 := hbetween.1
    rcases hs.more rfl rfl with hpos | hmore
    · exact absurd (hleft.symm.trans hdone) hpos.ne'
    · have hflag : hasFlag s.state.flags endHeadersFlag = false := hmore
      rw [hflag] at hopen
      exact absurd (hopen.symm.trans hclosed) (by decide)
  · rename_i ch rest
    extract_lets s1
    have h1 : s1.atHand = s.atHand := by
      dsimp only [s1]
      split <;> rfl
    by_cases hcont : (!hasFlag s.state.flags endHeadersFlag && s.state.length < intOctets) = true
    · rw [if_pos hcont]
      have hmore := (Bool.not_eq_true' _).mp (Bool.and_eq_true_iff.mp hcont).1
      have hne : ch :: rest ≠ [] := List.cons_ne_nil ch rest
      exact follows_continues hs rfl rfl (if_pos ⟨hne, hcont⟩) hmore hstops
    · have hnone : headTaken .stateHeaderBlock s (ch :: rest) = none :=
        headTaken_of_none (by decide) (if_neg fun h => hcont h.2)
      have hlength : s1.state.length = s.state.length := congrArg AtHand.length h1
      rw [if_neg hcont, hnone, hlength]
      split
      · rename_i hint
        have hshort := (parseInt_again hint).2 (List.cons_ne_nil ch rest)
        refine .again ?_ (by omega)
        rw [h1]
        exact hs
      · exact .fail_none s1 _
      · exact .fail_none s1 _
      · rename_i value used hint
        extract_lets s2 p1 named
        obtain ⟨hused, hroom, -⟩ := parseInt_octets hint
        have h2 : s2.atHand = ⟨s.state.length - used, s.state.padding, s.state.flags⟩ :=
          congrArg (fun a : AtHand => AtHand.mk (a.length - used) a.padding a.flags) h1
        have hnext : ∀ (t : KHttp2) (h : Handler), t.atHand = s2.atHand → h.ofHeaders = true →
            h.mayPad = true → h ≠ .stateHeaderBlock →
              Follows c none (ch :: rest) (t, .jump h p1) := by
          intro t h ht hin hpad hne
          exact Follows.jump_drop (by omega) hroom
            (inStep_go hs rfl hin hpad hused (ht.trans h2) fun heq => absurd heq hne)
        split
        · split
          · exact .fail_none s2 _
          · rename_i hget
            exact hnext _ _ (atHand_getIndexedHeader hget) rfl rfl (by decide)
        · split
          · split
            · exact .fail_none s2 _
            · exact hnext _ _ rfl rfl rfl (by decide)
          · cases hnamed : named with
            | none => exact .fail_none s2 _
            | some s3 =>
              have h3 : s3.atHand = s2.atHand := by
                dsimp only [named] at hnamed
                split at hnamed
                · cases hnamed
                  rfl
                · exact atHand_getIndexedHeader hnamed
              exact hnext _ _ h3 rfl rfl (by decide)

theorem follows_stateProcessHeader (hs : InStep c .stateProcessHeader s.atHand p) :
    Follows c none p (s.stateProcessHeader p) := by
  have hnext : ∀ (t : KHttp2) (h : Handler), t.atHand = s.atHand → h.ofHeaders = true →
      h.mayPad = true → h ≠ .stateHeaderBlock → Follows c none p (t, .jump h p) := by
    intro t h ht hin hpad hne
    refine Follows.jump_self ?_
    rw [ht]
    exact .inBlock hin hpad hs.head hs.left (hs.block rfl) fun heq => absurd heq hne
  unfold stateProcessHeader
  extract_lets s1 s2 len s3
  split
  · split
    · exact .fail_none s1 _
    · exact hnext s1 _ rfl rfl rfl (by decide)
  · have h3 : s3.atHand = s.atHand := by
      have h2 : s2.atHand = s.atHand := by
        dsimp only [s2]
        split <;> rfl
      exact h2
    split
    · exact .fail_none s3 _
    · refine hnext _ _ ?_ rfl rfl (by decide)
      rw [atHand_deliverHeader, atHand_insertHeader]
      exact h3

theorem follows_stateHeaderComplete (hs : InStep c .stateHeaderComplete s.atHand p)
    (hstops : ¬StopsEarly .stateHeaderComplete s p) :
    Follows c (headTaken .stateHeaderComplete s p) p (s.stateHeaderComplete p) := by
  have hleft : c.left = s.state.length + s.state.padding := hs.left
  unfold stateHeaderComplete
  by_cases hlength : s.state.length = 0
  · rw [if_neg (not_not.mpr hlength)]
    by_cases hmore : (!hasFlag s.state.flags endHeadersFlag) = true
    · rw [if_pos hmore]
      exact follows_continues hs rfl rfl (if_pos ⟨hlength, hmore⟩)
        ((Bool.not_eq_true' _).mp hmore) hstops
    · have hnone : headTaken .stateHeaderComplete s p = none :=
        headTaken_of_none (by decide) (if_neg fun h => hmore h.2)
      rw [if_neg hmore, hnone]
      extract_lets s1
      have h1 : s1.atHand = s.atHand := by
        dsimp only [s1]
        split
        · rfl
        · exact s.atHand_onHeaderSuccess _
      refine follows_endFrame hs.head ?_ ?_
      · exact hleft.trans (congrArg (fun a => a.length + a.padding) h1).symm
      · exact (congrArg AtHand.length h1).trans hlength
  · have hnone : headTaken .stateHeaderComplete s p = none :=
      headTaken_of_none (by decide) (if_neg fun h => hlength h.1)
    rw [if_pos hlength, hnone]
    have hpos : 0 < s.state.length + s.state.padding := by omega
    refine Follows.pos (.inBlock rfl rfl hs.head hs.left (hs.block rfl) fun _ _ => .inl hpos) rfl
      rfl fun _ => ⟨rfl, fun hbetween => ?_⟩
    exact absurd (hleft.symm.trans hbetween.1) hpos.ne'

theorem follows_stateFieldLen (hs : InStep c .stateFieldLen s.atHand p)
    (hstops : ¬StopsEarly .stateFieldLen s p) :
    Follows c (headTaken .stateFieldLen s p) p (s.stateFieldLen p) := by
  have hleft : c.left = s.state.length + s.state.padding := hs.left
  unfold stateFieldLen
  by_cases hcont : (!hasFlag s.state.flags endHeadersFlag && s.state.length < intOctets) = true
  · rw [if_pos hcont]
    have hmore := (Bool.not_eq_true' _).mp (Bool.and_eq_true_iff.mp hcont).1
    exact follows_continues hs rfl rfl (if_pos hcont) hmore hstops
  · have hnone : headTaken .stateFieldLen s p = none :=
      headTaken_of_none (by decide) (if_neg hcont)
    rw [if_neg hcont, hnone]
    split
    · exact .fail_none s _
    · split
      · exact .again hs (by simp only [List.length_nil]; omega)
      · rename_i ch rest
        split
        · rename_i hint
          have hshort := (parseInt_again hint).2 (List.cons_ne_nil ch rest)
          exact .again hs (by omega)
        · exact .fail_none s _
        · exact .fail_none s _
        · rename_i len used hint
          extract_lets s1 p1
          obtain ⟨hused, hroom, -⟩ := parseInt_octets hint
          have hnext : ∀ (t : KHttp2) (h : Handler), t.atHand = s1.atHand → h.ofHeaders = true →
              h.mayPad = true → h ≠ .stateHeaderBlock →
                Follows c none (ch :: rest) (t, .jump h p1) := by
            intro t h ht hin hpad hne
            exact Follows.jump_drop (by omega) hroom
              (inStep_go hs rfl hin hpad hused ht fun heq => absurd heq hne)
          split
          · exact hnext _ _ rfl rfl rfl (by decide)
          · split
            · exact hnext _ _ rfl rfl rfl (by decide)
            · refine hnext _ _ rfl ?_ ?_ ?_ <;> split <;> decide

/-- The end of the `state_field_*` handlers. -/
theorem follows_fieldNext {h : Handler} {t : KHttp2} (hs : InStep c h s.atHand p)
    (hin : h.ofHeaders = true) (hpad : h.mayPad = true) (hblock : h ≠ .stateHeaderBlock)
    (hinput : continuationInput h s p = s.fieldContinues p) (hstops : ¬StopsEarly h s p)
    (hhand : t.atHand = (s.fieldTake (s.fieldSize p)).atHand)
    (hrest : t.state.fieldRest = (s.fieldTake (s.fieldSize p)).state.fieldRest)
    (hsid : t.state.sid = s.state.sid) :
    Follows c (headTaken h s p) p (t.fieldNext (p.drop (s.fieldSize p)) h) := by
  have hhead : h ≠ .stateHead := by
    rintro rfl
    cases hin
  have hleft : c.left = s.state.length + s.state.padding := hs.left_block hin
  have hsize : s.fieldSize p = min (min p.length s.state.fieldRest) s.state.length := rfl
  have hlengthLeft : t.state.length = s.state.length - s.fieldSize p := congrArg AtHand.length hhand
  have hrestLeft : t.state.fieldRest = s.state.fieldRest - s.fieldSize p := hrest
  have hflags : t.state.flags = s.state.flags := congrArg AtHand.flags hhand
  have hstep : ∀ {h' : Handler} {q : Bytes}, h'.ofHeaders = true → h'.mayPad = true →
      h' ≠ .stateHeaderBlock →
        InStep { c with left := c.left - s.fieldSize p } h' t.atHand q := fun hin' hpad' hne =>
    inStep_go hs hin hin' hpad' (by omega) hhand fun heq => absurd heq hne
  have hfeed : frameFormat.feed { c with left := c.left - s.fieldSize p }
      (p.drop (s.fieldSize p)) = frameFormat.feed c p :=
    RecordStream.Format.feed_drop (by omega) (by omega)
  unfold fieldNext
  split
  · rename_i hdone
    have hnone : headTaken h s p = none := by
      refine headTaken_of_none hhead (hinput.trans (if_neg ?_))
      rintro ⟨hne, -⟩
      exact hne (by omega)
    rw [hnone]
    exact Follows.jump (hstep rfl rfl (by decide)) hfeed rfl
  · rename_i hmoreField
    split
    · rename_i hmore
      have hnone : headTaken h s p = none := by
        refine headTaken_of_none hhead (hinput.trans (if_neg ?_))
        rintro ⟨-, hall, -⟩
        omega
      rw [hnone]
      exact Follows.save (hstep hin hpad hblock) hfeed rfl (.payload (by omega))
    · rename_i hempty
      have hall : s.state.length = s.fieldSize p := by omega
      split
      · rename_i hend
        have hnone : headTaken h s p = none := by
          refine headTaken_of_none hhead (hinput.trans (if_neg ?_))
          rintro ⟨-, -, hflag⟩
          rw [← hflags, hend] at hflag
          cases hflag
        rw [hnone]
        exact .fail_none t _
      · rename_i hend
        have hend : hasFlag s.state.flags endHeadersFlag = false := by
          rw [← hflags]
          exact Bool.eq_false_iff.mpr hend
        have hsome : continuationInput h s p =
            some (s.fieldTake (s.fieldSize p), p.drop (s.fieldSize p)) := by
          refine hinput.trans (if_pos ⟨by omega, hall, ?_⟩)
          rw [hend]
          rfl
        have htaken : headTaken h s p = t.continuationTaken (p.drop (s.fieldSize p)) :=
          (headTaken_of_some hhead hsome).trans (continuationTaken_congr hhand.symm _)
        have hends : ¬t.EndsEmpty (p.drop (s.fieldSize p)) := fun hends =>
          hstops ⟨_, hsome, (endsEmpty_congr hhand hsid _).mp hends⟩
        have hopen : blockOpen c.seen = true := by
          have hflag : s.atHand.flags = s.state.flags := rfl
          rw [hs.block hin, hflag, hend]
          rfl
        have hleft1 : c.left - s.fieldSize p = t.state.length + t.state.padding := by
          have hpadding : t.state.padding = s.state.padding := congrArg AtHand.padding hhand
          omega
        rw [htaken]
        exact .of_feed hfeed rfl (follows_handleContinuation hin hpad hs.head hleft1 hopen
          (hflags ▸ hend) hends)

theorem follows_stateFieldHuff (codes : HuffDecodeCodes) (hs : InStep c .stateFieldHuff s.atHand p)
    (hstops : ¬StopsEarly .stateFieldHuff s p) :
    Follows c (headTaken .stateFieldHuff s p) p (s.stateFieldHuff codes p) := by
  unfold stateFieldHuff
  extract_lets size s1
  have hall : ∀ t : KHttp2, t.atHand = s1.atHand → t.state.fieldRest = s1.state.fieldRest →
      t.state.sid = s.state.sid →
        Follows c (headTaken .stateFieldHuff s p) p (t.fieldNext (p.drop size) .stateFieldHuff) :=
    fun t => follows_fieldNext hs rfl rfl (by decide) rfl hstops
  split
  · exact .fail (hall s1 rfl rfl rfl).taken _
  · exact hall _ rfl rfl rfl

theorem follows_stateFieldRaw (hs : InStep c .stateFieldRaw s.atHand p)
    (hstops : ¬StopsEarly .stateFieldRaw s p) :
    Follows c (headTaken .stateFieldRaw s p) p (s.stateFieldRaw p) :=
  follows_fieldNext hs rfl rfl (by decide) rfl hstops rfl rfl rfl

theorem follows_stateFieldSkip (hs : InStep c .stateFieldSkip s.atHand p)
    (hstops : ¬StopsEarly .stateFieldSkip s p) :
    Follows c (headTaken .stateFieldSkip s p) p (s.stateFieldSkip p) :=
  follows_fieldNext hs rfl rfl (by decide) rfl hstops rfl rfl rfl

/-- A call keeps in step, unless it loses the padding of its frame or stops early. -/
theorem follows_exec (codes : HuffDecodeCodes) {h : Handler} (hs : InStep c h s.atHand p)
    (hloses : ¬LosesPadding h s p) (hstops : ¬StopsEarly h s p) :
    Follows c (headTaken h s p) p (exec codes h s p) := by
  cases h with
  | statePreface => exact follows_statePreface hs
  | statePrefaceEnd => exact follows_statePrefaceEnd hs
  | stateHead => exact follows_stateHead hs
  | stateData => exact follows_stateData hs
  | stateReadData => exact follows_stateReadData hs
  | stateHeaders => exact follows_stateHeaders hs fun h => hloses ⟨rfl, h⟩
  | stateHeaderBlock => exact follows_stateHeaderBlock hs hstops
  | stateProcessHeader => exact follows_stateProcessHeader hs
  | stateHeaderComplete => exact follows_stateHeaderComplete hs hstops
  | stateFieldLen => exact follows_stateFieldLen hs hstops
  | stateFieldHuff => exact follows_stateFieldHuff codes hs hstops
  | stateFieldRaw => exact follows_stateFieldRaw hs hstops
  | stateFieldSkip => exact follows_stateFieldSkip hs hstops
  | statePriority => exact follows_statePriority hs
  | stateRstStream => exact follows_stateRstStream hs
  | stateSettings => exact follows_stateSettings hs
  | stateSettingsParams => exact follows_stateSettingsParams hs
  | statePushPromise =>
    exact Follows.jump_self (.skip hs.head (hs.left_plain rfl rfl) (hs.padding rfl))
  | statePing => exact follows_statePing hs
  | stateGoaway => exact follows_stateGoaway hs
  | stateWindowUpdate => exact follows_stateWindowUpdate hs
  | stateContinuation => exact .fail_none s _
  | stateAltsvc => exact follows_stateAltsvc hs
  | stateSkip => exact follows_stateSkip hs
  | stateComplete => exact follows_stateComplete hs

end KHttp2

end Khttpd
