import Khttpd.Model.KXml

/-!
# What the parser makes of a document

A document is a sequence of tags, pieces of character data and comments, whatever the parser makes
of them. The parser goes through that sequence, but it returns early from some places and passes
over character data in others; what it returns `true` for is told by the sequence alone.
-/

set_option autoImplicit false

namespace Khttpd

/-! ## Documents -/

/-- A piece of a document; the white space before it is left out. -/
inductive XmlToken
  | start (qName : Bytes) (attrs : KXmlAttribute) (single : Bool)
  | finish (qName : Bytes)
  | text (character : Bytes)
  | cdata (character : Bytes)
  | comment

/-- What follows the last piece: white space, text without markup behind it, or something that has
no end. -/
inductive XmlEnding
  | whole (blank : Bytes)
  | text
  | tag
  | cdata
  | comment
  deriving DecidableEq

/-- The first piece of a document, and what follows it. -/
def nextToken (buf : Bytes) : (XmlToken × Bytes) ⊕ XmlEnding :=
  let hot := buf.dropWhile isSpace
  if hot = [] then .inr (.whole buf)
  else if hot.head? = some 60 then
    if (kglString "<![CDATA[").isPrefixOf hot then
      match kglMemstr (kglString "]]>") (hot.drop 9) with
      | none => .inr .cdata
      | some (character, rest) => .inl (.cdata character, rest)
    else if (kglString "<!--").isPrefixOf hot then
      match kglMemstr (kglString "-->") (hot.drop 4) with
      | none => .inr .comment
      | some (_, rest) => .inl (.comment, rest)
    else
      let hot := (hot.drop 1).dropWhile isSpace
      if hot.head? = some 47 then
        match memchr 62 ((hot.drop 1).dropWhile isSpace) with
        | none => .inr .tag
        | some (content, rest) => .inl (.finish (content.takeWhile fun c => !isSpace c), rest)
      else
        match memchr 62 (hot.dropWhile isSpace) with
        | none => .inr .tag
        | some (content, rest) =>
          let content := KXmlParser.splitSingle content
          .inl (.start (content.1.takeWhile fun c => !isSpace c)
            (buildAttribute ((content.1.dropWhile fun c => !isSpace c).drop 1)) content.2, rest)
  else
    match memchr 60 hot with
    | none => .inr .text
    | some (character, rest) => .inl (.text (htmlDecode character), 60 :: rest)

namespace KXmlParser

@[simp] theorem contexts_onCharacter (p : KXmlParser) (character : Bytes) :
    (p.onCharacter character).contexts = p.contexts := by
  unfold onCharacter
  split <;> rfl

@[simp] theorem curContext_onCharacter (p : KXmlParser) (character : Bytes) :
    (p.onCharacter character).curContext = p.curContext := by
  unfold onCharacter
  split <;> rfl

@[simp] theorem state_onCharacter (p : KXmlParser) (character : Bytes) :
    (p.onCharacter character).state = p.state := by
  unfold onCharacter
  split <;> rfl

/-- What the parser does with a piece. -/
def take (p : KXmlParser) (rest : Bytes) : XmlToken → KXmlRound
  | .start qName attrs true =>
    ⟨{ p with
        state := .startElement, hot := rest, curContext := none,
        events := p.events ++ [.startElement qName attrs] ++ [.endElement qName] },
      if p.contexts = [] then some .returned else none⟩
  | .start qName attrs false =>
    ⟨⟨qName :: p.contexts, some qName, .startElement, p.events ++ [.startElement qName attrs],
      rest⟩, none⟩
  | .finish qName =>
    match p.contexts with
    | [] => ⟨{ p with state := .endElement }, some .threw⟩
    | context :: contexts =>
      if context ≠ qName then ⟨{ p with state := .endElement }, some .threw⟩
      else
        ⟨⟨contexts, none, .endElement, p.events ++ [.endElement context], rest⟩, none⟩
  | .text character =>
    if p.state = .startChar then ⟨{ p with hot := p.hot.dropWhile isSpace }, some .returned⟩
    else
      ⟨{ ({ p with state := .startChar } : KXmlParser).onCharacter character with hot := rest },
        none⟩
  | .cdata character =>
    ⟨{ ({ p with state := .startChar } : KXmlParser).onCharacter character with hot := rest }, none⟩
  | .comment => ⟨{ p with hot := rest }, none⟩

theorem round_token {p : KXmlParser} {token : XmlToken} {rest : Bytes}
    (h : nextToken p.hot = .inl (token, rest)) : p.round = p.take rest token := by
  revert h
  unfold nextToken round
  dsimp only
  by_cases hnil : p.hot.dropWhile isSpace = []
  · rw [if_pos hnil]
    intro h
    cases h
  rw [if_neg hnil]
  by_cases hmarkup : (p.hot.dropWhile isSpace).head? = some 60
  · rw [if_pos hmarkup, if_pos hmarkup]
    by_cases hcdata : (kglString "<![CDATA[").isPrefixOf (p.hot.dropWhile isSpace) = true
    · rw [if_pos hcdata, if_pos hcdata]
      unfold onStartChar
      rw [if_pos rfl]
      cases kglMemstr (kglString "]]>") ((p.hot.dropWhile isSpace).drop 9) with
      | none =>
        intro h
        cases h
      | some r =>
        intro h
        cases h
        rfl
    rw [if_neg hcdata, if_neg hcdata]
    by_cases hcomment : (kglString "<!--").isPrefixOf (p.hot.dropWhile isSpace) = true
    · rw [if_pos hcomment, if_pos hcomment]
      cases kglMemstr (kglString "-->") ((p.hot.dropWhile isSpace).drop 4) with
      | none =>
        intro h
        cases h
      | some r =>
        intro h
        cases h
        rfl
    rw [if_neg hcomment, if_neg hcomment]
    by_cases hend : (((p.hot.dropWhile isSpace).drop 1).dropWhile isSpace).head? = some 47
    · rw [if_pos hend, if_pos hend]
      unfold onEndElement
      cases memchr 62
          (((((p.hot.dropWhile isSpace).drop 1).dropWhile isSpace).drop 1).dropWhile isSpace) with
      | none =>
        intro h
        cases h
      | some r =>
        intro h
        cases h
        rfl
    · rw [if_neg hend, if_neg hend]
      unfold onStartElement
      cases memchr 62 ((((p.hot.dropWhile isSpace).drop 1).dropWhile isSpace).dropWhile isSpace) with
      | none =>
        intro h
        cases h
      | some r =>
        intro h
        cases h
        dsimp only
        cases hsingle : (splitSingle r.1).2 with
        | true => rfl
        | false => rfl
  · rw [if_neg hmarkup, if_neg hmarkup]
    cases hlt : memchr 60 (p.hot.dropWhile isSpace) with
    | none =>
      intro h
      cases h
    | some r =>
      intro h
      cases h
      unfold take
      by_cases hstate : p.state = .startChar
      · rw [if_pos hstate]
        dsimp only
        rw [if_pos hstate]
      · rw [if_neg hstate]
        dsimp only
        rw [if_neg hstate]
        unfold onStartChar
        dsimp only
        rw [if_neg Bool.false_ne_true, hlt]

/-- How the parser ends in front of what follows the last piece. -/
def endsWith : XmlEnding → KXmlResult
  | .whole _ => .returned
  | .text => .returned
  | .tag => .threw
  | .cdata => .threw
  | .comment => .undefined

theorem round_ending {p : KXmlParser} {e : XmlEnding} (h : nextToken p.hot = .inr e) :
    p.round.stop = some (endsWith e) ∧ p.round.parser.events = p.events ∧
      (endsWith e = .returned → p.round.parser.hot = p.hot.dropWhile isSpace) := by
  revert h
  unfold nextToken round
  dsimp only
  by_cases hnil : p.hot.dropWhile isSpace = []
  · rw [if_pos hnil, hnil]
    intro h
    cases h
    rw [if_neg (by simp)]
    by_cases hstate : p.state = .startChar
    · rw [if_pos hstate]
      exact ⟨rfl, rfl, fun _ => rfl⟩
    · rw [if_neg hstate]
      exact ⟨rfl, rfl, fun _ => rfl⟩
  rw [if_neg hnil]
  by_cases hmarkup : (p.hot.dropWhile isSpace).head? = some 60
  · rw [if_pos hmarkup, if_pos hmarkup]
    by_cases hcdata : (kglString "<![CDATA[").isPrefixOf (p.hot.dropWhile isSpace) = true
    · rw [if_pos hcdata, if_pos hcdata]
      unfold onStartChar
      rw [if_pos rfl]
      cases kglMemstr (kglString "]]>") ((p.hot.dropWhile isSpace).drop 9) with
      | none =>
        intro h
        cases h
        exact ⟨rfl, rfl, by simp [endsWith]⟩
      | some r =>
        intro h
        cases h
    rw [if_neg hcdata, if_neg hcdata]
    by_cases hcomment : (kglString "<!--").isPrefixOf (p.hot.dropWhile isSpace) = true
    · rw [if_pos hcomment, if_pos hcomment]
      cases kglMemstr (kglString "-->") ((p.hot.dropWhile isSpace).drop 4) with
      | none =>
        intro h
        cases h
        exact ⟨rfl, rfl, by simp [endsWith]⟩
      | some r =>
        intro h
        cases h
    rw [if_neg hcomment, if_neg hcomment]
    by_cases hend : (((p.hot.dropWhile isSpace).drop 1).dropWhile isSpace).head? = some 47
    · rw [if_pos hend, if_pos hend]
      unfold onEndElement
      cases memchr 62
          (((((p.hot.dropWhile isSpace).drop 1).dropWhile isSpace).drop 1).dropWhile isSpace) with
      | none =>
        intro h
        cases h
        exact ⟨rfl, rfl, by simp [endsWith]⟩
      | some r =>
        intro h
        cases h
    · rw [if_neg hend, if_neg hend]
      unfold onStartElement
      cases memchr 62 ((((p.hot.dropWhile isSpace).drop 1).dropWhile isSpace).dropWhile isSpace) with
      | none =>
        intro h
        cases h
        exact ⟨rfl, rfl, by simp [endsWith]⟩
      | some r =>
        intro h
        cases h
  · rw [if_neg hmarkup, if_neg hmarkup]
    cases hlt : memchr 60 (p.hot.dropWhile isSpace) with
    | none =>
      intro h
      cases h
      by_cases hstate : p.state = .startChar
      · rw [if_pos hstate]
        exact ⟨rfl, rfl, fun _ => rfl⟩
      · rw [if_neg hstate]
        unfold onStartChar
        rw [if_neg Bool.false_ne_true, hlt]
        exact ⟨rfl, rfl, fun _ => rfl⟩
    | some r =>
      intro h
      cases h

end KXmlParser

/-- A piece is read. -/
theorem nextToken_length {buf rest : Bytes} {token : XmlToken}
    (h : nextToken buf = .inl (token, rest)) : rest.length < buf.length := by
  -- a parser that goes on after every piece
  have hread : ∀ contexts : List Bytes, ∀ p : KXmlParser, p = ⟨contexts, none, .none, [], buf⟩ →
      p.round = p.take rest token → (p.take rest token).stop = none →
      (p.take rest token).parser.hot = rest → rest.length < buf.length := by
    rintro contexts p rfl hround hstop hhot
    rw [← hround] at hstop hhot
    have := KXmlParser.round_length hstop
    rwa [hhot] at this
  cases token with
  | start qName attrs single =>
    refine hread [[]] _ rfl (KXmlParser.round_token h) ?_ ?_
    · cases single <;> rfl
    · cases single <;> rfl
  | finish qName =>
    refine hread [qName] _ rfl (KXmlParser.round_token h) ?_ ?_
    · simp [KXmlParser.take]
    · simp [KXmlParser.take]
  | text character => exact hread [] _ rfl (KXmlParser.round_token h) rfl rfl
  | cdata character => exact hread [] _ rfl (KXmlParser.round_token h) rfl rfl
  | comment => exact hread [] _ rfl (KXmlParser.round_token h) rfl rfl

/-- The pieces of a document, and what follows the last. -/
def tokens (buf : Bytes) : List XmlToken × XmlEnding :=
  match _h : nextToken buf with
  | .inl (token, rest) => (token :: (tokens rest).1, (tokens rest).2)
  | .inr ending => ([], ending)
termination_by buf.length
decreasing_by exact nextToken_length ‹_›

theorem tokens_inl {buf rest : Bytes} {token : XmlToken} (h : nextToken buf = .inl (token, rest)) :
    tokens buf = (token :: (tokens rest).1, (tokens rest).2) := by
  rw [tokens]
  split
  · rename_i heq
    rw [h] at heq
    cases heq
    rfl
  · rename_i heq
    rw [h] at heq
    cases heq

theorem tokens_inr {buf : Bytes} {ending : XmlEnding} (h : nextToken buf = .inr ending) :
    tokens buf = ([], ending) := by
  rw [tokens]
  split
  · rename_i heq
    rw [h] at heq
    cases heq
  · rename_i heq
    rw [h] at heq
    cases heq
    rfl

theorem nextToken_whole {buf blank : Bytes} (h : nextToken buf = .inr (.whole blank)) :
    blank = buf ∧ buf.dropWhile isSpace = [] := by
  revert h
  unfold nextToken
  dsimp only
  by_cases hnil : buf.dropWhile isSpace = []
  · rw [if_pos hnil]
    intro h
    cases h
    exact ⟨rfl, hnil⟩
  · rw [if_neg hnil]
    intro h
    split_ifs at h <;> split at h <;> cases h

/-- Nothing is read exactly where there is nothing. -/
theorem tokens_eq_nil_iff {buf : Bytes} : tokens buf = ([], .whole []) ↔ buf = [] := by
  constructor
  · intro h
    cases hnext : nextToken buf with
    | inl r =>
      rw [tokens_inl hnext] at h
      cases h
    | inr ending =>
      rw [tokens_inr hnext] at h
      cases h
      exact (nextToken_whole hnext).1.symm
  · rintro rfl
    exact tokens_inr rfl

/-! ## What a document says -/

/-- The events of a document, with these elements open in front of it: character data counts inside
an element only. -/
def reports : List Bytes → List XmlToken → List XmlEvent
  | _, [] => []
  | open_, .start qName attrs true :: ts =>
    .startElement qName attrs :: .endElement qName :: reports open_ ts
  | open_, .start qName attrs false :: ts =>
    .startElement qName attrs :: reports (qName :: open_) ts
  | open_, .finish qName :: ts => .endElement qName :: reports open_.tail ts
  | open_, .text character :: ts =>
    if open_ = [] then reports open_ ts else .startCharacter character :: reports open_ ts
  | open_, .cdata character :: ts =>
    if open_ = [] then reports open_ ts else .startCharacter character :: reports open_ ts
  | open_, .comment :: ts => reports open_ ts

/-- The elements that are open after the events, unless an end does not match. -/
def nest : List Bytes → List XmlEvent → Option (List Bytes)
  | open_, [] => some open_
  | open_, .startElement qName _ :: events => nest (qName :: open_) events
  | open_, .startCharacter _ :: events => nest open_ events
  | [], .endElement _ :: _ => none
  | context :: open_, .endElement qName :: events =>
    if context = qName then nest open_ events else none

/-- Every element that is started is ended, in nested order. -/
def Balanced (events : List XmlEvent) : Prop := nest [] events = some []

/-- What is asserted of a result, in front of these pieces and with these events fired over them: it
is a proper one, and where it is `true`, nothing is left, the events are those of the document and
they end all that is open. -/
structure Answers (open_ : List Bytes) (ts : List XmlToken) (fired : List XmlEvent)
    (out : KXmlParser × KXmlResult) : Prop where
  defined : out.2 ≠ .undefined
  consumed : out.2 = .returned → out.1.hot = []
  reported : out.2 = .returned → fired = reports open_ ts
  nested : out.2 = .returned → nest open_ fired = some []

/-! ## Where the parser is right -/

/-- Where the parser is right about what follows, with these elements open. `direct` says that
no tag has been read since the innermost of them was started, `chars` that the last piece other
than a comment was character data, and `lost` that character data was passed over. -/
def truthful (lost : Bool) (open_ : List Bytes) (direct chars : Bool) :
    List XmlToken → XmlEnding → Bool
  | [], .whole _ => open_.isEmpty && !lost
  | [], .text => false
  | [], .tag => true
  | [], .cdata => true
  | [], .comment => false
  | .start _ _ true :: ts, ending =>
    if open_ = [] then ts.isEmpty && ending == .whole [] && !lost
    else truthful lost open_ false false ts ending
  | .start qName _ false :: ts, ending => truthful lost (qName :: open_) true false ts ending
  | .finish qName :: ts, ending =>
    open_.head? != some qName || truthful lost open_.tail false false ts ending
  | .text _ :: ts, ending =>
    !chars && truthful (lost || (!open_.isEmpty && !direct)) open_ direct true ts ending
  | .cdata _ :: ts, ending =>
    truthful (lost || (!open_.isEmpty && !direct)) open_ direct true ts ending
  | .comment :: ts, ending => truthful lost open_ direct chars ts ending

namespace KXmlParser

/-- Whether the parser is right about what is in front of it. -/
def truthfulFrom (p : KXmlParser) (lost : Bool) (d : List XmlToken × XmlEnding) : Bool :=
  truthful lost p.contexts p.curContext.isSome (p.state = .startChar) d.1 d.2

/-- The run of the parser over these pieces, and the events that it fires there. -/
structure Told (p : KXmlParser) (d : List XmlToken × XmlEnding) (out : KXmlParser × KXmlResult)
    (fired : List XmlEvent) : Prop where
  events : out.1.events = p.events ++ fired
  length : fired.length ≤ (reports p.contexts d.1).length
  answers : Answers p.contexts d.1 fired out ↔ p.truthfulFrom false d = true
  threw : out.2 = .threw ↔ p.truthfulFrom true d = true

/-- A piece is told as the document says. -/
theorem Told.step {p q : KXmlParser} {token : XmlToken} {d : List XmlToken × XmlEnding}
    {out : KXmlParser × KXmlResult} {fired more : List XmlEvent} (h : q.Told d out fired)
    (hevents : q.events = p.events ++ more)
    (hreports : reports p.contexts (token :: d.1) = more ++ reports q.contexts d.1)
    (hnest : nest p.contexts (more ++ fired) = nest q.contexts fired)
    (htruthful : ∀ lost, p.truthfulFrom lost (token :: d.1, d.2) = q.truthfulFrom lost d) :
    p.Told (token :: d.1, d.2) out (more ++ fired) where
  events := by rw [h.events, hevents, List.append_assoc]
  length := by
    have := h.length
    simp only [hreports, List.length_append]
    omega
  answers := by
    rw [htruthful, ← h.answers]
    constructor
    · intro ha
      refine ⟨ha.defined, ha.consumed, fun hret => ?_, fun hret => ?_⟩
      · exact List.append_cancel_left ((ha.reported hret).trans hreports)
      · rw [← hnest]
        exact ha.nested hret
    · intro ha
      refine ⟨ha.defined, ha.consumed, fun hret => ?_, fun hret => ?_⟩
      · rw [ha.reported hret]
        exact hreports.symm
      · rw [hnest]
        exact ha.nested hret
  threw := by rw [htruthful, h.threw]

/-- Character data in an element is passed over. -/
theorem Told.pass {p q : KXmlParser} {token : XmlToken} {character : Bytes}
    {d : List XmlToken × XmlEnding} {out : KXmlParser × KXmlResult} {fired : List XmlEvent}
    (h : q.Told d out fired) (hevents : q.events = p.events)
    (hreports : reports p.contexts (token :: d.1) =
      .startCharacter character :: reports q.contexts d.1)
    (htruthful : ∀ lost, p.truthfulFrom lost (token :: d.1, d.2) = q.truthfulFrom true d) :
    p.Told (token :: d.1, d.2) out fired where
  events := by rw [h.events, hevents]
  length := by
    have := h.length
    simp only [hreports, List.length_cons]
    omega
  answers := by
    rw [htruthful, ← h.threw]
    constructor
    · intro ha
      cases hout : out.2 with
      | returned =>
        -- an event is missing
        have hlength := congrArg List.length ((ha.reported hout).trans hreports)
        have := h.length
        simp only [List.length_cons] at hlength
        omega
      | threw => rfl
      | undefined => exact absurd hout ha.defined
    · intro hthrew
      refine ⟨?_, ?_, ?_, ?_⟩ <;> simp [hthrew]
  threw := by rw [htruthful, h.threw]

/-- Character data: it is told in an element whose tags have all been followed by it, and does not
count outside of the elements. -/
theorem Told.character {p q : KXmlParser} {token : XmlToken} {character : Bytes}
    {d : List XmlToken × XmlEnding} {out : KXmlParser × KXmlResult} {fired : List XmlEvent}
    (h : q.Told d out fired) (hcontext : p.curContext.isSome → p.contexts ≠ [])
    (hcontexts : q.contexts = p.contexts) (hevents : q.events = (p.onCharacter character).events)
    (hreports : reports p.contexts (token :: d.1) =
      if p.contexts = [] then reports p.contexts d.1
      else .startCharacter character :: reports p.contexts d.1)
    (htruthful : ∀ lost, p.truthfulFrom lost (token :: d.1, d.2) =
      q.truthfulFrom (lost || (!p.contexts.isEmpty && !p.curContext.isSome)) d) :
    ∃ fired, p.Told (token :: d.1, d.2) out fired := by
  unfold onCharacter at hevents
  by_cases hopen : p.contexts = []
  · have hnone : ¬p.curContext.isSome = true := fun hsome => hcontext hsome hopen
    rw [if_neg hnone] at hevents
    rw [if_pos hopen] at hreports
    refine ⟨[] ++ fired, h.step (hevents.trans (List.append_nil _).symm) ?_ ?_ fun lost => ?_⟩
    · rw [hreports, hcontexts]
      rfl
    · rw [hcontexts]
      rfl
    · rw [htruthful]
      simp [hopen]
  rw [if_neg hopen] at hreports
  by_cases hdirect : p.curContext.isSome = true
  · rw [if_pos hdirect] at hevents
    refine ⟨[.startCharacter character] ++ fired, h.step hevents ?_ ?_ fun lost => ?_⟩
    · rw [hreports, hcontexts]
      rfl
    · rw [hcontexts]
      simp [nest]
    · rw [htruthful]
      simp [hdirect]
  · rw [if_neg hdirect] at hevents
    refine ⟨fired, h.pass hevents (hreports.trans (by rw [hcontexts])) fun lost => ?_⟩
    have hempty : p.contexts.isEmpty = false := List.isEmpty_eq_false_iff.mpr hopen
    rw [htruthful]
    simp [hempty, hdirect]

/-- The parser stops in front of a piece, or of the end. -/
theorem Told.stop {p : KXmlParser} {d : List XmlToken × XmlEnding}
    {out : KXmlParser × KXmlResult} (hevents : out.1.events = p.events)
    (hanswers : Answers p.contexts d.1 [] out ↔ p.truthfulFrom false d = true)
    (hthrew : out.2 = .threw ↔ p.truthfulFrom true d = true) : p.Told d out [] where
  events := by rw [hevents, List.append_nil]
  length := Nat.zero_le _
  answers := hanswers
  threw := hthrew

/-- The parser throws. -/
theorem Told.throws {p : KXmlParser} {d : List XmlToken × XmlEnding}
    {out : KXmlParser × KXmlResult} (hevents : out.1.events = p.events) (hout : out.2 = .threw)
    (htruthful : ∀ lost, p.truthfulFrom lost d = true) : p.Told d out [] := by
  refine .stop hevents ?_ ?_
  · rw [htruthful]
    refine ⟨fun _ => rfl, fun _ => ⟨?_, ?_, ?_, ?_⟩⟩ <;> simp [hout]
  · rw [htruthful]
    simp [hout]

/-- The parser stops in front of something. -/
theorem Told.fails {p : KXmlParser} {d : List XmlToken × XmlEnding}
    {out : KXmlParser × KXmlResult} (hevents : out.1.events = p.events) (hout : out.2 ≠ .threw)
    (hhot : out.2 = .returned → out.1.hot ≠ [])
    (htruthful : ∀ lost, p.truthfulFrom lost d = false) : p.Told d out [] := by
  refine .stop hevents ?_ ?_
  · rw [htruthful]
    refine ⟨fun ha => ?_, by simp⟩
    cases hr : out.2 with
    | returned => exact absurd (ha.consumed hr) (hhot hr)
    | threw => exact absurd hr hout
    | undefined => exact absurd hr ha.defined
  · rw [htruthful]
    simp [hout]

theorem parseLoop_stop {p : KXmlParser} {result : KXmlResult} (hhot : p.hot ≠ [])
    (h : p.round.stop = some result) : p.parseLoop = (p.round.parser, result) := by
  rw [parseLoop, if_neg hhot]
  split
  · rename_i heq
    rw [h] at heq
    cases heq
    rfl
  · rename_i heq
    rw [h] at heq
    cases heq

theorem parseLoop_go {p : KXmlParser} (hhot : p.hot ≠ []) (h : p.round.stop = none) :
    p.parseLoop = p.round.parser.parseLoop := by
  rw [parseLoop, if_neg hhot]
  split
  · rename_i heq
    rw [h] at heq
    cases heq
  · rfl

/-- A piece that the parser goes on behind. -/
theorem parseLoop_token {p q : KXmlParser} {token : XmlToken} {rest : Bytes}
    (h : nextToken p.hot = .inl (token, rest)) (htake : p.take rest token = ⟨q, none⟩) :
    p.parseLoop = q.parseLoop := by
  have hround := round_token h
  have hhot : p.hot ≠ [] := by
    have := nextToken_length h
    rw [← List.length_pos_iff]
    omega
  rw [parseLoop_go hhot (by rw [hround, htake]), hround, htake]

/-- A piece that the parser stops at. -/
theorem parseLoop_token_stop {p q : KXmlParser} {token : XmlToken} {rest : Bytes}
    {result : KXmlResult} (h : nextToken p.hot = .inl (token, rest))
    (htake : p.take rest token = ⟨q, some result⟩) : p.parseLoop = (q, result) := by
  have hround := round_token h
  have hhot : p.hot ≠ [] := by
    have := nextToken_length h
    rw [← List.length_pos_iff]
    omega
  rw [parseLoop_stop hhot (by rw [hround, htake]), hround, htake]

/-- The parser in front of what follows the last piece. -/
theorem told_ending {p : KXmlParser} {e : XmlEnding} (h : nextToken p.hot = .inr e) :
    p.Told ([], e) p.parseLoop [] := by
  by_cases hhot : p.hot = []
  · have hloop : p.parseLoop = (p, .returned) := by rw [parseLoop, if_pos hhot]
    rw [hhot] at h
    cases h
    rw [hloop]
    refine .stop rfl ?_ ?_
    · unfold truthfulFrom truthful
      constructor
      · intro ha
        have := ha.nested rfl
        simpa [nest] using this
      · intro ht
        exact ⟨by simp, fun _ => hhot, fun _ => rfl, fun _ => by simpa [nest] using ht⟩
    · simp [truthfulFrom, truthful]
  obtain ⟨hstop, hevents, hrest⟩ := round_ending h
  rw [parseLoop_stop hhot hstop]
  cases e with
  | whole blank =>
    refine .stop hevents ?_ ?_
    · unfold truthfulFrom truthful
      constructor
      · intro ha
        have := ha.nested rfl
        simpa [nest] using this
      · intro ht
        refine ⟨by simp [endsWith], fun _ => ?_, fun _ => rfl, fun _ => by simpa [nest] using ht⟩
        exact (hrest rfl).trans (nextToken_whole h).2
    · simp [truthfulFrom, truthful, endsWith]
  | text =>
    refine .fails hevents (by simp [endsWith]) (fun _ => ?_) fun _ => rfl
    show p.round.parser.hot ≠ []
    rw [hrest rfl]
    intro hnil
    unfold nextToken at h
    dsimp only at h
    rw [if_pos hnil] at h
    cases h
  | tag => exact .throws hevents rfl fun _ => rfl
  | cdata => exact .throws hevents rfl fun _ => rfl
  | comment => exact .fails hevents (by simp [endsWith]) (by simp [endsWith]) fun _ => rfl

/-- The run of the parser over a document. -/
theorem exists_told (p : KXmlParser) (hcontext : p.curContext.isSome → p.contexts ≠ []) :
    ∃ fired, p.Told (tokens p.hot) p.parseLoop fired := by
  induction hn : p.hot.length using Nat.strong_induction_on generalizing p
  rename_i n ih
  cases hnext : nextToken p.hot with
  | inr ending =>
    rw [tokens_inr hnext]
    exact ⟨[], told_ending hnext⟩
  | inl r =>
    obtain ⟨token, rest⟩ := r
    have hlength := nextToken_length hnext
    rw [tokens_inl hnext]
    -- what the parser does behind the piece
    have hgo : ∀ q : KXmlParser, p.take rest token = ⟨q, none⟩ → q.hot = rest →
        (q.curContext.isSome → q.contexts ≠ []) →
        ∃ fired, q.Told (tokens rest) p.parseLoop fired := by
      intro q htake hrest hq
      rw [parseLoop_token hnext htake]
      have := ih rest.length (by omega) q hq (by rw [hrest])
      rwa [hrest] at this
    have hstop : ∀ q result, p.take rest token = ⟨q, some result⟩ → p.parseLoop = (q, result) :=
      fun q result htake => parseLoop_token_stop hnext htake
    cases token with
    | start qName attrs single =>
      cases single with
      | false =>
        obtain ⟨fired, h⟩ := hgo _ rfl rfl fun _ => List.cons_ne_nil _ _
        exact ⟨_, h.step rfl rfl rfl fun _ => rfl⟩
      | true =>
        by_cases hopen : p.contexts = []
        · have hloop := hstop _ _ (by rw [take, if_pos hopen])
          rw [hloop]
          refine ⟨[.startElement qName attrs, .endElement qName], ?_, ?_, ?_, ?_⟩
          · rw [List.append_assoc]
            rfl
          · simp [reports]
          · unfold truthfulFrom truthful
            rw [if_pos hopen, Bool.not_false, Bool.and_true]
            constructor
            · intro ha
              have hrest : rest = [] := ha.consumed rfl
              rw [hrest, tokens_inr (show nextToken [] = .inr (.whole []) from rfl)]
              rfl
            · intro ht
              obtain ⟨hts, hending⟩ : (tokens rest).1 = [] ∧ (tokens rest).2 = .whole [] := by
                simpa using ht
              refine ⟨by simp, fun _ => ?_, fun _ => ?_, fun _ => ?_⟩
              · exact tokens_eq_nil_iff.mp (Prod.ext hts hending)
              · rw [hts]
                rfl
              · rw [hopen]
                simp [nest]
          · unfold truthfulFrom truthful
            rw [if_pos hopen]
            simp
        · obtain ⟨fired, h⟩ := hgo _ (by rw [take, if_neg hopen]) rfl (by simp)
          refine ⟨_, h.step (List.append_assoc _ _ _) rfl ?_ fun lost => ?_⟩
          · simp [nest]
          · unfold truthfulFrom
            rw [truthful, if_neg hopen]
            rfl
    | finish qName =>
      cases hopen : p.contexts with
      | nil =>
        rw [hstop _ _ (by rw [take, hopen])]
        refine ⟨[], .throws rfl rfl fun lost => ?_⟩
        unfold truthfulFrom
        rw [hopen]
        rfl
      | cons context contexts =>
        by_cases hname : context = qName
        · obtain ⟨fired, h⟩ := hgo _ (by rw [take, hopen]; exact if_neg (not_not.mpr hname)) rfl
            (by simp)
          refine ⟨_, h.step rfl ?_ ?_ fun lost => ?_⟩
          · rw [hopen, hname]
            rfl
          · rw [hopen]
            simp [nest]
          · unfold truthfulFrom
            rw [hopen, truthful]
            simp [hname]
        · rw [hstop _ _ (by rw [take, hopen]; exact if_pos hname)]
          refine ⟨[], .throws rfl rfl fun lost => ?_⟩
          unfold truthfulFrom
          rw [hopen, truthful]
          simp [hname]
    | text character =>
      by_cases hchars : p.state = .startChar
      · rw [hstop _ _ (by rw [take, if_pos hchars])]
        refine ⟨[], .fails rfl (by simp) (fun _ hnil => ?_) fun lost => ?_⟩
        · -- text is in front of the parser
          unfold nextToken at hnext
          dsimp only at hnext hnil
          rw [if_pos hnil] at hnext
          cases hnext
        · unfold truthfulFrom truthful
          simp [hchars]
      · obtain ⟨fired, h⟩ := hgo _ (by rw [take, if_neg hchars]) rfl (by simpa using hcontext)
        refine h.character hcontext (by simp) ?_ rfl fun lost => ?_
        · unfold onCharacter
          split <;> rfl
        · unfold truthfulFrom
          rw [truthful]
          simp [hchars]
    | cdata character =>
      obtain ⟨fired, h⟩ := hgo _ rfl rfl (by simpa using hcontext)
      refine h.character hcontext (by simp) ?_ rfl fun lost => ?_
      · unfold onCharacter
        split <;> rfl
      · unfold truthfulFrom
        rw [truthful]
        simp
    | comment =>
      obtain ⟨fired, h⟩ := hgo _ rfl rfl hcontext
      exact ⟨_, h.step (List.append_nil _).symm rfl rfl fun _ => rfl⟩

end KXmlParser

/-- The parser is right about a document. -/
def ParsedWhole (buf : Bytes) : Prop :=
  Answers [] (tokens buf).1 (internelParseString buf).1.events (internelParseString buf)

theorem told_internelParseString (buf : Bytes) :
    (KXmlParser.init buf).Told (tokens buf) (internelParseString buf)
      (internelParseString buf).1.events := by
  obtain ⟨fired, h⟩ := KXmlParser.exists_told (KXmlParser.init buf) (by simp [KXmlParser.init])
  have hfired : (internelParseString buf).1.events = fired := h.events
  rw [hfired]
  exact h

/-- **The parser is right exactly about these documents.** -/
theorem parsedWhole_iff (buf : Bytes) :
    ParsedWhole buf ↔ truthful false [] false false (tokens buf).1 (tokens buf).2 = true :=
  (told_internelParseString buf).answers

/-- An element that is not ended, and a comment without an end. -/
theorem parsedWhole_wrong :
    ¬ParsedWhole (kglString "<a>") ∧ ¬ParsedWhole (kglString "<!--") := by
  constructor
  · intro h
    have htoken : nextToken (kglString "<a>") = .inl (.start [97] (buildAttribute []) false, []) :=
      rfl
    have htokens : tokens (kglString "<a>") =
        ([.start [97] (buildAttribute []) false], .whole []) := by
      rw [tokens_inl htoken, tokens_inr (show nextToken [] = .inr (.whole []) from rfl)]
    have htruthful := (told_internelParseString _).answers.mp h
    rw [htokens] at htruthful
    exact Bool.false_ne_true htruthful
  · intro h
    have htruthful := (told_internelParseString _).answers.mp h
    rw [tokens_inr (show nextToken (kglString "<!--") = .inr .comment from rfl)] at htruthful
    exact Bool.false_ne_true htruthful

end Khttpd
