import Mathlib.Data.List.DropRight
import Khttpd.Model.Url

/-!
# Parsing XML

`KXml::internelParseString` with one handler of its events that throws nothing, and the functions
that it reads attributes with. A buffer is given by the string from a pointer on; where the parser
writes a NUL into the buffer, the string ends there.
-/

set_option autoImplicit false

namespace Khttpd

/-! ## Entities -/

/-- `strncasecmp(s, str, n) == 0` with the length `n` of `str`. -/
def startsWithCase (str s : Bytes) : Bool := (str.map toLower).isPrefixOf (s.map toLower)

/-- The entity behind a `&`: what it stands for, and what follows it. -/
def entity (s : Bytes) : Option (Byte × Bytes) :=
  if startsWithCase (kglString "lt;") s then some (60, s.drop 3)
  else if startsWithCase (kglString "gt;") s then some (62, s.drop 3)
  else if startsWithCase (kglString "quot;") s then some (34, s.drop 5)
  else if startsWithCase (kglString "apos;") s then some (39, s.drop 5)
  else if startsWithCase (kglString "amp;") s then some (38, s.drop 4)
  else if s.head? = some 35 then
    (memchr 59 s).map fun r => (UInt8.ofInt (atoi (s.drop 1)), r.2)
  else none

/-- What follows an entity is the end of the string. -/
theorem entity_suffix {s rest : Bytes} {b : Byte} (h : entity s = some (b, rest)) : rest <:+ s := by
  unfold entity at h
  split_ifs at h
  · cases h
    exact List.drop_suffix _ _
  · cases h
    exact List.drop_suffix _ _
  · cases h
    exact List.drop_suffix _ _
  · cases h
    exact List.drop_suffix _ _
  · cases h
    exact List.drop_suffix _ _
  · obtain ⟨r, hr, heq⟩ := Option.map_eq_some_iff.mp h
    cases heq
    obtain ⟨-, hsplit⟩ := memchr_eq_some hr
    exact ⟨r.1 ++ [59], by rw [hsplit, List.append_assoc]; rfl⟩

/-- An entity is longer than what it stands for. -/
theorem entity_length {s rest : Bytes} {c : Byte} (h : entity s = some (c, rest)) :
    rest.length ≤ s.length := (entity_suffix h).length_le

/-- `KXml::htmlDecode`. -/
def htmlDecode : Bytes → Bytes
  | [] => []
  | c :: s =>
    if c = 38 then
      match _h : entity s with
      | some (c, rest) => c :: htmlDecode rest
      | none => c :: htmlDecode s
    else c :: htmlDecode s
termination_by s => s.length
decreasing_by
  · have := entity_length ‹_›
    simp only [List.length_cons]
    omega
  · simp
  · simp

theorem htmlDecode_entity {s rest : Bytes} {b : Byte} (h : entity s = some (b, rest)) :
    htmlDecode (38 :: s) = b :: htmlDecode rest := by
  rw [htmlDecode, if_pos rfl]
  split
  · rename_i heq
    rw [h] at heq
    cases heq
    rfl
  · rename_i heq
    rw [h] at heq
    cases heq

theorem htmlDecode_char {c : Byte} {s : Bytes} (h : c = 38 → entity s = none) :
    htmlDecode (c :: s) = c :: htmlDecode s := by
  rw [htmlDecode]
  split
  · rename_i hc
    split
    · rename_i heq
      rw [h hc] at heq
      cases heq
    · rfl
  · rfl

theorem length_htmlDecode (s : Bytes) : (htmlDecode s).length ≤ s.length := by
  induction hn : s.length using Nat.strong_induction_on generalizing s
  rename_i n ih
  cases s with
  | nil => simp [htmlDecode]
  | cons c s =>
    rw [List.length_cons] at hn
    by_cases hchar : c = 38 → entity s = none
    · have := ih s.length (by omega) s rfl
      rw [htmlDecode_char hchar, List.length_cons]
      omega
    · obtain ⟨rfl, hentity⟩ := Classical.not_imp.mp hchar
      obtain ⟨r, hr⟩ := Option.ne_none_iff_exists'.mp hentity
      have hrest := entity_length hr
      have := ih r.2.length (by omega) r.2 rfl
      rw [htmlDecode_entity hr, List.length_cons]
      omega

/-! ## Attributes -/

/-- `KXmlAttribute`: a map, as the list of its entries in the order of their names. -/
abbrev KXmlAttribute := List (Bytes × Bytes)

/-- `emplace`: an entry that is there stays. -/
def KXmlAttribute.emplace (name value : Bytes) : KXmlAttribute → KXmlAttribute
  | [] => [(name, value)]
  | (key, v) :: attr =>
    if name = key then (key, v) :: attr
    else if name < key then (name, value) :: (key, v) :: attr
    else (key, v) :: KXmlAttribute.emplace name value attr

/-- What `getString` finds: a string without quotes, of which the pointer to the next character is
this far behind the start, or a string in quotes, and what follows it. -/
inductive GotString
  | bare (start : Bytes) (length : ℕ)
  | quoted (start next : Bytes)

/-- `getString` with `skip_slash`, no `ended_chars` and no `end_no_quota_value`. -/
def getString (str : Bytes) : Option GotString :=
  match str.dropWhile isSpace with
  | [] => some (.bare [] 0)
  | endChar :: rest =>
    if endChar ≠ 39 ∧ endChar ≠ 34 then
      some (.bare (endChar :: rest) ((endChar :: rest).takeWhile fun c => !isSpace c).length)
    else (memchr endChar rest).map fun r => .quoted r.1 r.2

/-- What stands at the next character, once `htmlDecode` has worked in the buffer from the start of
the string on. -/
def GotString.next : GotString → Bytes
  | .bare start length =>
    let decoded := htmlDecode start
    if length ≤ decoded.length then cstr (decoded.drop length) else start.drop length
  | .quoted _ next => next

/-- The string that is decoded. -/
def GotString.start : GotString → Bytes
  | .bare start _ => start
  | .quoted start _ => start

theorem length_memchr {c : Byte} {buf : Bytes} {r : Bytes × Bytes} (h : memchr c buf = some r) :
    r.1.length + r.2.length < buf.length := by
  obtain ⟨-, hsplit⟩ := memchr_eq_some h
  rw [hsplit, List.length_append, List.length_cons]
  omega

theorem getString_length {str : Bytes} {got : GotString} (h : getString str = some got) :
    got.next.length ≤ str.length := by
  have hdrop := (List.dropWhile_suffix (l := str) isSpace).length_le
  unfold getString at h
  split at h
  · cases h
    simp [GotString.next, htmlDecode, cstr]
  · rename_i endChar rest heq
    rw [heq] at hdrop
    split_ifs at h
    · cases h
      have hdecode := length_htmlDecode (endChar :: rest)
      unfold GotString.next
      dsimp only
      split
      · have hcstr : (cstr ((htmlDecode (endChar :: rest)).drop
            ((endChar :: rest).takeWhile fun c => !isSpace c).length)).length ≤
            ((htmlDecode (endChar :: rest)).drop
              ((endChar :: rest).takeWhile fun c => !isSpace c).length).length :=
          (List.takeWhile_sublist _).length_le
        rw [List.length_drop] at hcstr
        omega
      · rw [List.length_drop]
        omega
    · obtain ⟨r, hr, rfl⟩ := Option.map_eq_some_iff.mp h
      have := length_memchr hr
      unfold GotString.next
      simp only [List.length_cons] at hdrop
      dsimp only
      omega

/-- The loop of `buildAttribute`. -/
def buildAttributeLoop (buf : Bytes) (attr : KXmlAttribute) : KXmlAttribute :=
  if buf = [] then attr
  else
    match _h : memchr 61 (buf.dropWhile isSpace) with
    | none => attr
    | some (name, rest) =>
      match _h' : getString rest with
      | none => attr
      | some got =>
        buildAttributeLoop got.next
          (attr.emplace (name.rdropWhile isSpace) (cstr (htmlDecode got.start)))
termination_by buf.length
decreasing_by
  have hdrop := (List.dropWhile_suffix (l := buf) isSpace).length_le
  have hname := length_memchr ‹memchr 61 _ = _›
  have hnext := getString_length ‹getString _ = _›
  dsimp only at hname
  omega

/-- `buildAttribute`. -/
def buildAttribute (buf : Bytes) : KXmlAttribute := buildAttributeLoop buf []

/-! ## The scanner -/

/-- The events that a handler of the parser gets, with the fields of the context that it reads. -/
inductive XmlEvent
  | startElement (qName : Bytes) (attrs : KXmlAttribute)
  | startCharacter (character : Bytes)
  | endElement (qName : Bytes)
  deriving DecidableEq

/-- The states of `internelParseString`. -/
inductive KXmlState
  | none
  | startElement
  | startChar
  | endElement
  deriving DecidableEq, Repr

/-- The variables of `internelParseString`, with the names of the contexts, the innermost first, and
the events fired so far. -/
structure KXmlParser where
  contexts : List Bytes
  curContext : Option Bytes
  state : KXmlState
  events : List XmlEvent
  hot : Bytes

/-- How `internelParseString` ends: it returns `true`, throws, or computes with a null pointer. -/
inductive KXmlResult
  | returned
  | threw
  | undefined
  deriving DecidableEq, Repr

/-- What a round of the loop leaves, and how it ends the loop, unless it goes on. -/
structure KXmlRound where
  parser : KXmlParser
  stop : Option KXmlResult

namespace KXmlParser

/-- The variables at the start. -/
def init (buf : Bytes) : KXmlParser := ⟨[], none, .none, [], buf⟩

/-- The content of a tag without the `/` that ends it, and whether there was one. -/
def splitSingle (content : Bytes) : Bytes × Bool :=
  match content.reverse.dropWhile isSpace with
  | 47 :: front => (front.reverse, true)
  | _ => (content, false)

/-- The branch `START_ELEMENT`. -/
def onStartElement (p : KXmlParser) (hot : Bytes) : KXmlRound :=
  match memchr 62 (hot.dropWhile isSpace) with
  | none => ⟨p, some .threw⟩
  | some (content, rest) =>
    let (content, single) := splitSingle content
    let qName := content.takeWhile fun c => !isSpace c
    let attrs := buildAttribute ((content.dropWhile fun c => !isSpace c).drop 1)
    let events := p.events ++ [.startElement qName attrs]
    if single then
      ⟨{ p with events := events ++ [.endElement qName], hot := rest, curContext := none },
        if p.contexts = [] then some .returned else none⟩
    else
      ⟨{ p with
          events := events, hot := rest, curContext := some qName,
          contexts := qName :: p.contexts }, none⟩

/-- The event of character data. -/
def onCharacter (p : KXmlParser) (character : Bytes) : KXmlParser :=
  if p.curContext.isSome then { p with events := p.events ++ [.startCharacter character] } else p

/-- The branch `START_CHAR`. -/
def onStartChar (cdata : Bool) (p : KXmlParser) (hot : Bytes) : KXmlRound :=
  if cdata then
    match kglMemstr (kglString "]]>") hot with
    | none => ⟨p, some .threw⟩
    | some (character, rest) => ⟨{ p.onCharacter character with hot := rest }, none⟩
  else
    match memchr 60 hot with
    | none => ⟨{ p with hot := hot }, some .returned⟩
    | some (character, rest) =>
      ⟨{ p.onCharacter (htmlDecode character) with hot := 60 :: rest }, none⟩

/-- The branch `END_ELEMENT`. -/
def onEndElement (p : KXmlParser) (hot : Bytes) : KXmlRound :=
  match memchr 62 (hot.dropWhile isSpace) with
  | none => ⟨p, some .threw⟩
  | some (content, rest) =>
    let qName := content.takeWhile fun c => !isSpace c
    match p.contexts with
    | [] => ⟨p, some .threw⟩
    | context :: contexts =>
      if context ≠ qName then ⟨p, some .threw⟩
      else
        ⟨{ p with
            contexts := contexts, curContext := none, hot := rest,
            events := p.events ++ [.endElement context] }, none⟩

/-- A round of the loop. -/
def round (p : KXmlParser) : KXmlRound :=
  let hot := p.hot.dropWhile isSpace
  if hot.head? = some 60 then
    if (kglString "<![CDATA[").isPrefixOf hot then
      onStartChar true { p with state := .startChar } (hot.drop 9)
    else if (kglString "<!--").isPrefixOf hot then
      match kglMemstr (kglString "-->") (hot.drop 4) with
      | none => ⟨p, some .undefined⟩
      | some (_, rest) => ⟨{ p with hot := rest }, none⟩
    else
      let hot := (hot.drop 1).dropWhile isSpace
      if hot.head? = some 47 then onEndElement { p with state := .endElement } (hot.drop 1)
      else onStartElement { p with state := .startElement } hot
  else if p.state = .startChar then ⟨{ p with hot := hot }, some .returned⟩
  else onStartChar false { p with state := .startChar } hot

theorem length_memstr {needle buf : Bytes} {r : Bytes × Bytes}
    (h : kglMemstr needle buf = some r) : r.2.length ≤ buf.length := by
  induction buf generalizing r with
  | nil =>
    unfold kglMemstr at h
    split at h
    · cases h
      exact le_rfl
    · cases h
  | cons b buf ih =>
    unfold kglMemstr at h
    split at h
    · cases h
      simp
    · obtain ⟨r', hr', rfl⟩ := Option.map_eq_some_iff.mp h
      have := ih hr'
      simp only [List.length_cons]
      omega

/-- A round that goes on has read something. -/
theorem round_length {p : KXmlParser} (h : p.round.stop = none) :
    p.round.parser.hot.length < p.hot.length := by
  have hdrop := (List.dropWhile_suffix (l := p.hot) isSpace).length_le
  revert h
  unfold round
  dsimp only
  by_cases hmarkup : (p.hot.dropWhile isSpace).head? = some 60
  · rw [if_pos hmarkup]
    obtain ⟨tail, htail⟩ := List.head?_eq_some_iff.mp hmarkup
    rw [htail, List.length_cons] at hdrop
    rw [htail]
    by_cases hcdata : (kglString "<![CDATA[").isPrefixOf (60 :: tail) = true
    · rw [if_pos hcdata]
      unfold onStartChar
      rw [if_pos rfl]
      cases hend : kglMemstr (kglString "]]>") ((60 :: tail).drop 9) with
      | none => simp
      | some r =>
        have hr := length_memstr hend
        rw [List.length_drop, List.length_cons] at hr
        intro _
        show r.2.length < p.hot.length
        omega
    rw [if_neg hcdata]
    by_cases hcomment : (kglString "<!--").isPrefixOf (60 :: tail) = true
    · rw [if_pos hcomment]
      cases hend : kglMemstr (kglString "-->") ((60 :: tail).drop 4) with
      | none => simp
      | some r =>
        have hr := length_memstr hend
        rw [List.length_drop, List.length_cons] at hr
        intro _
        show r.2.length < p.hot.length
        omega
    rw [if_neg hcomment]
    have htag := (List.dropWhile_suffix (l := tail) isSpace).length_le
    rw [List.drop_one, List.tail_cons]
    by_cases hend : (tail.dropWhile isSpace).head? = some 47
    · rw [if_pos hend]
      unfold onEndElement
      dsimp only
      have hname := (List.dropWhile_suffix (l := (tail.dropWhile isSpace).drop 1) isSpace).length_le
      rw [List.length_drop] at hname
      cases hgt : memchr 62 (((tail.dropWhile isSpace).drop 1).dropWhile isSpace) with
      | none => simp
      | some r =>
        have hr := length_memchr hgt
        dsimp only
        cases p.contexts with
        | nil => simp
        | cons context contexts =>
          dsimp only
          split
          · simp
          · intro _
            dsimp only
            omega
    · rw [if_neg hend]
      unfold onStartElement
      have hname := (List.dropWhile_suffix (l := tail.dropWhile isSpace) isSpace).length_le
      cases hgt : memchr 62 ((tail.dropWhile isSpace).dropWhile isSpace) with
      | none => simp
      | some r =>
        have hr := length_memchr hgt
        dsimp only
        split
        · intro _
          dsimp only
          omega
        · intro _
          dsimp only
          omega
  · rw [if_neg hmarkup]
    split
    · simp
    · unfold onStartChar
      simp only [Bool.false_eq_true, if_false]
      cases hlt : memchr 60 (p.hot.dropWhile isSpace) with
      | none => simp
      | some r =>
        have hr := length_memchr hlt
        have hne : r.1 ≠ [] := by
          cases htext : p.hot.dropWhile isSpace with
          | nil =>
            rw [htext] at hlt
            cases hlt
          | cons b text =>
            have hb : b ≠ 60 := fun hb => hmarkup (by rw [htext, hb]; rfl)
            rw [htext, memchr, if_neg hb] at hlt
            obtain ⟨r', -, rfl⟩ := Option.map_eq_some_iff.mp hlt
            exact List.cons_ne_nil _ _
        intro _
        show (60 :: r.2).length < p.hot.length
        have := List.length_pos_iff.mpr hne
        rw [List.length_cons]
        omega

/-- The loop of `internelParseString`. -/
def parseLoop (p : KXmlParser) : KXmlParser × KXmlResult :=
  if p.hot = [] then (p, .returned)
  else
    match _h : p.round.stop with
    | some result => (p.round.parser, result)
    | none => parseLoop p.round.parser
termination_by p.hot.length
decreasing_by exact round_length ‹_›

end KXmlParser

/-- `internelParseString`: the variables at its end, and how it ends. -/
def internelParseString (buf : Bytes) : KXmlParser × KXmlResult :=
  (KXmlParser.init buf).parseLoop

end Khttpd
