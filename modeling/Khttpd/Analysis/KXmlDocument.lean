import Mathlib.Data.List.Nodup
import Khttpd.Analysis.KXmlWrite

/-!
# Reading back a written tree

`KXmlDocument` reads back what `KXmlNode::write` writes as the same tree, wherever the writer's
quoting is the reader's. The events that the parser fires for a written tree are given by the tree
alone, and what the handler builds from them is the tree again, with the siblings of one name under
one key.
-/

set_option autoImplicit false

namespace Khttpd

/-! ## The same tree -/

/-- The bodies that stand under a tag, in their order. -/
def bodysOf (tag : Bytes) (nodes : List KXmlNode) : List KXmlNodeBody :=
  (nodes.filter fun node => node.tag = tag).flatMap KXmlNode.body

/-- The second body says what the first says: the same attributes and text, and under each tag the
same children in the same order, where a tag has one key only. -/
inductive KXmlNodeBody.ReadsAs : KXmlNodeBody → KXmlNodeBody → Prop
  | mk {a b : KXmlNodeBody}
      (attributes : ∀ name ≠ textAsAttributeName,
        a.attributes.lookup name = b.attributes.lookup name)
      (text : a.getText = b.getText)
      (childs : ∀ tag, List.Forall₂ KXmlNodeBody.ReadsAs (bodysOf tag a.childs)
        (bodysOf tag b.childs))
      (keys : (b.childs.map KXmlNode.tag).Nodup) : ReadsAs a b

/-- The second node says what the first says. -/
def KXmlNode.ReadsAs (a b : KXmlNode) : Prop :=
  a.tag = b.tag ∧ List.Forall₂ KXmlNodeBody.ReadsAs a.body b.body

/-- A written tree is read back. -/
def KXmlNode.RoundTrips (skipNs : Bool) (before : Bytes → Bytes → Bool) (t : KXmlNode) : Prop :=
  ∃ root, KXmlDocument.parse skipNs before (t.write 0) = some (some root) ∧ t.ReadsAs root

/-! ## Trees that are written -/

mutual

/-- Something holds of every body of a tree and its tag. -/
def KXmlNode.All (P : Bytes → KXmlNodeBody → Prop) : KXmlNode → Prop
  | .mk tag body => AllBodys P tag body

def AllBodys (P : Bytes → KXmlNodeBody → Prop) (tag : Bytes) : List KXmlNodeBody → Prop
  | [] => True
  | body :: bodys => body.All P tag ∧ AllBodys P tag bodys

def KXmlNodeBody.All (P : Bytes → KXmlNodeBody → Prop) (tag : Bytes) : KXmlNodeBody → Prop
  | .mk attributes childs => P tag (.mk attributes childs) ∧ AllChilds P childs

def AllChilds (P : Bytes → KXmlNodeBody → Prop) : List KXmlNode → Prop
  | [] => True
  | node :: nodes => node.All P ∧ AllChilds P nodes

end

/-- What is built: tags and attribute names are names, an attribute has one value, values and text
are strings, text does not begin with white space, and a child has a body. -/
structure KXmlNodeBody.Proper (tag : Bytes) (body : KXmlNodeBody) : Prop where
  tag : IsName tag
  names : ∀ a ∈ external body.attributes, IsName a.1
  nodup : (body.attributes.map Prod.fst).Nodup
  values : ∀ a ∈ body.attributes, 0 ∉ a.2
  text : ∀ c ∈ body.getText.head?, isSpace c = false
  childs : ∀ node ∈ body.childs, node.body ≠ []

/-- What the writer and the reader agree on: the reader's `skip_ns` cuts nothing from the tag; every
attribute is written, between quotes, without an entity and without the end of a tag; and text, if
there is any, has no children beside it and is written without an entity, or as one CDATA
section. -/
structure KXmlNodeBody.Writable (skipNs : Bool) (tag : Bytes) (body : KXmlNodeBody) : Prop where
  tag : skipNs = true → 58 ∉ tag
  written : ∀ a ∈ body.attributes, a.1 ≠ textAsAttributeName → a.1.head? ≠ some 95
  quotes : ∀ a ∈ external body.attributes, 39 ∉ a.2 ∨ 34 ∉ a.2
  ends : ∀ a ∈ external body.attributes, 62 ∉ a.2
  values : ∀ a ∈ external body.attributes, htmlDecode a.2 = a.2
  childs : body.getText ≠ [] → body.childs = []
  text : 60 ∉ body.getText → htmlDecode body.getText = body.getText
  cdata : 60 ∈ body.getText → ¬kglString "]]>" <:+: body.getText

/-! ## The events of a tree -/

/-- The character data of a body. -/
def textEvents (text : Bytes) : List XmlEvent := if text = [] then [] else [.startCharacter text]

mutual

/-- The events of a child. -/
def KXmlNode.events : KXmlNode → List XmlEvent
  | .mk tag body => eventsOfBodys tag body

def eventsOfBodys (tag : Bytes) : List KXmlNodeBody → List XmlEvent
  | [] => []
  | body :: bodys => body.events tag ++ eventsOfBodys tag bodys

/-- The events of an element. -/
def KXmlNodeBody.events (tag : Bytes) : KXmlNodeBody → List XmlEvent
  | .mk attributes childs =>
    .startElement tag (readAttributes (external attributes) []) :: (eventsOfChilds childs ++
      textEvents ((attributes.lookup textAsAttributeName).getD []) ++ [.endElement tag])

def eventsOfChilds : List KXmlNode → List XmlEvent
  | [] => []
  | node :: nodes => node.events ++ eventsOfChilds nodes

end

theorem events_eq (tag : Bytes) (body : KXmlNodeBody) :
    body.events tag = .startElement tag (readAttributes (external body.attributes) []) ::
      ((eventsOfChilds body.childs ++ textEvents body.getText) ++ [.endElement tag]) := by
  cases body
  rfl

/-! ## The parser over a written tree -/

/-- An element, as `KXmlNode::write` writes it. -/
def KXmlNodeBody.element (level : ℕ) (tag : Bytes) (body : KXmlNodeBody) : Bytes :=
  writeTabs level ++ [60] ++ tag ++ (body.write level).1 ++
    (if (body.write level).2 then [] else [60, 47] ++ tag ++ [62, 10])

/-- What stands between the tags of an element. -/
def contentOf (level : ℕ) (text : Option Bytes) (childs : List KXmlNode) : Bytes :=
  if childs.isEmpty then writeText (text.getD [])
  else
    10 :: writeChilds (level + 1) childs ++
      ((text.elim [] fun text => writeText text ++ [10]) ++ writeTabs level)

section

variable {level : ℕ} {tag : Bytes} {attributes : KXmlAttribute} {childs : List KXmlNode}

theorem element_single
    (h : childs.isEmpty ∧ attributes.lookup textAsAttributeName = none) :
    (KXmlNodeBody.mk attributes childs).element level tag =
      writeTabs level ++ 60 :: (tag ++ attributes.flatMap writeAttribute) ++ [47] ++ [62, 10] := by
  rw [KXmlNodeBody.element, KXmlNodeBody.write, if_pos h]
  simp

theorem element_open
    (h : ¬(childs.isEmpty ∧ attributes.lookup textAsAttributeName = none)) :
    (KXmlNodeBody.mk attributes childs).element level tag =
      writeTabs level ++ 60 :: (tag ++ attributes.flatMap writeAttribute) ++
        62 :: (contentOf level (attributes.lookup textAsAttributeName) childs ++
          60 :: 47 :: tag ++ [62, 10]) := by
  rw [KXmlNodeBody.element, KXmlNodeBody.write, if_neg h]
  unfold contentOf
  cases childs with
  | nil =>
    cases attributes.lookup textAsAttributeName with
    | none => simp [writeChilds, writeText]
    | some text => simp [writeChilds]
  | cons node nodes =>
    cases attributes.lookup textAsAttributeName with
    | none => simp
    | some text => simp

/-- What stands behind the children is written in front of the end tag. -/
theorem contentOf_childs (text : Option Bytes) (h : childs ≠ []) :
    contentOf level text childs = [10] ++ (writeChilds (level + 1) childs ++
      ((text.elim [] fun text => writeText text ++ [10]) ++ writeTabs level)) := by
  unfold contentOf
  rw [if_neg (by simpa using h)]
  simp

end

theorem writeBodys_cons (level : ℕ) (tag : Bytes) (body : KXmlNodeBody)
    (bodys : List KXmlNodeBody) :
    writeBodys level tag (body :: bodys) =
      body.element level tag ++ writeBodys level tag bodys := by
  rw [writeBodys]
  rfl

theorem isSpace_newline : ∀ b ∈ ([10] : Bytes), isSpace b = true := fun b hb => by
  rw [List.mem_singleton.mp hb]
  rfl

theorem isSpace_writeTabs {level : ℕ} : ∀ b ∈ writeTabs level, isSpace b = true := by
  intro b hb
  rw [List.eq_of_mem_replicate hb]
  rfl

namespace KXmlParser

/-- The parser fires these events and goes on in front of what is left, up to white space. -/
def Reaches (p : KXmlParser) (events : List XmlEvent) (rest : Bytes) : Prop :=
  ∃ blank state, (∀ b ∈ blank, isSpace b = true) ∧
    p.parseLoop = KXmlParser.parseLoop ⟨p.contexts, if events = [] then p.curContext else none,
      state, p.events ++ events, blank ++ rest⟩

/-- An end tag of the innermost element. -/
theorem parseLoop_finish {p : KXmlParser} {blank tag rest : Bytes} {contexts : List Bytes}
    (hblank : ∀ b ∈ blank, isSpace b = true) (htag : IsName tag)
    (hcontexts : p.contexts = tag :: contexts)
    (hhot : p.hot = blank ++ 60 :: 47 :: tag ++ 62 :: rest) :
    p.parseLoop = KXmlParser.parseLoop
      ⟨contexts, none, .endElement, p.events ++ [.endElement tag], rest⟩ := by
  have htoken : nextToken p.hot = .inl (.finish tag, rest) := by
    rw [hhot, nextToken_finish hblank htag]
  refine parseLoop_token htoken ?_
  rw [take, hcontexts]
  exact if_neg (not_not.mpr rfl)

/-- Text, and the end tag behind it. -/
theorem parseLoop_text {p : KXmlParser} {tag text : Bytes} (rest : Bytes) {contexts : List Bytes}
    (htag : IsName tag) (hcontexts : p.contexts = tag :: contexts)
    (hcur : p.curContext.isSome = true) (hstate : p.state ≠ .startChar)
    (hhead : ∀ c ∈ text.head?, isSpace c = false)
    (htext : 60 ∉ text → htmlDecode text = text)
    (hcdata : 60 ∈ text → ¬kglString "]]>" <:+: text)
    (hhot : p.hot = writeText text ++ 60 :: 47 :: tag ++ 62 :: rest) :
    p.parseLoop = KXmlParser.parseLoop
      ⟨contexts, none, .endElement, p.events ++ textEvents text ++ [.endElement tag], rest⟩ := by
  by_cases hnil : text = []
  · rw [hnil] at hhot
    rw [parseLoop_finish (List.forall_mem_nil _) htag hcontexts hhot, hnil]
    simp [textEvents]
  have hcharacter : (({ p with state := .startChar } : KXmlParser).onCharacter text).events =
      p.events ++ textEvents text := by
    unfold onCharacter textEvents
    rw [if_pos hcur, if_neg hnil]
  by_cases hlt : 60 ∈ text
  · have hwrite : writeText text = kglString "<![CDATA[" ++ text ++ kglString "]]>" := if_pos hlt
    rw [hwrite, List.append_assoc] at hhot
    have htoken : nextToken p.hot = .inl (.cdata text, 60 :: 47 :: tag ++ 62 :: rest) := by
      rw [hhot]
      exact nextToken_cdata (hcdata hlt) _
    rw [parseLoop_token htoken rfl,
      parseLoop_finish (List.forall_mem_nil _) htag (by simpa using hcontexts) rfl, ← hcharacter]
  · have hwrite : writeText text = text := if_neg hlt
    rw [hwrite, List.append_assoc] at hhot
    have htoken : nextToken p.hot = .inl (.text text, 60 :: 47 :: tag ++ 62 :: rest) := by
      rw [hhot]
      show nextToken (text ++ 60 :: (47 :: tag ++ 62 :: rest)) = _
      rw [nextToken_text hnil hhead hlt, htext hlt]
      rfl
    rw [parseLoop_token htoken (by rw [take, if_neg hstate]),
      parseLoop_finish (List.forall_mem_nil _) htag (by simpa using hcontexts) rfl, ← hcharacter]

theorem Reaches.nil {p : KXmlParser} {blank rest : Bytes} (hblank : ∀ b ∈ blank, isSpace b = true)
    (hhot : p.hot = blank ++ rest) : p.Reaches [] rest := by
  refine ⟨blank, p.state, hblank, ?_⟩
  rw [if_pos rfl, List.append_nil, ← hhot]

theorem Reaches.append {p : KXmlParser} {events events' : List XmlEvent} {middle rest : Bytes}
    (h : p.Reaches events middle)
    (h' : ∀ (q : KXmlParser) (blank : Bytes), (∀ b ∈ blank, isSpace b = true) →
      q.contexts = p.contexts → q.hot = blank ++ middle → q.Reaches events' rest) :
    p.Reaches (events ++ events') rest := by
  obtain ⟨blank, state, hblank, hloop⟩ := h
  obtain ⟨blank', state', hblank', hloop'⟩ := h' ⟨p.contexts, if events = [] then p.curContext
    else none, state, p.events ++ events, blank ++ middle⟩ blank hblank rfl rfl
  refine ⟨blank', state', hblank', hloop.trans (hloop'.trans ?_)⟩
  dsimp only
  rw [List.append_assoc]
  by_cases hnil : events = []
  · simp [hnil]
  · simp [hnil]

end KXmlParser

mutual

/-- The parser over an element: inside of another one, or not a single tag. -/
theorem reaches_element {skipNs : Bool} (level : ℕ) (tag : Bytes) : (body : KXmlNodeBody) →
    body.All KXmlNodeBody.Proper tag → body.All (KXmlNodeBody.Writable skipNs) tag →
    ∀ (p : KXmlParser) (blank rest : Bytes), (∀ b ∈ blank, isSpace b = true) →
    p.contexts ≠ [] ∨ (body.write level).2 = false →
    p.hot = blank ++ (body.element level tag ++ rest) → p.Reaches (body.events tag) rest
  | .mk attributes childs, hproper, hwritable, p, blank, rest, hblank, hinner, hhot => by
    obtain ⟨hbody, hchilds⟩ := hproper
    obtain ⟨hbodyw, hchildsw⟩ := hwritable
    have hnames : ∀ a ∈ external attributes, IsName a.1 := hbody.names
    have hends : ∀ a ∈ external attributes, 62 ∉ writtenValue a.2 := fun a ha hgt =>
      hbodyw.ends a ha (mem_writtenValue hgt)
    have hblank' : ∀ b ∈ blank ++ writeTabs level, isSpace b = true := fun b hb =>
      (List.mem_append.mp hb).elim (hblank b) (isSpace_writeTabs b)
    by_cases hsingle : childs.isEmpty ∧ attributes.lookup textAsAttributeName = none
    · have hend : ((KXmlNodeBody.mk attributes childs).write level).2 = true := by
        rw [KXmlNodeBody.write, if_pos hsingle]
      have hopen : p.contexts ≠ [] := hinner.resolve_right (by simp [hend])
      have htoken : nextToken p.hot = .inl
          (.start tag (readAttributes (external attributes) []) true, 10 :: rest) := by
        rw [← nextToken_element true (10 :: rest) hblank' hbody.tag hnames hends, hhot,
          element_single hsingle]
        simp
      refine ⟨[10], .startElement, isSpace_newline, ?_⟩
      rw [KXmlParser.parseLoop_token htoken (by rw [KXmlParser.take, if_neg hopen]), KXmlNodeBody.events,
        List.isEmpty_iff.mp hsingle.1, hsingle.2]
      simp [eventsOfChilds, textEvents]
    · have htoken : nextToken p.hot = .inl
          (.start tag (readAttributes (external attributes) []) false,
            contentOf level (attributes.lookup textAsAttributeName) childs ++
              60 :: 47 :: tag ++ 62 :: 10 :: rest) := by
        rw [← nextToken_element false _ hblank' hbody.tag hnames hends, hhot,
          element_open hsingle]
        simp
      refine ⟨[10], .endElement, isSpace_newline, ?_⟩
      rw [KXmlParser.parseLoop_token htoken rfl, KXmlNodeBody.events]
      have hgetText : (KXmlNodeBody.mk attributes childs).getText =
          (attributes.lookup textAsAttributeName).getD [] := rfl
      by_cases hnodes : childs = []
      · rw [hnodes, KXmlParser.parseLoop_text (10 :: rest) hbody.tag rfl rfl (by simp)
          (hgetText ▸ hbody.text) (hgetText ▸ hbodyw.text) (hgetText ▸ hbodyw.cdata) rfl]
        simp [eventsOfChilds]
      · have hnotext : (attributes.lookup textAsAttributeName).getD [] = [] := by
          rw [← hgetText]
          by_contra htext
          exact hnodes (hbodyw.childs htext)
        obtain ⟨blank', hspace, hcontent⟩ : ∃ blank', (∀ b ∈ blank', isSpace b = true) ∧
            contentOf level (attributes.lookup textAsAttributeName) childs =
              [10] ++ (writeChilds (level + 1) childs ++ blank') := by
          refine ⟨_, fun b hb => ?_, contentOf_childs _ hnodes⟩
          rcases List.mem_append.mp hb with hb | hb
          · cases htext : attributes.lookup textAsAttributeName with
            | none =>
              rw [htext] at hb
              cases hb
            | some text =>
              rw [htext, Option.getD_some] at hnotext
              rw [htext, hnotext] at hb
              rw [List.mem_singleton.mp hb]
              rfl
          · exact isSpace_writeTabs b hb
        rw [hcontent, hnotext]
        obtain ⟨blank'', state, hspace', hloop⟩ := reaches_childs (level + 1) childs hchilds
          hchildsw ⟨tag :: p.contexts, some tag, .startElement,
            p.events ++ [.startElement tag (readAttributes (external attributes) [])],
            [10] ++ (writeChilds (level + 1) childs ++
              (blank' ++ 60 :: 47 :: tag ++ 62 :: 10 :: rest))⟩ [10] _ isSpace_newline
          (List.cons_ne_nil _ _) rfl
        have hspaces : ∀ b ∈ blank'' ++ blank', isSpace b = true := fun b hb =>
          (List.mem_append.mp hb).elim (hspace' b) (hspace b)
        have hhot' : [10] ++ (writeChilds (level + 1) childs ++ blank') ++ 60 :: 47 :: tag ++
            62 :: 10 :: rest = [10] ++ (writeChilds (level + 1) childs ++
              (blank' ++ 60 :: 47 :: tag ++ 62 :: 10 :: rest)) := by
          simp
        have hend : blank'' ++ (blank' ++ 60 :: 47 :: tag ++ 62 :: 10 :: rest) =
            blank'' ++ blank' ++ 60 :: 47 :: tag ++ 62 :: 10 :: rest := by
          simp
        rw [hhot', hloop, KXmlParser.parseLoop_finish hspaces hbody.tag rfl hend]
        simp [textEvents]

/-- The parser over the bodies of a node. -/
theorem reaches_bodys {skipNs : Bool} (level : ℕ) (tag : Bytes) : (bodys : List KXmlNodeBody) →
    AllBodys KXmlNodeBody.Proper tag bodys → AllBodys (KXmlNodeBody.Writable skipNs) tag bodys →
    ∀ (p : KXmlParser) (blank rest : Bytes), (∀ b ∈ blank, isSpace b = true) →
    p.contexts ≠ [] → p.hot = blank ++ (writeBodys level tag bodys ++ rest) →
    p.Reaches (eventsOfBodys tag bodys) rest
  | [], _, _, _, _, _, hblank, _, hhot => .nil hblank hhot
  | body :: bodys, hproper, hwritable, p, blank, rest, hblank, hcontexts, hhot => by
    rw [writeBodys_cons, List.append_assoc] at hhot
    refine .append (reaches_element level tag body hproper.1 hwritable.1 p blank _ hblank
      (.inl hcontexts) hhot) fun q blank' hblank' hq hhot' => ?_
    exact reaches_bodys level tag bodys hproper.2 hwritable.2 q blank' rest hblank'
      (hq ▸ hcontexts) hhot'

theorem reaches_node {skipNs : Bool} (level : ℕ) : (node : KXmlNode) →
    node.All KXmlNodeBody.Proper → node.All (KXmlNodeBody.Writable skipNs) →
    ∀ (p : KXmlParser) (blank rest : Bytes), (∀ b ∈ blank, isSpace b = true) →
    p.contexts ≠ [] → p.hot = blank ++ (node.write level ++ rest) → p.Reaches node.events rest
  | .mk tag body, hproper, hwritable, p, blank, rest, hblank, hcontexts, hhot =>
    reaches_bodys level tag body hproper hwritable p blank rest hblank hcontexts hhot

/-- The parser over the children of a body. -/
theorem reaches_childs {skipNs : Bool} (level : ℕ) : (nodes : List KXmlNode) →
    AllChilds KXmlNodeBody.Proper nodes → AllChilds (KXmlNodeBody.Writable skipNs) nodes →
    ∀ (p : KXmlParser) (blank rest : Bytes), (∀ b ∈ blank, isSpace b = true) →
    p.contexts ≠ [] → p.hot = blank ++ (writeChilds level nodes ++ rest) →
    p.Reaches (eventsOfChilds nodes) rest
  | [], _, _, _, _, _, hblank, _, hhot => .nil hblank hhot
  | node :: nodes, hproper, hwritable, p, blank, rest, hblank, hcontexts, hhot => by
    rw [writeChilds, List.append_assoc] at hhot
    refine .append (reaches_node level node hproper.1 hwritable.1 p blank _ hblank hcontexts hhot)
      fun q blank' hblank' hq hhot' => ?_
    exact reaches_childs level nodes hproper.2 hwritable.2 q blank' rest hblank'
      (hq ▸ hcontexts) hhot'

end

/-! ## The handler over the events of a tree -/

mutual

/-- What the handler builds for a body. -/
def KXmlNodeBody.rebuilt (before : Bytes → Bytes → Bool) : KXmlNodeBody → KXmlNodeBody
  | .mk attributes childs =>
    let body := addChilds before (.mk (readAttributes (external attributes) []) []) childs
    let text := (attributes.lookup textAsAttributeName).getD []
    if text = [] then body else body.setText text

/-- What the handler makes of a body when it builds these children. -/
def addChilds (before : Bytes → Bytes → Bool) (parent : KXmlNodeBody) :
    List KXmlNode → KXmlNodeBody
  | [] => parent
  | node :: nodes => addChilds before (addNode before parent node) nodes

def addNode (before : Bytes → Bytes → Bool) (parent : KXmlNodeBody) : KXmlNode → KXmlNodeBody
  | .mk tag body => addBodys before parent tag body

def addBodys (before : Bytes → Bytes → Bool) (parent : KXmlNodeBody) (tag : Bytes) :
    List KXmlNodeBody → KXmlNodeBody
  | [] => parent
  | body :: bodys => addBodys before (parent.add before (.mk tag [body.rebuilt before])) tag bodys

end

/-- The text of a body is a string. -/
theorem KXmlNodeBody.Proper.cstr_getText {tag : Bytes} {body : KXmlNodeBody}
    (h : body.Proper tag) : cstr body.getText = body.getText := by
  have hnul : 0 ∉ body.getText := by
    unfold getText
    cases hlookup : body.attributes.lookup textAsAttributeName with
    | none => simp
    | some text =>
      obtain ⟨front, back, hattrs, -⟩ := List.lookup_eq_some_iff.mp hlookup
      exact h.values (textAsAttributeName, text) (by rw [hattrs]; simp)
  unfold cstr
  rw [List.takeWhile_eq_self_iff]
  intro c hc
  simpa using fun h0 : c = 0 => hnul (h0 ▸ hc)

namespace KXmlDocument

variable {skipNs : Bool} {before : Bytes → Bytes → Bool}

theorem tagOf_eq {tag : Bytes} (h : skipNs = true → 58 ∉ tag) : tagOf skipNs tag = tag := by
  unfold tagOf
  cases skipNs with
  | false => rfl
  | true => rw [if_pos rfl, memchr_of_not_mem (h rfl)]

/-- The events of this document, one after the other. -/
def handleAll (skipNs : Bool) (before : Bytes → Bytes → Bool) (doc : KXmlDocument)
    (events : List XmlEvent) : KXmlDocument :=
  events.foldl (handle skipNs before) doc

theorem handleAll_append (doc : KXmlDocument) (events events' : List XmlEvent) :
    handleAll skipNs before doc (events ++ events') =
      handleAll skipNs before (handleAll skipNs before doc events) events' :=
  List.foldl_append

/-- An element is built under the one that is open. -/
theorem handleAll_element {tag parentTag : Bytes} {parent body : KXmlNodeBody}
    {inner : List XmlEvent} {attrs : KXmlAttribute} {doc : KXmlDocument}
    (htag : skipNs = true → 58 ∉ tag) (hdoc : doc.curNode = some (.mk parentTag [parent]))
    (hinner : ∀ d : KXmlDocument, d.curNode = some (.mk tag [.mk attrs []]) →
      handleAll skipNs before d inner = { d with curNode := some (.mk tag [body]) }) :
    handleAll skipNs before doc (.startElement tag attrs :: (inner ++ [.endElement tag])) =
      { doc with curNode := some (.mk parentTag [parent.add before (.mk tag [body])]) } := by
  have hstart : handle skipNs before doc (.startElement tag attrs) =
      { doc with
        parents := doc.curNode :: doc.parents
        curNode := some (.mk tag [.mk attrs []]) } := by
    show startElement skipNs doc tag attrs = _
    rw [startElement, tagOf_eq htag]
  show handleAll skipNs before (handle skipNs before doc (.startElement tag attrs))
    (inner ++ [.endElement tag]) = _
  rw [handleAll_append, hstart, hinner _ rfl, hdoc]
  simp [handleAll, handle, endElement, KXmlNode.append]

end KXmlDocument

mutual

/-- What is between the tags of an element. -/
theorem handleAll_inner {skipNs : Bool} {before : Bytes → Bytes → Bool} (tag : Bytes) :
    (body : KXmlNodeBody) → body.All KXmlNodeBody.Proper tag →
    body.All (KXmlNodeBody.Writable skipNs) tag → ∀ doc : KXmlDocument,
    doc.curNode = some (.mk tag [.mk (readAttributes (external body.attributes) []) []]) →
    KXmlDocument.handleAll skipNs before doc (eventsOfChilds body.childs ++ textEvents body.getText) =
      { doc with curNode := some (.mk tag [body.rebuilt before]) }
  | .mk attributes childs, hproper, hwritable, doc, hdoc => by
    have hchilds := @handleAll_childs skipNs before tag childs hproper.2 hwritable.2 doc _ hdoc
    have htext := hproper.1.cstr_getText
    rw [KXmlDocument.handleAll_append]
    show KXmlDocument.handleAll skipNs before
      (KXmlDocument.handleAll skipNs before doc (eventsOfChilds childs)) _ = _
    rw [hchilds, KXmlNodeBody.rebuilt]
    have hgetText : (KXmlNodeBody.mk attributes childs).getText =
        (attributes.lookup textAsAttributeName).getD [] := rfl
    rw [hgetText] at htext ⊢
    generalize (attributes.lookup textAsAttributeName).getD [] = text at htext ⊢
    unfold textEvents
    by_cases hnil : text = []
    · rw [if_pos hnil, if_pos hnil]
      rfl
    · rw [if_neg hnil, if_neg hnil]
      rw [KXmlDocument.handleAll, List.foldl_cons, List.foldl_nil, KXmlDocument.handle,
        KXmlDocument.startCharacter, htext]
      rfl

theorem handleAll_childs {skipNs : Bool} {before : Bytes → Bytes → Bool} (tag : Bytes) :
    (nodes : List KXmlNode) → AllChilds KXmlNodeBody.Proper nodes →
    AllChilds (KXmlNodeBody.Writable skipNs) nodes → ∀ (doc : KXmlDocument) (body : KXmlNodeBody),
    doc.curNode = some (.mk tag [body]) →
    KXmlDocument.handleAll skipNs before doc (eventsOfChilds nodes) =
      { doc with curNode := some (.mk tag [addChilds before body nodes]) }
  | [], _, _, doc, body, hdoc => by
    rw [addChilds, ← hdoc]
    rfl
  | node :: nodes, hproper, hwritable, doc, body, hdoc => by
    rw [eventsOfChilds, KXmlDocument.handleAll_append,
      handleAll_node tag node hproper.1 hwritable.1 doc body hdoc,
      handleAll_childs tag nodes hproper.2 hwritable.2 _ _ rfl]
    rfl

theorem handleAll_node {skipNs : Bool} {before : Bytes → Bytes → Bool} (tag : Bytes) :
    (node : KXmlNode) → node.All KXmlNodeBody.Proper → node.All (KXmlNodeBody.Writable skipNs) →
    ∀ (doc : KXmlDocument) (body : KXmlNodeBody), doc.curNode = some (.mk tag [body]) →
    KXmlDocument.handleAll skipNs before doc node.events =
      { doc with curNode := some (.mk tag [addNode before body node]) }
  | .mk name bodys, hproper, hwritable, doc, body, hdoc =>
    handleAll_bodys tag name bodys hproper hwritable doc body hdoc

theorem handleAll_bodys {skipNs : Bool} {before : Bytes → Bytes → Bool} (tag name : Bytes) :
    (bodys : List KXmlNodeBody) → AllBodys KXmlNodeBody.Proper name bodys →
    AllBodys (KXmlNodeBody.Writable skipNs) name bodys →
    ∀ (doc : KXmlDocument) (body : KXmlNodeBody), doc.curNode = some (.mk tag [body]) →
    KXmlDocument.handleAll skipNs before doc (eventsOfBodys name bodys) =
      { doc with curNode := some (.mk tag [addBodys before body name bodys]) }
  | [], _, _, doc, body, hdoc => by
    rw [addBodys, ← hdoc]
    rfl
  | b :: bodys, hproper, hwritable, doc, body, hdoc => by
    have htag : skipNs = true → 58 ∉ name := by
      cases b
      exact hwritable.1.1.tag
    rw [eventsOfBodys, KXmlDocument.handleAll_append, events_eq,
      KXmlDocument.handleAll_element htag hdoc fun d hd =>
        handleAll_inner name b hproper.1 hwritable.1 d hd,
      handleAll_bodys tag name bodys hproper.2 hwritable.2 _ _ rfl]
    rfl

end

/-! ## What is built is the same tree -/

theorem bodysOf_append (tag : Bytes) (nodes nodes' : List KXmlNode) :
    bodysOf tag (nodes ++ nodes') = bodysOf tag nodes ++ bodysOf tag nodes' := by
  unfold bodysOf
  rw [List.filter_append, List.flatMap_append]

theorem bodysOf_cons (tag : Bytes) (node : KXmlNode) (nodes : List KXmlNode) :
    bodysOf tag (node :: nodes) =
      (if node.tag = tag then node.body else []) ++ bodysOf tag nodes := by
  unfold bodysOf
  rw [List.filter_cons]
  by_cases h : node.tag = tag
  · simp [h]
  · simp [h]

theorem bodysOf_of_not_mem {tag : Bytes} {nodes : List KXmlNode}
    (h : tag ∉ nodes.map KXmlNode.tag) : bodysOf tag nodes = [] := by
  unfold bodysOf
  rw [List.filter_eq_nil_iff.mpr, List.flatMap_nil]
  intro node hnode
  simpa using fun htag : node.tag = tag => h (List.mem_map.mpr ⟨node, hnode, htag⟩)

/-- A body under a tag that is there stands behind the other ones. -/
theorem bodysOf_map (name : Bytes) (b : KXmlNodeBody) {nodes : List KXmlNode}
    (hkeys : (nodes.map KXmlNode.tag).Nodup) (hmem : name ∈ nodes.map KXmlNode.tag) (tag : Bytes) :
    bodysOf tag (nodes.map fun node =>
      if node.tag = name then .mk node.tag (node.body ++ [b]) else node) =
      bodysOf tag nodes ++ if name = tag then [b] else [] := by
  induction nodes with
  | nil => cases hmem
  | cons node nodes ih =>
    rw [List.map_cons, List.nodup_cons] at hkeys
    rw [List.map_cons, bodysOf_cons, bodysOf_cons]
    by_cases hname : node.tag = name
    · -- the other nodes have other tags
      have hother : name ∉ nodes.map KXmlNode.tag := hname ▸ hkeys.1
      have hmap : nodes.map (fun node =>
          if node.tag = name then KXmlNode.mk node.tag (node.body ++ [b]) else node) = nodes := by
        conv_rhs => rw [← List.map_id nodes]
        refine List.map_congr_left fun n hn => ?_
        exact if_neg fun h => hother (List.mem_map.mpr ⟨n, hn, h⟩)
      rw [hmap, if_pos hname]
      by_cases htag : name = tag
      · rw [if_pos htag, if_pos (hname.trans htag), bodysOf_of_not_mem (htag ▸ hother)]
        simp [hname, htag]
      · have hne : node.tag ≠ tag := fun h => htag (hname.symm.trans h)
        rw [if_neg htag, if_neg hne]
        simp [hne]
    · have hmem' : name ∈ nodes.map KXmlNode.tag := by
        rw [List.map_cons, List.mem_cons] at hmem
        exact hmem.resolve_left fun h => hname h.symm
      rw [if_neg hname, ih hkeys.2 hmem', List.append_assoc]

/-- A body with more children, under keys of their own. -/
structure KXmlNodeBody.Extends (parent body : KXmlNodeBody) (more : Bytes → List KXmlNodeBody) :
    Prop where
  attributes : body.attributes = parent.attributes
  keys : (body.childs.map KXmlNode.tag).Nodup
  childs : ∀ tag, bodysOf tag body.childs = bodysOf tag parent.childs ++ more tag

/-- A body that is added stands behind those of its tag. -/
theorem extends_add (before : Bytes → Bytes → Bool) (name : Bytes) (b : KXmlNodeBody)
    {parent : KXmlNodeBody} (hkeys : (parent.childs.map KXmlNode.tag).Nodup) :
    parent.Extends (parent.add before (.mk name [b])) fun tag =>
      if name = tag then [b] else [] := by
  obtain ⟨attributes, childs⟩ := parent
  rw [KXmlNodeBody.childs_mk] at hkeys
  by_cases hany : childs.any (fun node => node.tag = name) = true
  · have hadd : (KXmlNodeBody.mk attributes childs).add before (.mk name [b]) =
        .mk attributes (childs.map fun node =>
          if node.tag = name then .mk node.tag (node.body ++ [b]) else node) := if_pos hany
    have hmem : name ∈ childs.map KXmlNode.tag := by
      obtain ⟨node, hnode, htag⟩ := List.any_eq_true.mp hany
      exact List.mem_map.mpr ⟨node, hnode, of_decide_eq_true htag⟩
    have htags : childs.map (KXmlNode.tag ∘ fun node =>
        if node.tag = name then KXmlNode.mk node.tag (node.body ++ [b]) else node) =
        childs.map KXmlNode.tag := by
      refine List.map_congr_left fun node _ => ?_
      rw [Function.comp_apply]
      split <;> rfl
    rw [hadd]
    refine ⟨rfl, ?_, bodysOf_map name b hkeys hmem⟩
    rw [KXmlNodeBody.childs_mk, List.map_map]
    exact htags ▸ hkeys
  · have hadd : (KXmlNodeBody.mk attributes childs).add before (.mk name [b]) =
        .mk attributes (childs.takeWhile (fun node => before node.tag name) ++
          KXmlNode.mk name [b] :: childs.dropWhile fun node => before node.tag name) := if_neg hany
    have hmem : name ∉ childs.map KXmlNode.tag := by
      intro h
      obtain ⟨node, hnode, htag⟩ := List.mem_map.mp h
      exact hany (List.any_eq_true.mpr ⟨node, hnode, decide_eq_true htag⟩)
    have hsplit := List.takeWhile_append_dropWhile (p := fun node : KXmlNode => before node.tag name)
      (l := childs)
    rw [hadd]
    refine ⟨rfl, ?_, fun tag => ?_⟩
    · rw [KXmlNodeBody.childs_mk, List.map_append, List.map_cons, List.nodup_middle,
        ← List.map_append, hsplit, List.nodup_cons]
      exact ⟨hmem, hkeys⟩
    · rw [KXmlNodeBody.childs_mk, KXmlNodeBody.childs_mk, bodysOf_append, bodysOf_cons]
      by_cases htag : name = tag
      · have hnil : bodysOf tag childs = [] := bodysOf_of_not_mem (htag ▸ hmem)
        have hparts := hnil
        rw [← hsplit, bodysOf_append, List.append_eq_nil_iff] at hparts
        have heq : (KXmlNode.mk name [b]).tag = tag := htag
        rw [hparts.1, hparts.2, hnil, if_pos heq, if_pos htag]
        rfl
      · have hne : ¬(KXmlNode.mk name [b]).tag = tag := htag
        rw [if_neg hne, if_neg htag, List.nil_append, List.append_nil, ← bodysOf_append, hsplit]

theorem KXmlNodeBody.Extends.trans {a b c : KXmlNodeBody} {more more' : Bytes → List KXmlNodeBody}
    (h : a.Extends b more) (h' : b.Extends c more') : a.Extends c fun tag => more tag ++ more' tag where
  attributes := h'.attributes.trans h.attributes
  keys := h'.keys
  childs tag := by rw [h'.childs, h.childs, List.append_assoc]

theorem extends_addBodys (before : Bytes → Bytes → Bool) (name : Bytes)
    (bodys : List KXmlNodeBody) {parent : KXmlNodeBody}
    (hkeys : (parent.childs.map KXmlNode.tag).Nodup) :
    parent.Extends (addBodys before parent name bodys) fun tag =>
      if name = tag then bodys.map (KXmlNodeBody.rebuilt before) else [] := by
  induction bodys generalizing parent with
  | nil => exact ⟨rfl, hkeys, fun tag => by simp [addBodys]⟩
  | cons body bodys ih =>
    rw [addBodys]
    have hadd := extends_add before name (body.rebuilt before) hkeys
    have h := hadd.trans (ih hadd.keys)
    refine ⟨h.attributes, h.keys, fun tag => ?_⟩
    rw [h.childs]
    split <;> rfl

theorem extends_addChilds (before : Bytes → Bytes → Bool) (nodes : List KXmlNode)
    (parent : KXmlNodeBody) (hkeys : (parent.childs.map KXmlNode.tag).Nodup) :
    parent.Extends (addChilds before parent nodes) fun tag =>
      (bodysOf tag nodes).map (KXmlNodeBody.rebuilt before) := by
  induction nodes generalizing parent with
  | nil => exact ⟨rfl, hkeys, fun tag => by simp [addChilds, bodysOf]⟩
  | cons node nodes ih =>
    obtain ⟨name, bodys⟩ := node
    rw [addChilds, addNode]
    have hadd := extends_addBodys before name bodys hkeys
    have h := hadd.trans (ih _ hadd.keys)
    refine ⟨h.attributes, h.keys, fun tag => ?_⟩
    rw [h.childs, bodysOf_cons, List.map_append]
    by_cases htag : name = tag
    · simp [htag]
    · simp [htag]

/-! ### Attributes that are read -/

/-- What `emplace` leaves at a name. -/
theorem lookup_emplace {attr : KXmlAttribute} {name : Bytes} (h : attr.lookup name = none)
    (value n : Bytes) :
    (attr.emplace name value).lookup n = if n = name then some value else attr.lookup n := by
  induction attr with
  | nil =>
    rw [KXmlAttribute.emplace, List.lookup_singleton]
    simp
  | cons e attr ih =>
    obtain ⟨key, v⟩ := e
    rw [List.lookup_cons] at h
    have hkey : name ≠ key := by
      rintro rfl
      simp at h
    have hne : (name == key) = false := beq_eq_false_iff_ne.mpr hkey
    rw [hne] at h
    rw [KXmlAttribute.emplace, if_neg hkey]
    by_cases hless : name < key
    · rw [if_pos hless, List.lookup_cons]
      by_cases hn : n = name
      · simp [hn]
      · rw [if_neg hn, beq_eq_false_iff_ne.mpr hn]
    · rw [if_neg hless, List.lookup_cons, List.lookup_cons, ih h]
      by_cases hn : n = key
      · have hname : n ≠ name := fun h => hkey (h.symm.trans hn)
        rw [if_neg hname, beq_iff_eq.mpr hn, if_neg hname]
      · rw [beq_eq_false_iff_ne.mpr hn]

/-- What is read of an attribute that is written. -/
def readAttribute (a : Bytes × Bytes) : Bytes × Bytes := (a.1, cstr (htmlDecode (writtenValue a.2)))

/-- What is read of written attributes of different names. -/
theorem lookup_readAttributes {attributes attr : KXmlAttribute}
    (hnodup : (attributes.map Prod.fst).Nodup)
    (hnew : ∀ name ∈ attributes.map Prod.fst, attr.lookup name = none) (n : Bytes) :
    (readAttributes attributes attr).lookup n =
      ((attributes.map readAttribute).lookup n).or (attr.lookup n) := by
  induction attributes generalizing attr with
  | nil => rfl
  | cons a attributes ih =>
    rw [List.map_cons, List.nodup_cons] at hnodup
    have hname := hnew a.1 List.mem_cons_self
    have hread : readAttributes (a :: attributes) attr =
        readAttributes attributes (attr.emplace a.1 (cstr (htmlDecode (writtenValue a.2)))) := rfl
    have hnew' : ∀ name ∈ attributes.map Prod.fst,
        (attr.emplace a.1 (cstr (htmlDecode (writtenValue a.2)))).lookup name = none := by
      intro name hmem
      have hne : name ≠ a.1 := fun h => hnodup.1 (h ▸ hmem)
      rw [lookup_emplace hname, if_neg hne]
      exact hnew name (List.mem_cons_of_mem _ hmem)
    rw [hread, ih hnodup.2 hnew', lookup_emplace hname, List.map_cons, List.lookup_cons]
    by_cases hn : n = a.1
    · have hrest : (attributes.map readAttribute).lookup n = none := by
        rw [List.lookup_eq_none_iff]
        rintro b hb
        obtain ⟨c, hc, rfl⟩ := List.mem_map.mp hb
        rw [bne_iff_ne]
        intro h
        exact hnodup.1 (List.mem_map.mpr ⟨c, hc, h.symm.trans hn⟩)
      have hbeq : (n == (readAttribute a).1) = true := beq_iff_eq.mpr hn
      rw [hrest, if_pos hn, hbeq]
      rfl
    · have hbeq : (n == (readAttribute a).1) = false := beq_eq_false_iff_ne.mpr hn
      rw [if_neg hn, hbeq]

theorem lookup_map_set (key text : Bytes) (attributes : KXmlAttribute) (n : Bytes) :
    (attributes.map fun a => if a.1 = key then (a.1, text) else a).lookup n =
      if n = key then (attributes.lookup n).map fun _ => text else attributes.lookup n := by
  induction attributes with
  | nil => simp
  | cons a attributes ih =>
    obtain ⟨name, value⟩ := a
    rw [List.map_cons]
    by_cases hname : name = key
    · rw [if_pos hname, List.lookup_cons, List.lookup_cons, ih]
      by_cases hn : n = name
      · rw [beq_iff_eq.mpr hn, if_pos (hn.trans hname), if_pos (hn.trans hname)]
        rfl
      · rw [beq_eq_false_iff_ne.mpr hn]
    · rw [if_neg hname, List.lookup_cons, List.lookup_cons, ih]
      by_cases hn : n = name
      · have hkey : n ≠ key := fun h => hname (hn.symm.trans h)
        rw [beq_iff_eq.mpr hn, if_neg hkey, if_neg hkey]
      · rw [beq_eq_false_iff_ne.mpr hn]

/-- The text is set, and the rest stays. -/
theorem setText_spec (text : Bytes) (body : KXmlNodeBody) :
    (body.setText text).getText = text ∧ (body.setText text).childs = body.childs ∧
      ∀ name ≠ textAsAttributeName,
        (body.setText text).attributes.lookup name = body.attributes.lookup name := by
  obtain ⟨attributes, childs⟩ := body
  unfold KXmlNodeBody.getText
  by_cases hthere : (attributes.lookup textAsAttributeName).isSome = true
  · have hset : (KXmlNodeBody.mk attributes childs).setText text = .mk (attributes.map fun a =>
        if a.1 = textAsAttributeName then (a.1, text) else a) childs := if_pos hthere
    obtain ⟨old, hold⟩ := Option.isSome_iff_exists.mp hthere
    rw [hset]
    refine ⟨?_, rfl, fun name hname => ?_⟩
    · rw [KXmlNodeBody.attributes_mk, lookup_map_set, if_pos rfl, hold]
      rfl
    · rw [KXmlNodeBody.attributes_mk, lookup_map_set, if_neg hname]
      rfl
  · have hset : (KXmlNodeBody.mk attributes childs).setText text =
        .mk (attributes.emplace textAsAttributeName text) childs := if_neg hthere
    have hnone : attributes.lookup textAsAttributeName = none :=
      Option.not_isSome_iff_eq_none.mp hthere
    rw [hset]
    refine ⟨?_, rfl, fun name hname => ?_⟩
    · rw [KXmlNodeBody.attributes_mk, lookup_emplace hnone, if_pos rfl]
      rfl
    · rw [KXmlNodeBody.attributes_mk, lookup_emplace hnone, if_neg hname]
      rfl

/-! ### Bodies that are read -/

theorem lookup_external {attributes : KXmlAttribute} {n : Bytes} (hn : n.head? ≠ some 95) :
    (external attributes).lookup n = attributes.lookup n := by
  induction attributes with
  | nil => rfl
  | cons a attributes ih =>
    by_cases hexternal : a.1.head? = some 95
    · have hne : n ≠ a.1 := fun h => hn (h ▸ hexternal)
      rw [external_cons_of_neg hexternal, ih, List.lookup_cons, beq_eq_false_iff_ne.mpr hne]
    · rw [external_cons_of_pos hexternal, List.lookup_cons, List.lookup_cons, ih]

theorem lookup_internal {attributes : KXmlAttribute} {n : Bytes} (hn : n.head? = some 95) :
    (external attributes).lookup n = none := by
  rw [List.lookup_eq_none_iff]
  intro a ha
  have hexternal := (List.mem_filter.mp ha).2
  rw [bne_iff_ne]
  rintro rfl
  simp [hn] at hexternal

theorem lookup_map_readAttribute (attributes : KXmlAttribute) (n : Bytes) :
    (attributes.map readAttribute).lookup n =
      (attributes.lookup n).map fun value => cstr (htmlDecode (writtenValue value)) := by
  induction attributes with
  | nil => rfl
  | cons a attributes ih =>
    obtain ⟨name, value⟩ := a
    rw [List.map_cons, readAttribute, List.lookup_cons, List.lookup_cons, ih]
    by_cases hn : n = name
    · rw [beq_iff_eq.mpr hn]
      rfl
    · rw [beq_eq_false_iff_ne.mpr hn]

/-- What is read of the attributes of a body. -/
theorem lookup_attributes {tag : Bytes} {body : KXmlNodeBody} (h : body.Proper tag) (n : Bytes) :
    (readAttributes (external body.attributes) []).lookup n =
      ((external body.attributes).lookup n).map fun value =>
        cstr (htmlDecode (writtenValue value)) := by
  have hnodup : ((external body.attributes).map Prod.fst).Nodup :=
    h.nodup.sublist (List.filter_sublist.map Prod.fst)
  rw [lookup_readAttributes hnodup (fun _ _ => rfl), lookup_map_readAttribute]
  simp

/-- The attributes and the children are no text. -/
theorem getText_addChilds (before : Bytes → Bytes → Bool) {tag : Bytes} {body : KXmlNodeBody}
    (h : body.Proper tag) : (addChilds before
      (.mk (readAttributes (external body.attributes) []) []) body.childs).getText = [] := by
  have hread := lookup_attributes h textAsAttributeName
  rw [lookup_internal rfl] at hread
  have hext := extends_addChilds before body.childs
    (.mk (readAttributes (external body.attributes) []) []) List.nodup_nil
  rw [KXmlNodeBody.getText, hext.attributes]
  exact congrArg (·.getD []) hread

/-- Written attributes are read as they are. -/
theorem lookup_attributes_writable {skipNs : Bool} {tag : Bytes} {body : KXmlNodeBody}
    (h : body.Proper tag) (hwritable : body.Writable skipNs tag) {n : Bytes}
    (hn : n ≠ textAsAttributeName) :
    (readAttributes (external body.attributes) []).lookup n = body.attributes.lookup n := by
  rw [lookup_attributes h]
  by_cases hinternal : n.head? = some 95
  · rw [lookup_internal hinternal]
    cases hlookup : body.attributes.lookup n with
    | none => rfl
    | some value =>
      obtain ⟨front, back, hattrs, -⟩ := List.lookup_eq_some_iff.mp hlookup
      exact absurd hinternal (hwritable.written (n, value) (by rw [hattrs]; simp) hn)
  · rw [lookup_external hinternal]
    cases hlookup : body.attributes.lookup n with
    | none => rfl
    | some value =>
      obtain ⟨front, back, hattrs, -⟩ := List.lookup_eq_some_iff.mp hlookup
      have hmem : (n, value) ∈ body.attributes := by
        rw [hattrs]
        simp
      have hexternal : (n, value) ∈ external body.attributes :=
        List.mem_filter.mpr ⟨hmem, by simpa using hinternal⟩
      have hquotes : ¬(39 ∈ value ∧ 34 ∈ value) := fun hboth =>
        (hwritable.quotes _ hexternal).elim (fun h => h hboth.1) fun h => h hboth.2
      have hwritten : writtenValue value = value := if_neg hquotes
      have hcstr : cstr value = value := by
        unfold cstr
        rw [List.takeWhile_eq_self_iff]
        intro c hc
        simpa using fun h0 : c = 0 => h.values _ hmem (h0 ▸ hc)
      rw [Option.map_some, hwritten, hwritable.values _ hexternal, hcstr]

mutual

/-- What is built for a body says what the body says. -/
theorem readsAs_rebuilt {skipNs : Bool} (before : Bytes → Bytes → Bool) (tag : Bytes) :
    (body : KXmlNodeBody) → body.All KXmlNodeBody.Proper tag →
    body.All (KXmlNodeBody.Writable skipNs) tag → body.ReadsAs (body.rebuilt before)
  | .mk attributes childs, hproper, hwritable => by
    have hchilds := readsAs_childs before childs hproper.2 hwritable.2
    have hlookup := fun n hn => lookup_attributes_writable (n := n) hproper.1 hwritable.1 hn
    rw [KXmlNodeBody.attributes_mk] at hlookup
    have hext := extends_addChilds before childs
      (.mk (readAttributes (external attributes) []) []) List.nodup_nil
    have hnotext := getText_addChilds before hproper.1
    rw [KXmlNodeBody.attributes_mk, KXmlNodeBody.childs_mk] at hnotext
    rw [KXmlNodeBody.rebuilt]
    generalize addChilds before (.mk (readAttributes (external attributes) []) []) childs = built
      at hext hnotext ⊢
    have hgetText : (KXmlNodeBody.mk attributes childs).getText =
        (attributes.lookup textAsAttributeName).getD [] := rfl
    by_cases hnil : (attributes.lookup textAsAttributeName).getD [] = []
    · rw [if_pos hnil]
      refine .mk (fun n hn => ?_) ?_ (fun tag => ?_) hext.keys
      · rw [hext.attributes]
        exact (hlookup n hn).symm
      · rw [hgetText, hnil, hnotext]
      · rw [hext.childs]
        exact hchilds tag
    · obtain ⟨htext, hsame, hothers⟩ :=
        setText_spec ((attributes.lookup textAsAttributeName).getD []) built
      rw [if_neg hnil]
      refine .mk (fun n hn => ?_) ?_ (fun tag => ?_) ?_
      · rw [hothers n hn, hext.attributes]
        exact (hlookup n hn).symm
      · rw [hgetText, htext]
      · rw [hsame, hext.childs]
        exact hchilds tag
      · rw [hsame]
        exact hext.keys

theorem readsAs_childs {skipNs : Bool} (before : Bytes → Bytes → Bool) :
    (nodes : List KXmlNode) → AllChilds KXmlNodeBody.Proper nodes →
    AllChilds (KXmlNodeBody.Writable skipNs) nodes → ∀ tag,
    List.Forall₂ KXmlNodeBody.ReadsAs (bodysOf tag nodes)
      ((bodysOf tag nodes).map (KXmlNodeBody.rebuilt before))
  | [], _, _, _ => .nil
  | node :: nodes, hproper, hwritable, tag => by
    have hnode := readsAs_node before node hproper.1 hwritable.1
    have hnodes := readsAs_childs before nodes hproper.2 hwritable.2 tag
    rw [bodysOf_cons, List.map_append]
    refine List.rel_append ?_ hnodes
    split
    · exact hnode
    · exact .nil

theorem readsAs_node {skipNs : Bool} (before : Bytes → Bytes → Bool) :
    (node : KXmlNode) → node.All KXmlNodeBody.Proper → node.All (KXmlNodeBody.Writable skipNs) →
    List.Forall₂ KXmlNodeBody.ReadsAs node.body (node.body.map (KXmlNodeBody.rebuilt before))
  | .mk tag bodys, hproper, hwritable => readsAs_bodys before tag bodys hproper hwritable

theorem readsAs_bodys {skipNs : Bool} (before : Bytes → Bytes → Bool) (tag : Bytes) :
    (bodys : List KXmlNodeBody) → AllBodys KXmlNodeBody.Proper tag bodys →
    AllBodys (KXmlNodeBody.Writable skipNs) tag bodys →
    List.Forall₂ KXmlNodeBody.ReadsAs bodys (bodys.map (KXmlNodeBody.rebuilt before))
  | [], _, _ => .nil
  | body :: bodys, hproper, hwritable =>
    .cons (readsAs_rebuilt before tag body hproper.1 hwritable.1)
      (readsAs_bodys before tag bodys hproper.2 hwritable.2)

end

/-! ## The whole document -/

/-- White space is passed over at the end. -/
theorem KXmlParser.parseLoop_blank {p : KXmlParser} (h : ∀ b ∈ p.hot, isSpace b = true) :
    p.parseLoop.2 = .returned ∧ p.parseLoop.1.events = p.events := by
  have hnil : p.hot.dropWhile isSpace = [] := List.dropWhile_eq_nil_iff.mpr h
  by_cases hhot : p.hot = []
  · have hloop : p.parseLoop = (p, .returned) := by rw [parseLoop, if_pos hhot]
    rw [hloop]
    exact ⟨rfl, rfl⟩
  · have hnext : nextToken p.hot = .inr (.whole p.hot) := by
      unfold nextToken
      dsimp only
      rw [if_pos hnil]
    obtain ⟨hstop, hevents, -⟩ := round_ending hnext
    rw [parseLoop_stop hhot hstop]
    exact ⟨rfl, hevents⟩

/-- The parser over a written document. -/
theorem internelParseString_element {skipNs : Bool} {tag : Bytes} {body : KXmlNodeBody}
    (hproper : body.All KXmlNodeBody.Proper tag)
    (hwritable : body.All (KXmlNodeBody.Writable skipNs) tag) :
    (internelParseString (body.element 0 tag)).2 = .returned ∧
      (internelParseString (body.element 0 tag)).1.events = body.events tag := by
  unfold internelParseString
  by_cases hend : (body.write 0).2 = false
  · obtain ⟨blank, state, hblank, hloop⟩ := reaches_element 0 tag body hproper hwritable
      (KXmlParser.init (body.element 0 tag)) [] [] (by simp) (.inr hend) (by
        rw [List.append_nil]
        rfl)
    have hdone := KXmlParser.parseLoop_blank (p := ⟨[], if body.events tag = [] then none else none,
      state, [] ++ body.events tag, blank ++ []⟩) (by simpa using hblank)
    rw [hloop]
    exact hdone
  · obtain ⟨attributes, childs⟩ := body
    have hsingle : childs.isEmpty ∧ attributes.lookup textAsAttributeName = none := by
      by_contra hopen
      rw [KXmlNodeBody.write, if_neg hopen] at hend
      exact hend rfl
    have hnames : ∀ a ∈ external attributes, IsName a.1 := hproper.1.names
    have hends : ∀ a ∈ external attributes, 62 ∉ writtenValue a.2 := fun a ha hgt =>
      hwritable.1.ends a ha (mem_writtenValue hgt)
    have htoken : nextToken (KXmlParser.init ((KXmlNodeBody.mk attributes childs).element 0 tag)).hot =
        .inl (.start tag (readAttributes (external attributes) []) true, [10]) := by
      rw [← nextToken_element true [10] (List.forall_mem_nil _) hproper.1.tag hnames hends]
      show nextToken ((KXmlNodeBody.mk attributes childs).element 0 tag) = _
      rw [element_single hsingle]
      simp [writeTabs]
    rw [KXmlParser.parseLoop_token_stop htoken rfl, events_eq, KXmlNodeBody.getText,
      KXmlNodeBody.childs_mk, KXmlNodeBody.attributes_mk, List.isEmpty_iff.mp hsingle.1, hsingle.2]
    exact ⟨rfl, rfl⟩

/-- There is no XML declaration in front of a written document. -/
theorem startParse_element {tag : Bytes} (htag : IsName tag) (body : KXmlNodeBody) (rest : Bytes) :
    startParse (body.element 0 tag ++ rest) = some (body.element 0 tag ++ rest) := by
  obtain ⟨c, tail, hct⟩ := List.exists_cons_of_ne_nil htag.1
  have hc : c ≠ 63 := ne_of_isNameChar (htag.2 c (hct ▸ List.mem_cons_self)) (by decide)
  have helement : body.element 0 tag ++ rest = [] ++ 60 :: (c :: (tail ++ ((body.write 0).1 ++
      ((if (body.write 0).2 then [] else [60, 47] ++ tag ++ [62, 10]) ++ rest)))) := by
    rw [KXmlNodeBody.element, hct]
    simp [writeTabs]
  unfold startParse
  rw [helement, memchr_append List.not_mem_nil]
  dsimp only [Option.bind_some]
  rw [List.head?_cons, if_neg (by simpa using hc)]

/-- The handler over the events of a document. -/
theorem handleAll_document {skipNs : Bool} (before : Bytes → Bytes → Bool) {tag : Bytes}
    {body : KXmlNodeBody} (hproper : body.All KXmlNodeBody.Proper tag)
    (hwritable : body.All (KXmlNodeBody.Writable skipNs) tag) :
    KXmlDocument.handleAll skipNs before .init (body.events tag) =
      ⟨none, some (.mk tag [body.rebuilt before]), [], false⟩ := by
  have htag : skipNs = true → 58 ∉ tag := by
    cases body
    exact hwritable.1.tag
  have hstart : KXmlDocument.handle skipNs before .init
      (.startElement tag (readAttributes (external body.attributes) [])) =
      ⟨some (.mk tag [.mk (readAttributes (external body.attributes) []) []]), none, [none],
        false⟩ := by
    show KXmlDocument.startElement skipNs .init tag _ = _
    rw [KXmlDocument.startElement, KXmlDocument.tagOf_eq htag]
    rfl
  rw [events_eq]
  show KXmlDocument.handleAll skipNs before (KXmlDocument.handle skipNs before .init _) _ = _
  rw [hstart, KXmlDocument.handleAll_append, handleAll_inner tag body hproper hwritable _ rfl]
  rfl

/-- **A tree is read back where the quoting of the writer is the reader's.** -/
theorem roundTrips_of_writable {skipNs : Bool} (before : Bytes → Bytes → Bool) {tag : Bytes}
    {body : KXmlNodeBody} (hproper : body.All KXmlNodeBody.Proper tag)
    (hwritable : body.All (KXmlNodeBody.Writable skipNs) tag) :
    (KXmlNode.mk tag [body]).RoundTrips skipNs before := by
  obtain ⟨hresult, hevents⟩ := internelParseString_element hproper hwritable
  have hwrite : (KXmlNode.mk tag [body]).write 0 = body.element 0 tag := by
    rw [KXmlNode.write, writeBodys_cons, writeBodys, List.append_nil]
  have htag : IsName tag := by
    cases body
    exact hproper.1.tag
  have hstart := startParse_element htag body []
  rw [List.append_nil] at hstart
  refine ⟨.mk tag [body.rebuilt before], ?_, rfl, .cons ?_ .nil⟩
  · have hdocument := handleAll_document before hproper hwritable
    rw [← hevents] at hdocument
    unfold KXmlDocument.handleAll at hdocument
    unfold KXmlDocument.parse
    rw [hwrite, hstart]
    dsimp only
    rw [hdocument, hresult]
    rfl
  · exact readsAs_rebuilt before tag body hproper hwritable

end Khttpd
