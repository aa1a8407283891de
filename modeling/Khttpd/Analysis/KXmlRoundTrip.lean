import Khttpd.Analysis.KXmlDocument

/-!
# Where a written tree is read back

The other direction: where the writer and the reader disagree about a body, the tree that is read
is another one, whatever the parser makes of the rest of the document. What the handler has built
stays in the tree: the attributes of an open element are those of its start tag, its children get
siblings only, and its text is the last of the character data in front of its first child. So the
first body that is written in another way than it is read is found in the tree that is returned.
-/

set_option autoImplicit false

namespace Khttpd

/-! ## Open elements -/

/-- The document with these elements open, the innermost first. -/
def docOf : List (Bytes × KXmlNodeBody) → KXmlDocument
  | [] => .init
  | e :: stack =>
    ⟨some (.mk e.1 [e.2]), none, stack.map (fun e => some (.mk e.1 [e.2])) ++ [none], false⟩

/-- The children of a body stand under keys of their own. -/
def KXmlNodeBody.Keyed (body : KXmlNodeBody) : Prop := (body.childs.map KXmlNode.tag).Nodup

namespace KXmlDocument

variable {skipNs : Bool} {before : Bytes → Bytes → Bool}

theorem handle_start (stack : List (Bytes × KXmlNodeBody)) (qName : Bytes) (attrs : KXmlAttribute) :
    handle skipNs before (docOf stack) (.startElement qName attrs) =
      docOf ((tagOf skipNs qName, .mk attrs []) :: stack) := by
  cases stack <;> rfl

theorem handle_character (tag : Bytes) (body : KXmlNodeBody) (stack : List (Bytes × KXmlNodeBody))
    (character : Bytes) :
    handle skipNs before (docOf ((tag, body) :: stack)) (.startCharacter character) =
      docOf ((tag, body.setText (cstr character)) :: stack) := rfl

theorem handle_end (tag tag' : Bytes) (body body' : KXmlNodeBody)
    (stack : List (Bytes × KXmlNodeBody)) (qName : Bytes) :
    handle skipNs before (docOf ((tag, body) :: (tag', body') :: stack)) (.endElement qName) =
      docOf ((tag', body'.add before (.mk tag [body])) :: stack) := rfl

theorem handle_end_root (tag : Bytes) (body : KXmlNodeBody) (qName : Bytes) :
    handle skipNs before (docOf [(tag, body)]) (.endElement qName) =
      ⟨none, some (.mk tag [body]), [], false⟩ := rfl

/-- An assertion that has failed stays so, and a root that is there stays unless one fails. -/
theorem handle_root {doc : KXmlDocument} (event : XmlEvent) :
    (doc.failed = true → (handle skipNs before doc event).failed = true) ∧
      (doc.root.isSome = true → (handle skipNs before doc event).failed = true ∨
        (handle skipNs before doc event).root = doc.root) := by
  cases event with
  | startElement qName attrs => exact ⟨fun h => h, fun _ => .inr rfl⟩
  | startCharacter character =>
    rw [handle, startCharacter]
    split
    · exact ⟨fun h => h, fun _ => .inr rfl⟩
    · exact ⟨fun h => h, fun _ => .inr rfl⟩
  | endElement qName =>
    rw [handle, endElement]
    split
    · exact ⟨fun h => h, fun _ => .inr rfl⟩
    · dsimp only
      split
      · exact ⟨fun h => by simp [h], fun h => .inl (by simp [h])⟩
      · exact ⟨fun h => h, fun _ => .inr rfl⟩

theorem handleAll_root {doc : KXmlDocument} (events : List XmlEvent) :
    (doc.failed = true → (handleAll skipNs before doc events).failed = true) ∧
      (doc.root.isSome = true → (handleAll skipNs before doc events).failed = true ∨
        (handleAll skipNs before doc events).root = doc.root) := by
  induction events generalizing doc with
  | nil => exact ⟨fun h => h, fun _ => .inr rfl⟩
  | cons event events ih =>
    obtain ⟨hfailed, hroot⟩ := @handle_root skipNs before doc event
    have hrest := @ih (handle skipNs before doc event)
    refine ⟨fun h => hrest.1 (hfailed h), fun h => ?_⟩
    rcases hroot h with hfail | hsame
    · exact .inl (hrest.1 hfail)
    · rw [← hsame]
      exact hrest.2 (hsame ▸ h)

end KXmlDocument

/-! ## What stays in the tree -/

/-- The body has grown: its attributes are the same, it has got siblings of its children, and its
text is one of these. -/
structure KXmlNodeBody.Grown (text : Bytes → Prop) (a b : KXmlNodeBody) : Prop where
  attributes : ∀ name ≠ textAsAttributeName, a.attributes.lookup name = b.attributes.lookup name
  childs : ∀ tag, bodysOf tag a.childs <+: bodysOf tag b.childs
  text : text b.getText

/-- The place of the innermost open element in the tree that is returned: the tree has a body there,
which the element has grown to, and so have the elements around it. -/
def Fits (text : Bytes → Prop) (root : KXmlNode) :
    List (Bytes × KXmlNodeBody) → KXmlNodeBody → Prop
  | [], _ => False
  | [e], b => root = .mk e.1 [b] ∧ e.2.Grown text b
  | e :: e' :: stack, b => ∃ c, Fits (· = e'.2.getText) root (e' :: stack) c ∧
      (bodysOf e.1 c.childs)[(bodysOf e.1 e'.2.childs).length]? = some b ∧ e.2.Grown text b

theorem Fits.grown {text : Bytes → Prop} {root : KXmlNode} {e : Bytes × KXmlNodeBody}
    {stack : List (Bytes × KXmlNodeBody)} {b : KXmlNodeBody} (h : Fits text root (e :: stack) b) :
    e.2.Grown text b := by
  cases stack with
  | nil => exact h.2
  | cons e' stack =>
    obtain ⟨c, -, -, hgrown⟩ := h
    exact hgrown

/-- The place of an element is that of its tag. -/
theorem Fits.replace {text text' : Bytes → Prop} {root : KXmlNode} {tag : Bytes}
    {body body' : KXmlNodeBody} {stack : List (Bytes × KXmlNodeBody)} {b : KXmlNodeBody}
    (h : Fits text root ((tag, body) :: stack) b)
    (hgrown : body.Grown text b → body'.Grown text' b) :
    Fits text' root ((tag, body') :: stack) b := by
  cases stack with
  | nil => exact ⟨h.1, hgrown h.2⟩
  | cons e' stack =>
    obtain ⟨c, hc, hplace, hbody⟩ := h
    exact ⟨c, hc, hplace, hgrown hbody⟩

/-- The character data in front of the first tag. -/
def firstChars : List XmlEvent → List Bytes
  | .startCharacter character :: events => character :: firstChars events
  | _ => []

/-- Character data is fired only where no tag but a start tag is in front of it. -/
def Direct : Bool → List XmlEvent → Prop
  | _, [] => True
  | _, .startElement _ _ :: events => Direct true events
  | _, .endElement _ :: events => Direct false events
  | direct, .startCharacter _ :: events => direct = true ∧ Direct direct events

theorem firstChars_of_direct {events : List XmlEvent} (h : Direct false events) :
    firstChars events = [] := by
  cases events with
  | nil => rfl
  | cons event events =>
    cases event with
    | startElement qName attrs => rfl
    | startCharacter character => cases h.1
    | endElement qName => rfl

/-- **What is built stays.** -/
theorem fits_of_handleAll {skipNs : Bool} {before : Bytes → Bytes → Bool} {root : KXmlNode}
    (text : Bytes → Prop) (direct : Bool) (e : Bytes × KXmlNodeBody)
    (stack : List (Bytes × KXmlNodeBody)) (events : List XmlEvent)
    (hkeyed : ∀ e' ∈ e :: stack, e'.2.Keyed) (hdirect : Direct direct events)
    (htext : text e.2.getText) (hchars : ∀ c ∈ firstChars events, text (cstr c))
    (hfailed : (KXmlDocument.handleAll skipNs before (docOf (e :: stack)) events).failed = false)
    (hroot : (KXmlDocument.handleAll skipNs before (docOf (e :: stack)) events).root = some root) :
    ∃ b, Fits text root (e :: stack) b := by
  induction events generalizing text direct e stack with
  | nil => cases hroot
  | cons event events ih =>
    have hstep : KXmlDocument.handleAll skipNs before (docOf (e :: stack)) (event :: events) =
        KXmlDocument.handleAll skipNs before
          (KXmlDocument.handle skipNs before (docOf (e :: stack)) event) events := rfl
    rw [hstep] at hfailed hroot
    cases event with
    | startElement qName attrs =>
      rw [KXmlDocument.handle_start] at hfailed hroot
      have hkeyed' : ∀ e' ∈ (KXmlDocument.tagOf skipNs qName, KXmlNodeBody.mk attrs []) ::
          e :: stack, e'.2.Keyed :=
        List.forall_mem_cons.mpr ⟨List.nodup_nil, hkeyed⟩
      obtain ⟨b, c, hc, -, -⟩ := ih (fun _ => True) true _ _ hkeyed' hdirect trivial
        (fun _ _ => trivial) hfailed hroot
      exact ⟨c, hc.replace fun h => ⟨h.attributes, h.childs, h.text.symm ▸ htext⟩⟩
    | startCharacter character =>
      obtain ⟨tag, body⟩ := e
      obtain ⟨hset, hchilds, hothers⟩ := setText_spec (cstr character) body
      rw [KXmlDocument.handle_character] at hfailed hroot
      have hkeyed' : ∀ e' ∈ (tag, body.setText (cstr character)) :: stack, e'.2.Keyed := by
        obtain ⟨hbody, hstack⟩ := List.forall_mem_cons.mp hkeyed
        refine List.forall_mem_cons.mpr ⟨?_, hstack⟩
        show (body.setText (cstr character)).Keyed
        rw [KXmlNodeBody.Keyed, hchilds]
        exact hbody
      have hcharacter := hchars character List.mem_cons_self
      obtain ⟨b, hb⟩ := ih text direct _ stack hkeyed' hdirect.2 (hset.symm ▸ hcharacter)
        (fun c hc => hchars c (List.mem_cons_of_mem _ hc)) hfailed hroot
      refine ⟨b, hb.replace fun h => ⟨fun name hname => ?_, fun name => ?_, h.text⟩⟩
      · rw [← hothers name hname]
        exact h.attributes name hname
      · rw [← hchilds]
        exact h.childs name
    | endElement qName =>
      cases stack with
      | nil =>
        rw [KXmlDocument.handle_end_root] at hfailed hroot
        have hsame := (@KXmlDocument.handleAll_root skipNs before
          ⟨none, some (.mk e.1 [e.2]), [], false⟩ events).2 rfl
        rw [hfailed] at hsame
        have hmk : some root = some (.mk e.1 [e.2]) := hroot.symm.trans (hsame.resolve_left (by simp))
        cases hmk
        exact ⟨e.2, rfl, fun _ _ => rfl, fun _ => List.prefix_rfl, htext⟩
      | cons e' stack =>
        obtain ⟨tag', body'⟩ := e'
        obtain ⟨tag, body⟩ := e
        rw [KXmlDocument.handle_end] at hfailed hroot
        obtain ⟨-, hparents⟩ := List.forall_mem_cons.mp hkeyed
        obtain ⟨hparent, hstack⟩ := List.forall_mem_cons.mp hparents
        have hadd := extends_add before tag body hparent
        have hsame : (body'.add before (.mk tag [body])).getText = body'.getText := by
          rw [KXmlNodeBody.getText, hadd.attributes]
          rfl
        have hkeyed' : ∀ e ∈ (tag', body'.add before (.mk tag [body])) :: stack, e.2.Keyed :=
          List.forall_mem_cons.mpr ⟨hadd.keys, hstack⟩
        have hempty : ∀ c ∈ firstChars events, cstr c = body'.getText := by
          rw [firstChars_of_direct hdirect]
          exact List.forall_mem_nil _
        obtain ⟨c, hc⟩ := ih (· = body'.getText) false _ stack hkeyed' hdirect hsame hempty hfailed
          hroot
        have hplace := hc.grown.childs tag
        rw [hadd.childs, if_pos rfl] at hplace
        obtain ⟨more, hmore⟩ := hplace
        refine ⟨body, c, hc.replace fun h => ⟨fun name hname => ?_, fun name => ?_, h.text⟩, ?_,
          fun _ _ => rfl, fun _ => List.prefix_rfl, htext⟩
        · rw [← h.attributes name hname, hadd.attributes]
        · refine List.IsPrefix.trans ?_ (h.childs name)
          rw [hadd.childs]
          exact List.prefix_append _ _
        · dsimp only
          rw [← hmore, List.append_assoc, List.getElem?_append_right le_rfl, Nat.sub_self]
          rfl

/-! ## What the parser fires -/

/-- The string that is searched does not stand in front of where it is found. -/
theorem not_infix_of_kglMemstr {needle buf : Bytes} {r : Bytes × Bytes} (hne : needle ≠ [])
    (h : kglMemstr needle buf = some r) : r.1 <+: buf ∧ ¬needle <:+: r.1 := by
  induction buf generalizing r with
  | nil =>
    rw [kglMemstr, if_neg (by simpa using hne)] at h
    cases h
  | cons c buf ih =>
    rw [kglMemstr] at h
    by_cases hhere : needle.isPrefixOf (c :: buf) = true
    · rw [if_pos hhere] at h
      cases h
      exact ⟨List.nil_prefix, fun hcut => hne (List.infix_nil.mp hcut)⟩
    · rw [if_neg hhere] at h
      obtain ⟨r', hr', rfl⟩ := Option.map_eq_some_iff.mp h
      obtain ⟨hfits, hcut⟩ := ih hr'
      refine ⟨List.cons_prefix_cons.mpr ⟨rfl, hfits⟩, fun h => ?_⟩
      rcases List.infix_cons_iff.mp h with hfront | hback
      · exact hhere (List.isPrefixOf_iff_prefix.mpr
          (hfront.trans (List.cons_prefix_cons.mpr ⟨rfl, hfits⟩)))
      · exact hcut hback

/-- A string that is there is found. -/
theorem isSome_kglMemstr {needle buf : Bytes} (h : needle <:+: buf) :
    (kglMemstr needle buf).isSome = true := by
  induction buf with
  | nil =>
    rw [kglMemstr, List.infix_nil.mp h]
    rfl
  | cons c buf ih =>
    rw [kglMemstr]
    by_cases hhere : needle.isPrefixOf (c :: buf) = true
    · rw [if_pos hhere]
      rfl
    · rw [if_neg hhere, Option.isSome_map]
      exact ih ((List.infix_cons_iff.mp h).resolve_left
        fun hfits => hhere (List.isPrefixOf_iff_prefix.mpr hfits))

theorem not_infix_of_nextToken {buf rest character : Bytes}
    (h : nextToken buf = .inl (.cdata character, rest)) : ¬kglString "]]>" <:+: character := by
  revert h
  unfold nextToken
  dsimp only
  intro h
  split_ifs at h
  · split at h
    · cases h
    · rename_i heq
      cases h
      exact (not_infix_of_kglMemstr (by decide) heq).2
  · split at h <;> cases h
  · split at h <;> cases h
  · split at h <;> cases h
  · split at h <;> cases h

namespace KXmlParser

theorem events_onCharacter (p : KXmlParser) (character : Bytes) :
    (p.onCharacter character).events =
      p.events ++ if p.curContext.isSome then [.startCharacter character] else [] := by
  unfold onCharacter
  split
  · rfl
  · exact (List.append_nil _).symm

theorem direct_character {direct : Bool} {character : Bytes} {events : List XmlEvent}
    (h : Direct direct events) :
    Direct direct ((if direct then [.startCharacter character] else []) ++ events) := by
  cases direct with
  | true => exact ⟨rfl, h⟩
  | false => exact h

/-- What the parser fires from here on: character data behind a start tag only, and behind character
data only what is in a CDATA section. -/
theorem exists_fired (p : KXmlParser) : ∃ fired, p.parseLoop.1.events = p.events ++ fired ∧
    Direct p.curContext.isSome fired ∧
    (p.state = .startChar → ∀ c ∈ firstChars fired, ¬kglString "]]>" <:+: c) := by
  induction hn : p.hot.length using Nat.strong_induction_on generalizing p
  rename_i n ih
  cases hnext : nextToken p.hot with
  | inr ending =>
    have htold := told_ending hnext
    exact ⟨[], htold.events, trivial, fun _ => List.forall_mem_nil _⟩
  | inl r =>
    obtain ⟨token, rest⟩ := r
    have hlength := nextToken_length hnext
    -- the parser goes on behind the piece
    have hgo : ∀ q : KXmlParser, p.take rest token = ⟨q, none⟩ → q.hot = rest →
        ∃ fired, p.parseLoop.1.events = q.events ++ fired ∧ Direct q.curContext.isSome fired ∧
          (q.state = .startChar → ∀ c ∈ firstChars fired, ¬kglString "]]>" <:+: c) := by
      intro q htake hrest
      rw [parseLoop_token hnext htake]
      exact ih rest.length (by omega) q (by rw [hrest])
    have hstop : ∀ q result, p.take rest token = ⟨q, some result⟩ → p.parseLoop = (q, result) :=
      fun q result htake => parseLoop_token_stop hnext htake
    cases token with
    | start qName attrs single =>
      cases single with
      | false =>
        obtain ⟨fired, hevents, hdirect, -⟩ := hgo _ rfl rfl
        refine ⟨.startElement qName attrs :: fired, ?_, hdirect, fun _ => List.forall_mem_nil _⟩
        rw [hevents]
        exact List.append_assoc ..
      | true =>
        by_cases hopen : p.contexts = []
        · refine ⟨[.startElement qName attrs, .endElement qName], ?_, trivial,
            fun _ => List.forall_mem_nil _⟩
          rw [hstop _ _ (by rw [take, if_pos hopen])]
          exact List.append_assoc ..
        · obtain ⟨fired, hevents, hdirect, -⟩ := hgo _ (by rw [take, if_neg hopen]) rfl
          refine ⟨.startElement qName attrs :: .endElement qName :: fired, ?_, hdirect,
            fun _ => List.forall_mem_nil _⟩
          rw [hevents]
          simp
    | finish qName =>
      cases hopen : p.contexts with
      | nil =>
        refine ⟨[], ?_, trivial, fun _ => List.forall_mem_nil _⟩
        rw [hstop _ _ (by rw [take, hopen])]
        simp
      | cons context contexts =>
        by_cases hname : context = qName
        · obtain ⟨fired, hevents, hdirect, -⟩ :=
            hgo _ (by rw [take, hopen]; exact if_neg (not_not.mpr hname)) rfl
          refine ⟨.endElement context :: fired, ?_, hdirect, fun _ => List.forall_mem_nil _⟩
          rw [hevents]
          exact List.append_assoc ..
        · refine ⟨[], ?_, trivial, fun _ => List.forall_mem_nil _⟩
          rw [hstop _ _ (by rw [take, hopen]; exact if_pos hname)]
          simp
    | text character =>
      by_cases hchars : p.state = .startChar
      · refine ⟨[], ?_, trivial, fun _ => List.forall_mem_nil _⟩
        rw [hstop _ _ (by rw [take, if_pos hchars])]
        simp
      · obtain ⟨fired, hevents, hdirect, -⟩ := hgo _ (by rw [take, if_neg hchars]) rfl
        dsimp only at hevents
        rw [events_onCharacter] at hevents
        refine ⟨_, hevents.trans (List.append_assoc ..), ?_, fun h => absurd h hchars⟩
        exact direct_character (by simpa using hdirect)
    | cdata character =>
      obtain ⟨fired, hevents, hdirect, hmore⟩ := hgo _ rfl rfl
      dsimp only at hevents
      rw [events_onCharacter] at hevents
      refine ⟨_, hevents.trans (List.append_assoc ..), direct_character (by simpa using hdirect),
        fun _ => ?_⟩
      have hfirst := hmore (by simp)
      dsimp only
      split
      · exact List.forall_mem_cons.mpr ⟨not_infix_of_nextToken hnext, hfirst⟩
      · exact hfirst
    | comment =>
      obtain ⟨fired, hevents, hdirect, hchars⟩ := hgo _ rfl rfl
      exact ⟨fired, hevents, hdirect, hchars⟩

end KXmlParser

/-! ## A tag that ends in an attribute -/

/-- What is before the `/` of a single tag, where a character stands in front of it that is neither
`/` nor white space. -/
theorem splitSingle_front (front back : Bytes) {c : Byte} (hspace : isSpace c = false)
    (hslash : c ≠ 47) : ∃ back', back' <+: back ∧
      (KXmlParser.splitSingle (front ++ c :: back)).1 = front ++ c :: back' := by
  have hsplit : back.reverse.takeWhile isSpace ++ back.reverse.dropWhile isSpace = back.reverse :=
    List.takeWhile_append_dropWhile
  have hreverse : (front ++ c :: back).reverse.dropWhile isSpace =
      back.reverse.dropWhile isSpace ++ c :: front.reverse := by
    have hall : ∀ b ∈ back.reverse.takeWhile isSpace, isSpace b = true := fun b hb =>
      List.mem_takeWhile_imp hb
    have htotal : (front ++ c :: back).reverse = back.reverse.takeWhile isSpace ++
        (back.reverse.dropWhile isSpace ++ c :: front.reverse) := by
      rw [← List.append_assoc, hsplit]
      simp
    rw [htotal, List.dropWhile_append_of_pos hall]
    cases hdrop : back.reverse.dropWhile isSpace with
    | nil => exact List.dropWhile_cons_of_neg (by simp [hspace])
    | cons b rest =>
      have hb := List.head_dropWhile_not isSpace (l := back.reverse) (by rw [hdrop]; simp)
      simp only [hdrop, List.head_cons] at hb
      exact List.dropWhile_cons_of_neg (by simp [hb])
  unfold KXmlParser.splitSingle
  rw [hreverse]
  cases hdrop : back.reverse.dropWhile isSpace with
  | nil =>
    refine ⟨back, List.prefix_rfl, ?_⟩
    rw [List.nil_append]
    split
    · rename_i heq
      cases heq
      exact absurd rfl hslash
    · rfl
  | cons b rest =>
    rw [List.cons_append]
    split
    · rename_i front' heq
      cases heq
      refine ⟨rest.reverse, ?_, by simp⟩
      have hsuffix : 47 :: rest <:+ back.reverse := by
        rw [← hdrop]
        exact List.dropWhile_suffix isSpace
      have hrest := (List.suffix_cons 47 rest).trans hsuffix
      rw [← List.reverse_reverse back]
      exact List.reverse_prefix.mpr hrest
    · exact ⟨back, List.prefix_rfl, rfl⟩

theorem flatMap_external (attributes : KXmlAttribute) :
    (external attributes).flatMap writeAttribute = attributes.flatMap writeAttribute := by
  induction attributes with
  | nil => rfl
  | cons a attributes ih =>
    by_cases hexternal : a.1.head? = some 95
    · rw [external_cons_of_neg hexternal, ih, List.flatMap_cons, writeAttribute_internal hexternal,
        List.nil_append]
    · rw [external_cons_of_pos hexternal, List.flatMap_cons, List.flatMap_cons, ih]

/-- A value that holds `>` ends the tag, and its attribute is not read. -/
theorem nextToken_cut {blank tag : Bytes} {attributes : KXmlAttribute} (rest : Bytes)
    (hblank : ∀ b ∈ blank, isSpace b = true) (htag : IsName tag)
    (hnames : ∀ a ∈ external attributes, IsName a.1)
    (hnodup : ((external attributes).map Prod.fst).Nodup)
    (hgt : ∃ a ∈ external attributes, 62 ∈ writtenValue a.2) :
    ∃ a ∈ external attributes, ∃ attrs single rest',
      nextToken (blank ++ 60 :: (tag ++ attributes.flatMap writeAttribute) ++ rest) =
        .inl (.start tag attrs single, rest') ∧ attrs.lookup a.1 = none := by
  obtain ⟨a, hfind⟩ : ∃ a, (external attributes).find? (fun a => 62 ∈ writtenValue a.2) = some a := by
    obtain ⟨a, ha, hmem⟩ := hgt
    exact Option.isSome_iff_exists.mp (List.find?_isSome.mpr ⟨a, ha, by simpa using hmem⟩)
  obtain ⟨hmem, front, back, hattrs, hfront⟩ := List.find?_eq_some_iff_append.mp hfind
  have hmem : 62 ∈ writtenValue a.2 := by simpa using hmem
  have ha : a ∈ external attributes := List.mem_of_find?_eq_some hfind
  have hexternal : ∀ b ∈ external attributes, b.1.head? ≠ some 95 := fun b hb => by
    simpa using (List.mem_filter.mp hb).2
  refine ⟨a, ha, ?_⟩
  obtain ⟨quote, hquote, hnotin, hwrite⟩ := writeAttribute_eq (hexternal a ha) a.2
  obtain ⟨value, value', hvalue, hfirst⟩ := List.eq_append_cons_of_mem hmem
  have hquotespace : isSpace quote = false := by
    rcases hquote with rfl | rfl <;> rfl
  have hquoteslash : quote ≠ 47 := by
    rcases hquote with rfl | rfl <;> decide
  have hquotegt : quote ≠ 62 := by
    rcases hquote with rfl | rfl <;> decide
  -- the attributes in front of it
  have hsub : ∀ b ∈ front, b ∈ external attributes := fun b hb => by
    rw [hattrs]
    exact List.mem_append_left _ hb
  have hfrontexternal : external front = front :=
    List.filter_eq_self.mpr fun b hb => by simpa using hexternal b (hsub b hb)
  have hfrontnames : ∀ b ∈ external front, IsName b.1 := fun b hb => by
    rw [hfrontexternal] at hb
    exact hnames b (hsub b hb)
  obtain ⟨hhead, -, hfrontgt⟩ := flatMap_writeAttribute_spec hfrontnames
  have hfrontgt : 62 ∉ front.flatMap writeAttribute := hfrontgt fun b hb hgt => by
    rw [hfrontexternal] at hb
    have := hfront b hb
    simp [hgt] at this
  have htext : attributes.flatMap writeAttribute ++ rest = front.flatMap writeAttribute ++
      32 :: a.1 ++ [61] ++ quote :: value ++
        62 :: (value' ++ quote :: (back.flatMap writeAttribute ++ rest)) := by
    rw [← flatMap_external, hattrs, List.flatMap_append, List.flatMap_cons, hwrite, hvalue]
    simp
  obtain ⟨c, tail, hct⟩ := List.exists_cons_of_ne_nil htag.1
  have hc : isNameChar c = true := htag.2 c (hct ▸ List.mem_cons_self)
  obtain ⟨value'', hfits, hsplit⟩ := splitSingle_front
    (tag ++ front.flatMap writeAttribute ++ 32 :: a.1 ++ [61]) value hquotespace hquoteslash
  have hcontent : 62 ∉ tail ++ front.flatMap writeAttribute ++ 32 :: a.1 ++ [61] ++
      quote :: value := by
    have htail : (62 : Byte) ∉ tail := fun h =>
      htag.not_mem (by decide : (62 : Byte) ∈ nameEnds) (hct ▸ List.mem_cons_of_mem _ h)
    have hname : (62 : Byte) ∉ a.1 := (hnames a ha).not_mem (by decide)
    simp [htail, hfrontgt, hname, hfirst, hquotegt.symm]
  have hbuf : blank ++ 60 :: (tag ++ attributes.flatMap writeAttribute) ++ rest =
      blank ++ 60 :: c :: (tail ++ front.flatMap writeAttribute ++ 32 :: a.1 ++ [61] ++
        quote :: value) ++ 62 :: (value' ++ quote :: (back.flatMap writeAttribute ++ rest)) := by
    rw [List.append_assoc, List.cons_append, List.append_assoc, htext, hct]
    simp
  have hjoin : c :: (tail ++ front.flatMap writeAttribute ++ 32 :: a.1 ++ [61] ++
      quote :: value) = tag ++ front.flatMap writeAttribute ++ 32 :: a.1 ++ [61] ++
        quote :: value := by
    rw [hct]
    simp
  rw [hbuf, nextToken_start hblank hc hcontent, hjoin, hsplit]
  obtain ⟨htake, hdrop⟩ := htag.takeWhile (front.flatMap writeAttribute ++
    (32 :: a.1 ++ 61 :: quote :: value'')) fun b hb => by
      cases hflat : front.flatMap writeAttribute with
      | nil =>
        rw [hflat] at hb
        cases hb
        rfl
      | cons d text =>
        rw [hflat] at hb hhead
        cases hb
        rw [hhead b rfl]
        rfl
  have hrejoin : tag ++ front.flatMap writeAttribute ++ 32 :: a.1 ++ [61] ++ quote :: value'' =
      tag ++ (front.flatMap writeAttribute ++ (32 :: a.1 ++ 61 :: quote :: value'')) := by
    simp
  rw [hrejoin, htake, hdrop]
  refine ⟨_, _, _, rfl, ?_⟩
  -- the value has no end
  have hopen : getString (quote :: value'') = none := by
    have hends : ¬(quote ≠ 39 ∧ quote ≠ 34) := by
      rintro ⟨h, h'⟩
      exact hquote.elim h h'
    have hmem : quote ∉ value'' := fun h => hnotin (by
      rw [hvalue]
      exact List.mem_append_left _ (hfits.subset h))
    unfold getString
    rw [List.dropWhile_cons_of_neg (by simp [hquotespace])]
    dsimp only
    rw [if_neg hends, memchr_of_not_mem hmem]
    rfl
  have hbuild : buildAttribute ((front.flatMap writeAttribute ++
      (32 :: a.1 ++ 61 :: quote :: value'')).drop 1) = readAttributes front [] := by
    have hwritten := buildAttributeLoop_write hfrontnames (32 :: a.1 ++ 61 :: quote :: value'') []
    rw [buildAttributeLoop_open _ (memchr_name (hnames a ha) _) hopen, hfrontexternal] at hwritten
    rw [← hwritten, buildAttribute]
    cases hflat : front.flatMap writeAttribute with
    | nil => exact (buildAttributeLoop_space _ _).symm
    | cons d text =>
      rw [hflat] at hhead
      rw [hhead d rfl]
      exact (buildAttributeLoop_space _ _).symm
  rw [hattrs, List.map_append, List.map_cons, List.nodup_append] at hnodup
  rw [hbuild, lookup_readAttributes hnodup.1 fun _ _ => rfl, lookup_map_readAttribute]
  have hnone : front.lookup a.1 = none := by
    rw [List.lookup_eq_none_iff]
    intro b hb
    rw [bne_iff_ne]
    exact fun h => hnodup.2.2 b.1 (List.mem_map_of_mem hb) a.1 List.mem_cons_self h.symm
  rw [hnone]
  rfl

/-! ## Attributes that are read as they are -/

theorem lookup_of_mem {attributes : KXmlAttribute} (hnodup : (attributes.map Prod.fst).Nodup)
    {a : Bytes × Bytes} (ha : a ∈ attributes) : attributes.lookup a.1 = some a.2 := by
  obtain ⟨front, back, hattrs⟩ := List.append_of_mem ha
  rw [hattrs, List.map_append, List.map_cons, List.nodup_append] at hnodup
  refine List.lookup_eq_some_iff.mpr ⟨front, back, hattrs, fun b hb => ?_⟩
  rw [bne_iff_ne]
  exact fun h => hnodup.2.2 b.1 (List.mem_map_of_mem hb) a.1 List.mem_cons_self h.symm

/-- A string that is decoded to itself holds no entity. -/
theorem htmlDecode_of_cstr {value : Bytes} (h : cstr (htmlDecode value) = value) :
    htmlDecode value = value := by
  have hfits : cstr (htmlDecode value) <+: htmlDecode value := List.takeWhile_prefix _
  have hlength : (htmlDecode value).length ≤ (cstr (htmlDecode value)).length := by
    rw [h]
    exact length_htmlDecode value
  rw [← hfits.eq_of_length_le hlength]
  exact h

/-- Attributes that are read as they are are written as they are read. -/
theorem written_of_lookup {tag : Bytes} {body : KXmlNodeBody} (h : body.Proper tag)
    (hsame : ∀ n ≠ textAsAttributeName,
      body.attributes.lookup n = (readAttributes (external body.attributes) []).lookup n) :
    (∀ a ∈ body.attributes, a.1 ≠ textAsAttributeName → a.1.head? ≠ some 95) ∧
      ∀ a ∈ external body.attributes, (39 ∉ a.2 ∨ 34 ∉ a.2) ∧ htmlDecode a.2 = a.2 := by
  refine ⟨fun a ha hname hinternal => ?_, fun a ha => ?_⟩
  · have hread := hsame a.1 hname
    rw [lookup_of_mem h.nodup ha, lookup_attributes h, lookup_internal hinternal] at hread
    cases hread
  · obtain ⟨hmem, hexternal⟩ := List.mem_filter.mp ha
    have hexternal : a.1.head? ≠ some 95 := by simpa using hexternal
    have hname : a.1 ≠ textAsAttributeName := by
      intro hname
      rw [hname] at hexternal
      exact hexternal rfl
    have hread := hsame a.1 hname
    rw [lookup_of_mem h.nodup hmem, lookup_attributes h, lookup_external hexternal,
      lookup_of_mem h.nodup hmem, Option.map_some, Option.some_inj] at hread
    by_cases hboth : 39 ∈ a.2 ∧ 34 ∈ a.2
    · -- the value is not written
      have hwritten : writtenValue a.2 = [] := if_pos hboth
      rw [hwritten] at hread
      have hnil : a.2 = [] := by
        rw [hread]
        simp [htmlDecode, cstr]
      rw [hnil] at hboth
      cases hboth.1
    · have hwritten : writtenValue a.2 = a.2 := if_neg hboth
      rw [hwritten] at hread
      refine ⟨?_, htmlDecode_of_cstr hread.symm⟩
      by_cases hone : 39 ∈ a.2
      · exact .inr fun htwo => hboth ⟨hone, htwo⟩
      · exact .inl hone

/-! ## Runs that end in a tree -/

/-- The parser is where these elements are open, and its run ends with this tree. -/
structure KXmlParser.Leads (skipNs : Bool) (before : Bytes → Bytes → Bool) (root : KXmlNode)
    (p : KXmlParser) (stack : List (Bytes × KXmlNodeBody)) : Prop where
  doc : KXmlDocument.handleAll skipNs before .init p.events = docOf stack
  keyed : ∀ e ∈ stack, e.2.Keyed
  failed : (KXmlDocument.handleAll skipNs before .init p.parseLoop.1.events).failed = false
  root : (KXmlDocument.handleAll skipNs before .init p.parseLoop.1.events).root = some root

namespace KXmlParser

variable {skipNs : Bool} {before : Bytes → Bytes → Bool} {root : KXmlNode}

/-- The run goes on from another point. -/
theorem Leads.go {p q : KXmlParser} {stack stack' : List (Bytes × KXmlNodeBody)}
    (h : p.Leads skipNs before root stack) (hloop : p.parseLoop = q.parseLoop)
    {events : List XmlEvent} (hevents : q.events = p.events ++ events)
    (hdoc : KXmlDocument.handleAll skipNs before (docOf stack) events = docOf stack')
    (hkeyed : ∀ e ∈ stack', e.2.Keyed) : q.Leads skipNs before root stack' where
  doc := by rw [hevents, KXmlDocument.handleAll_append, h.doc, hdoc]
  keyed := hkeyed
  failed := hloop ▸ h.failed
  root := hloop ▸ h.root

/-- Behind what the parser reaches. -/
theorem Leads.reach {p : KXmlParser} {stack : List (Bytes × KXmlNodeBody)}
    (stack' : List (Bytes × KXmlNodeBody)) (h : p.Leads skipNs before root stack) {events : List XmlEvent} {rest : Bytes}
    (hreach : p.Reaches events rest)
    (hdoc : KXmlDocument.handleAll skipNs before (docOf stack) events = docOf stack')
    (hkeyed : ∀ e ∈ stack', e.2.Keyed) : ∃ q : KXmlParser, ∃ blank,
      (∀ b ∈ blank, isSpace b = true) ∧ q.hot = blank ++ rest ∧ q.contexts = p.contexts ∧
        (events ≠ [] → q.curContext = none) ∧ q.Leads skipNs before root stack' := by
  obtain ⟨blank, state, hblank, hloop⟩ := hreach
  exact ⟨⟨p.contexts, if events = [] then p.curContext else none, state, p.events ++ events,
    blank ++ rest⟩, blank, hblank, rfl, rfl, fun hne => if_neg hne, h.go hloop rfl hdoc hkeyed⟩

/-- What is open has its place in the tree. -/
theorem Leads.fits {p : KXmlParser} {e : Bytes × KXmlNodeBody}
    {stack : List (Bytes × KXmlNodeBody)} (h : p.Leads skipNs before root (e :: stack))
    {fired : List XmlEvent} {direct : Bool} (hevents : p.parseLoop.1.events = p.events ++ fired)
    (hdirect : Direct direct fired) (text : Bytes → Prop) (htext : text e.2.getText)
    (hchars : ∀ c ∈ firstChars fired, text (cstr c)) : ∃ b, Fits text root (e :: stack) b := by
  have hfailed := h.failed
  have hroot := h.root
  rw [hevents, KXmlDocument.handleAll_append, h.doc] at hfailed hroot
  exact fits_of_handleAll text direct e stack fired h.keyed hdirect htext hchars hfailed hroot

/-- Behind a start tag. -/
theorem Leads.start {p : KXmlParser} {stack : List (Bytes × KXmlNodeBody)}
    (h : p.Leads skipNs before root stack) {tag rest : Bytes} {attrs : KXmlAttribute}
    {single : Bool} (htag : skipNs = true → 58 ∉ tag)
    (htoken : nextToken p.hot = .inl (.start tag attrs single, rest)) :
    ∃ b, Fits (fun _ => True) root ((tag, .mk attrs []) :: stack) b := by
  have hevents : ∃ more, p.parseLoop.1.events = p.events ++ .startElement tag attrs :: more ∧
      ∃ direct, Direct direct more := by
    cases single with
    | false =>
      rw [parseLoop_token htoken rfl]
      obtain ⟨fired, hfired, hdirect, -⟩ := exists_fired ⟨tag :: p.contexts, some tag,
        .startElement, p.events ++ [.startElement tag attrs], rest⟩
      exact ⟨fired, by rw [hfired]; exact List.append_assoc .., _, hdirect⟩
    | true =>
      by_cases hopen : p.contexts = []
      · rw [parseLoop_token_stop htoken (by rw [take, if_pos hopen])]
        exact ⟨[.endElement tag], List.append_assoc .., true, trivial⟩
      · rw [parseLoop_token htoken (by rw [take, if_neg hopen])]
        obtain ⟨fired, hfired, hdirect, -⟩ := exists_fired { p with
          state := .startElement, hot := rest, curContext := none,
          events := p.events ++ [.startElement tag attrs] ++ [.endElement tag] }
        exact ⟨.endElement tag :: fired, by rw [hfired]; simp, true, hdirect⟩
  obtain ⟨more, hmore, direct, hdirect⟩ := hevents
  have hstart : KXmlDocument.handleAll skipNs before (docOf stack)
      (.startElement tag attrs :: more) =
      KXmlDocument.handleAll skipNs before (docOf ((tag, .mk attrs []) :: stack)) more := by
    have hstep : KXmlDocument.handle skipNs before (docOf stack) (.startElement tag attrs) = _ :=
      KXmlDocument.handle_start stack tag attrs
    rw [KXmlDocument.tagOf_eq htag] at hstep
    rw [← hstep]
    rfl
  have hfailed := h.failed
  have hroot := h.root
  rw [hmore, KXmlDocument.handleAll_append, h.doc, hstart] at hfailed hroot
  exact fits_of_handleAll _ direct _ stack more
    (List.forall_mem_cons.mpr ⟨List.nodup_nil, h.keyed⟩) hdirect trivial (fun _ _ => trivial)
    hfailed hroot

theorem element_shape (level : ℕ) (tag : Bytes) (body : KXmlNodeBody) :
    ∃ (single : Bool) (rest : Bytes), body.element level tag =
      writeTabs level ++ 60 :: (tag ++ body.attributes.flatMap writeAttribute) ++
        (if single then [47] else []) ++ 62 :: rest := by
  obtain ⟨attributes, childs⟩ := body
  by_cases hsingle : childs.isEmpty ∧ attributes.lookup textAsAttributeName = none
  · exact ⟨true, [10], element_single hsingle⟩
  · refine ⟨false, contentOf level (attributes.lookup textAsAttributeName) childs ++
      60 :: 47 :: tag ++ [62, 10], ?_⟩
    rw [if_neg Bool.false_ne_true, List.append_nil]
    exact element_open hsingle

/-- The start tag of an element, whatever its attributes are: they are read between their quotes, or
one of them is not read. -/
theorem nextToken_shape (level : ℕ) {tag blank : Bytes} {body : KXmlNodeBody} (rest : Bytes)
    (hproper : body.Proper tag) (hblank : ∀ b ∈ blank, isSpace b = true) :
    ∃ attrs single rest', nextToken (blank ++ (body.element level tag ++ rest)) =
        .inl (.start tag attrs single, rest') ∧
      ((∃ a ∈ external body.attributes, attrs.lookup a.1 = none) ∨
        (∀ a ∈ external body.attributes, 62 ∉ writtenValue a.2) ∧
          attrs = readAttributes (external body.attributes) []) := by
  have hblank' : ∀ b ∈ blank ++ writeTabs level, isSpace b = true := fun b hb =>
    (List.mem_append.mp hb).elim (hblank b) (isSpace_writeTabs b)
  have hnodup : ((external body.attributes).map Prod.fst).Nodup :=
    hproper.nodup.sublist (List.filter_sublist.map Prod.fst)
  obtain ⟨single, rest', hshape⟩ := element_shape level tag body
  have hbuf : blank ++ (body.element level tag ++ rest) = blank ++ writeTabs level ++
      60 :: (tag ++ body.attributes.flatMap writeAttribute) ++
        ((if single then [47] else []) ++ 62 :: (rest' ++ rest)) := by
    rw [hshape]
    simp
  rw [hbuf]
  by_cases hgt : ∃ a ∈ external body.attributes, 62 ∈ writtenValue a.2
  · obtain ⟨a, ha, attrs, single', rest'', htoken, hlookup⟩ := nextToken_cut
      ((if single then [47] else []) ++ 62 :: (rest' ++ rest)) hblank' hproper.tag hproper.names
      hnodup hgt
    exact ⟨attrs, single', rest'', htoken, .inl ⟨a, ha, hlookup⟩⟩
  · have hvalues : ∀ a ∈ external body.attributes, 62 ∉ writtenValue a.2 := fun a ha hmem =>
      hgt ⟨a, ha, hmem⟩
    have htoken := nextToken_element single (rest' ++ rest) hblank' hproper.tag hproper.names hvalues
    rw [List.append_assoc] at htoken
    exact ⟨_, _, _, htoken, .inr ⟨hvalues, rfl⟩⟩

/-- The attributes of an element that is found in the tree are read as they are written. -/
theorem Leads.attributes {p : KXmlParser} {stack : List (Bytes × KXmlNodeBody)}
    (h : p.Leads skipNs before root stack) {level : ℕ} {tag blank rest : Bytes}
    {body : KXmlNodeBody} (hproper : body.Proper tag) (htag : skipNs = true → 58 ∉ tag)
    (hblank : ∀ b ∈ blank, isSpace b = true)
    (hhot : p.hot = blank ++ (body.element level tag ++ rest))
    (hplace : ∀ a Q b, Fits Q root ((tag, a) :: stack) b → body.ReadsAs b) :
    (∀ a ∈ body.attributes, a.1 ≠ textAsAttributeName → a.1.head? ≠ some 95) ∧
      (∀ a ∈ external body.attributes, 39 ∉ a.2 ∨ 34 ∉ a.2) ∧
      (∀ a ∈ external body.attributes, 62 ∉ a.2) ∧
      ∀ a ∈ external body.attributes, htmlDecode a.2 = a.2 := by
  obtain ⟨attrs, single, rest', htoken, hcases⟩ := nextToken_shape level rest hproper hblank
  rw [← hhot] at htoken
  -- the attributes that are read are those of the tree
  have hread : ∀ n ≠ textAsAttributeName, body.attributes.lookup n = attrs.lookup n := by
    intro n hn
    obtain ⟨b, hb⟩ := h.start htag htoken
    obtain ⟨hattributes, -, -, -⟩ := hplace _ _ b hb
    rw [hattributes n hn]
    exact (hb.grown.attributes n hn).symm
  rcases hcases with ⟨a, ha, hlookup⟩ | ⟨hvalues, rfl⟩
  · obtain ⟨hmem, hexternal⟩ := List.mem_filter.mp ha
    have hname : a.1 ≠ textAsAttributeName := by
      intro hname
      rw [hname] at hexternal
      simp [textAsAttributeName, kglString] at hexternal
    have hsame := hread a.1 hname
    rw [lookup_of_mem hproper.nodup hmem, hlookup] at hsame
    cases hsame
  · obtain ⟨hwritten, hquotes⟩ := written_of_lookup hproper hread
    refine ⟨hwritten, fun a ha => (hquotes a ha).1, fun a ha hmem => ?_,
      fun a ha => (hquotes a ha).2⟩
    have hboth : ¬(39 ∈ a.2 ∧ 34 ∈ a.2) := fun hboth =>
      (hquotes a ha).1.elim (fun h => h hboth.1) fun h => h hboth.2
    have hvalue : writtenValue a.2 = a.2 := if_neg hboth
    exact hvalues a ha (hvalue.symm ▸ hmem)

/-- Behind character data. -/
theorem Leads.character {p q : KXmlParser} {tag character : Bytes} {a : KXmlNodeBody}
    {stack : List (Bytes × KXmlNodeBody)} (h : p.Leads skipNs before root ((tag, a) :: stack))
    (hloop : p.parseLoop = q.parseLoop) (hevents : q.events = p.events ++ [.startCharacter character]) :
    q.Leads skipNs before root ((tag, a.setText (cstr character)) :: stack) := by
  refine h.go hloop hevents rfl ?_
  obtain ⟨ha, hstack⟩ := List.forall_mem_cons.mp h.keyed
  refine List.forall_mem_cons.mpr ⟨?_, hstack⟩
  show (a.setText (cstr character)).Keyed
  rw [KXmlNodeBody.Keyed, (setText_spec _ a).2.1]
  exact ha

/-- Text that is found in the tree is read as it is written. -/
theorem Leads.text {p : KXmlParser} {tag text : Bytes} (rest : Bytes) {a : KXmlNodeBody}
    {contexts : List Bytes} {stack : List (Bytes × KXmlNodeBody)}
    (h : p.Leads skipNs before root ((tag, a) :: stack)) (htag : IsName tag)
    (hcontexts : p.contexts = tag :: contexts) (hcur : p.curContext.isSome = true)
    (hstate : p.state ≠ .startChar) (hne : text ≠ [])
    (hhead : ∀ c ∈ text.head?, isSpace c = false)
    (hhot : p.hot = writeText text ++ 60 :: 47 :: tag ++ 62 :: rest)
    (hplace : ∀ a Q b, Fits Q root ((tag, a) :: stack) b → b.getText = text) :
    (60 ∉ text → htmlDecode text = text) ∧ (60 ∈ text → ¬kglString "]]>" <:+: text) := by
  have hevents : ∀ character, (({ p with state := .startChar } : KXmlParser).onCharacter
      character).events = p.events ++ [.startCharacter character] := fun character => by
    rw [events_onCharacter, if_pos hcur]
  constructor
  · intro hlt
    have hwrite : writeText text = text := if_neg hlt
    rw [hwrite, List.append_assoc] at hhot
    have htoken : nextToken p.hot = .inl (.text (htmlDecode text), 60 :: 47 :: tag ++ 62 :: rest) := by
      rw [hhot]
      exact nextToken_text hne hhead hlt
    have hloop := parseLoop_token htoken (by rw [take, if_neg hstate])
    have hq := h.character hloop (hevents _)
    have hfinish := parseLoop_finish (p := { ({ p with state := .startChar } :
      KXmlParser).onCharacter (htmlDecode text) with hot := 60 :: 47 :: tag ++ 62 :: rest })
      (List.forall_mem_nil _) htag (by simpa using hcontexts) rfl
    obtain ⟨fired, hfired, hdirect, -⟩ := exists_fired ⟨contexts, none, .endElement,
      (({ p with state := .startChar } : KXmlParser).onCharacter (htmlDecode text)).events ++
        [.endElement tag], rest⟩
    rw [← hfinish, List.append_assoc] at hfired
    have hclosed : Direct true (.endElement tag :: fired) := hdirect
    obtain ⟨b, hb⟩ := hq.fits hfired hclosed
      (· = cstr (htmlDecode text)) (setText_spec _ a).1 (List.forall_mem_nil _)
    exact htmlDecode_of_cstr (hb.grown.text.symm.trans (hplace _ _ b hb))
  · intro hlt hcut
    have hwrite : writeText text = kglString "<![CDATA[" ++ text ++ kglString "]]>" := if_pos hlt
    obtain ⟨character, rest', htoken⟩ : ∃ character rest',
        nextToken p.hot = .inl (.cdata character, rest') := by
      have hend : kglString "]]>" <:+: text ++ (kglString "]]>" ++ 60 :: 47 :: tag ++ 62 :: rest) :=
        hcut.trans (List.prefix_append _ _).isInfix
      obtain ⟨r, hr⟩ := Option.isSome_iff_exists.mp (isSome_kglMemstr hend)
      refine ⟨r.1, r.2, ?_⟩
      rw [hhot, hwrite, List.append_assoc, List.append_assoc, List.append_assoc,
        nextToken_cdataStart, ← List.append_assoc (kglString "]]>"), hr]
    have hnot : ¬kglString "]]>" <:+: cstr character := fun hc =>
      not_infix_of_nextToken htoken (hc.trans (List.takeWhile_prefix _).isInfix)
    have hq := h.character (parseLoop_token htoken rfl) (hevents _)
    obtain ⟨fired, hfired, hdirect, hchars⟩ := exists_fired { ({ p with state := .startChar } :
      KXmlParser).onCharacter character with hot := rest' }
    obtain ⟨b, hb⟩ := hq.fits hfired hdirect (fun x => ¬kglString "]]>" <:+: x)
      ((setText_spec _ a).1.symm ▸ hnot) fun c hc hcut =>
        hchars (by simp) c hc (hcut.trans (List.takeWhile_prefix _).isInfix)
    have := hb.grown.text
    rw [hplace _ _ b hb] at this
    exact this hcut

end KXmlParser

/-! ## A tree that is found is written as it is read -/

/-- No tag of the tree is cut. -/
def Plain (skipNs : Bool) (tag : Bytes) (_body : KXmlNodeBody) : Prop := skipNs = true → 58 ∉ tag

/-- The children that are left stand in front of the place of the next one. -/
def Remain (orig parent : KXmlNodeBody) (nodes : List KXmlNode) : Prop :=
  ∀ tag, (bodysOf tag orig.childs).drop (bodysOf tag parent.childs).length = bodysOf tag nodes

/-- The next child has its place in the tree. -/
theorem Remain.readsAs {orig parent body : KXmlNodeBody} {name tag : Bytes}
    {bodys : List KXmlNodeBody} {nodes : List KXmlNode} {root : KXmlNode}
    {stack : List (Bytes × KXmlNodeBody)}
    (h : Remain orig parent (.mk name (body :: bodys) :: nodes))
    (hplace : ∀ a Q b, Fits Q root ((tag, a) :: stack) b → orig.ReadsAs b) :
    ∀ a Q b, Fits Q root ((name, a) :: (tag, parent) :: stack) b → body.ReadsAs b := by
  rintro a Q b ⟨c, hc, hat, -⟩
  obtain ⟨-, -, hchilds, -⟩ := hplace _ _ c hc
  have hname := h name
  rw [bodysOf_cons, KXmlNode.tag_mk, if_pos rfl] at hname
  have hbody : (bodysOf name orig.childs)[(bodysOf name parent.childs).length]? = some body := by
    rw [← Nat.add_zero (bodysOf name parent.childs).length, ← List.getElem?_drop, hname]
    rfl
  have hlt := (List.getElem?_eq_some_iff.mp hbody).1
  have hlt' := (List.getElem?_eq_some_iff.mp hat).1
  have hget := (hchilds name).get hlt hlt'
  rw [List.get_eq_getElem, List.get_eq_getElem] at hget
  rw [(List.getElem?_eq_some_iff.mp hbody).2, (List.getElem?_eq_some_iff.mp hat).2] at hget
  exact hget

/-- A child is built. -/
theorem Remain.next {orig parent parent' : KXmlNodeBody} {name : Bytes}
    {more : Bytes → List KXmlNodeBody} {bodys : List KXmlNodeBody} (done : List KXmlNodeBody) {nodes : List KXmlNode}
    (h : Remain orig parent (.mk name (done ++ bodys) :: nodes)) (hext : parent.Extends parent' more)
    (hmore : ∀ tag, (more tag).length = if name = tag then done.length else 0) :
    Remain orig parent' (.mk name bodys :: nodes) := by
  intro tag
  rw [hext.childs, List.length_append, ← List.drop_drop, h tag, hmore, bodysOf_cons, bodysOf_cons]
  by_cases hname : name = tag
  · rw [if_pos hname]
    simp [hname]
  · rw [if_neg hname]
    simp [hname]

theorem Remain.done {orig parent : KXmlNodeBody} (name : Bytes) {nodes : List KXmlNode}
    (h : Remain orig parent (.mk name [] :: nodes)) : Remain orig parent nodes := by
  intro tag
  rw [h tag, bodysOf_cons, KXmlNode.body_mk, ite_self, List.nil_append]

/-- A child fires something. -/
theorem eventsOfChilds_ne_nil {nodes : List KXmlNode} (hne : nodes ≠ [])
    (hbodys : ∀ node ∈ nodes, node.body ≠ []) : eventsOfChilds nodes ≠ [] := by
  obtain ⟨node, nodes, rfl⟩ := List.exists_cons_of_ne_nil hne
  obtain ⟨tag, bodys⟩ := node
  obtain ⟨body, bodys, rfl⟩ := List.exists_cons_of_ne_nil (hbodys _ List.mem_cons_self)
  rw [eventsOfChilds, KXmlNode.events, eventsOfBodys, events_eq]
  simp

section

variable {skipNs : Bool} {before : Bytes → Bytes → Bool} {root : KXmlNode}

mutual

/-- An element that is found in the tree is written as it is read. -/
theorem writable_element (level : ℕ) (tag : Bytes) : (body : KXmlNodeBody) →
    body.All KXmlNodeBody.Proper tag → body.All (Plain skipNs) tag →
    ∀ (p : KXmlParser) (stack : List (Bytes × KXmlNodeBody)) (blank rest : Bytes),
    (∀ b ∈ blank, isSpace b = true) → p.hot = blank ++ (body.element level tag ++ rest) →
    p.Leads skipNs before root stack →
    (∀ a Q b, Fits Q root ((tag, a) :: stack) b → body.ReadsAs b) →
    body.All (KXmlNodeBody.Writable skipNs) tag
  | .mk attributes childs, hproper, hplain, p, stack, blank, rest, hblank, hhot, hleads, hplace => by
    obtain ⟨hbody, hchilds⟩ := hproper
    obtain ⟨htag, hplainchilds⟩ := hplain
    obtain ⟨hwritten, hquotes, hends, hvalues⟩ :=
      hleads.attributes hbody htag hblank hhot hplace
    have hgetText : (KXmlNodeBody.mk attributes childs).getText =
        (attributes.lookup textAsAttributeName).getD [] := rfl
    by_cases hsingle : childs.isEmpty ∧ attributes.lookup textAsAttributeName = none
    · have hnil : (KXmlNodeBody.mk attributes childs).getText = [] := by
        rw [hgetText, hsingle.2]
        rfl
      refine ⟨⟨htag, hwritten, hquotes, hends, hvalues, fun h => absurd hnil h, fun _ => ?_,
        fun h => ?_⟩, ?_⟩
      · rw [hnil]
        simp [htmlDecode]
      · rw [hnil] at h
        cases h
      · rw [List.isEmpty_iff.mp hsingle.1]
        trivial
    -- behind the start tag
    have hnames : ∀ a ∈ external attributes, IsName a.1 := hbody.names
    have hgt : ∀ a ∈ external attributes, 62 ∉ writtenValue a.2 := fun a ha hmem =>
      hends a ha (mem_writtenValue hmem)
    have hblank' : ∀ b ∈ blank ++ writeTabs level, isSpace b = true := fun b hb =>
      (List.mem_append.mp hb).elim (hblank b) (isSpace_writeTabs b)
    have htoken : nextToken p.hot = .inl
        (.start tag (readAttributes (external attributes) []) false,
          contentOf level (attributes.lookup textAsAttributeName) childs ++
            60 :: 47 :: tag ++ 62 :: 10 :: rest) := by
      rw [← nextToken_element false _ hblank' hbody.tag hnames hgt, hhot, element_open hsingle]
      simp
    have hstart : KXmlDocument.handleAll skipNs before (docOf stack)
        [.startElement tag (readAttributes (external attributes) [])] =
        docOf ((tag, .mk (readAttributes (external attributes) []) []) :: stack) := by
      rw [KXmlDocument.handleAll, List.foldl_cons, List.foldl_nil, KXmlDocument.handle_start,
        KXmlDocument.tagOf_eq htag]
    have hopen := hleads.go (KXmlParser.parseLoop_token htoken rfl) rfl hstart
      (List.forall_mem_cons.mpr ⟨List.nodup_nil, hleads.keyed⟩)
    by_cases hnodes : childs = []
    · have htext : (60 ∉ (KXmlNodeBody.mk attributes childs).getText →
          htmlDecode (KXmlNodeBody.mk attributes childs).getText =
            (KXmlNodeBody.mk attributes childs).getText) ∧
          (60 ∈ (KXmlNodeBody.mk attributes childs).getText →
            ¬kglString "]]>" <:+: (KXmlNodeBody.mk attributes childs).getText) := by
        by_cases hnil : (KXmlNodeBody.mk attributes childs).getText = []
        · rw [hnil]
          simp [htmlDecode]
        · refine hopen.text (10 :: rest) hbody.tag rfl rfl (by simp) hnil hbody.text ?_
            fun a Q b hb => ?_
          · rw [hnodes]
            rfl
          · obtain ⟨-, hb, -, -⟩ := hplace a Q b hb
            exact hb.symm
      refine ⟨⟨htag, hwritten, hquotes, hends, hvalues, fun _ => hnodes, htext.1, htext.2⟩, ?_⟩
      rw [hnodes]
      trivial
    · have hhot' : contentOf level (attributes.lookup textAsAttributeName) childs ++
          60 :: 47 :: tag ++ 62 :: 10 :: rest = [10] ++ (writeChilds (level + 1) childs ++
            (((attributes.lookup textAsAttributeName).elim [] fun text => writeText text ++ [10]) ++
              writeTabs level ++ 60 :: 47 :: tag ++ 62 :: 10 :: rest)) := by
        rw [contentOf_childs _ hnodes]
        simp
      have hremain : Remain (.mk attributes childs)
          (.mk (readAttributes (external attributes) []) []) childs := fun t => rfl
      have hall := writable_childs (level + 1) childs hchilds hplainchilds _ tag
        (.mk attributes childs) _ stack [10] _ isSpace_newline (List.cons_ne_nil _ _) hhot' hopen
        hplace hremain
      -- the text stands behind a child, where none is reported
      have hext := extends_addChilds before childs
        (.mk (readAttributes (external attributes) []) []) List.nodup_nil
      obtain ⟨q, -, -, -, -, hcur, hleads'⟩ := hopen.reach
        ((tag, addChilds before
          (.mk (readAttributes (external attributes) []) []) childs) :: stack)
        (reaches_childs (level + 1) childs hchilds hall _ [10] _ isSpace_newline
          (List.cons_ne_nil _ _) hhot')
        (by
          rw [handleAll_childs tag childs hchilds hall _ _ rfl]
          rfl)
        (List.forall_mem_cons.mpr ⟨hext.keys, hleads.keyed⟩)
      obtain ⟨fired, hfired, hdirect, -⟩ := q.exists_fired
      rw [hcur (eventsOfChilds_ne_nil hnodes hbody.childs)] at hdirect
      obtain ⟨b, hb⟩ := hleads'.fits hfired hdirect
        (· = (addChilds before (.mk (readAttributes (external attributes) []) []) childs).getText)
        rfl (by rw [firstChars_of_direct hdirect]; exact List.forall_mem_nil _)
      obtain ⟨-, htext, -, -⟩ := hplace _ _ b hb
      have hnil : (KXmlNodeBody.mk attributes childs).getText = [] :=
        htext.trans (hb.grown.text.trans (getText_addChilds before hbody))
      refine ⟨⟨htag, hwritten, hquotes, hends, hvalues, fun h => absurd hnil h, fun _ => ?_,
        fun h => ?_⟩, hall⟩
      · rw [hnil]
        simp [htmlDecode]
      · rw [hnil] at h
        cases h
termination_by structural body => body

theorem writable_bodys (level : ℕ) (name : Bytes) : (bodys : List KXmlNodeBody) →
    AllBodys KXmlNodeBody.Proper name bodys → AllBodys (Plain skipNs) name bodys →
    ∀ (p : KXmlParser) (tag : Bytes) (orig parent : KXmlNodeBody) (nodes : List KXmlNode)
      (stack : List (Bytes × KXmlNodeBody)) (blank rest : Bytes),
    (∀ b ∈ blank, isSpace b = true) → p.contexts ≠ [] →
    p.hot = blank ++ (writeBodys level name bodys ++ rest) →
    p.Leads skipNs before root ((tag, parent) :: stack) →
    (∀ a Q b, Fits Q root ((tag, a) :: stack) b → orig.ReadsAs b) →
    Remain orig parent (.mk name bodys :: nodes) → AllBodys (KXmlNodeBody.Writable skipNs) name bodys
  | [], _, _, _, _, _, _, _, _, _, _, _, _, _, _, _, _ => trivial
  | body :: bodys, hproper, hplain, p, tag, orig, parent, nodes, stack, blank, rest, hblank,
      hcontexts, hhot, hleads, hplace, hremain => by
    rw [writeBodys_cons, List.append_assoc] at hhot
    have hbody := writable_element level name body hproper.1 hplain.1 p _ blank _ hblank hhot hleads
      (hremain.readsAs hplace)
    obtain ⟨hparent, hstack⟩ := List.forall_mem_cons.mp hleads.keyed
    have hadd := extends_add before name (body.rebuilt before) hparent
    have htag : skipNs = true → 58 ∉ name := by
      cases body
      exact hplain.1.1
    obtain ⟨q, blank', hblank', hhot', hq, -, hleads'⟩ := hleads.reach
      ((tag, parent.add before (.mk name [body.rebuilt before])) :: stack)
      (reaches_element level name body hproper.1 hbody p blank _ hblank (.inl hcontexts) hhot) (by
        rw [events_eq, KXmlDocument.handleAll_element htag rfl fun d hd =>
          handleAll_inner name body hproper.1 hbody d hd]
        rfl) (List.forall_mem_cons.mpr ⟨hadd.keys, hstack⟩)
    refine ⟨hbody, writable_bodys level name bodys hproper.2 hplain.2 q tag orig _ nodes stack blank'
      rest hblank' (hq ▸ hcontexts) hhot' hleads' hplace ?_⟩
    exact Remain.next [body] hremain hadd fun t => by split <;> rfl
termination_by structural bodys => bodys

theorem writable_node (level : ℕ) : (node : KXmlNode) →
    node.All KXmlNodeBody.Proper → node.All (Plain skipNs) →
    ∀ (p : KXmlParser) (tag : Bytes) (orig parent : KXmlNodeBody) (nodes : List KXmlNode)
      (stack : List (Bytes × KXmlNodeBody)) (blank rest : Bytes),
    (∀ b ∈ blank, isSpace b = true) → p.contexts ≠ [] →
    p.hot = blank ++ (node.write level ++ rest) →
    p.Leads skipNs before root ((tag, parent) :: stack) →
    (∀ a Q b, Fits Q root ((tag, a) :: stack) b → orig.ReadsAs b) →
    Remain orig parent (node :: nodes) → node.All (KXmlNodeBody.Writable skipNs)
  | .mk name bodys, hproper, hplain, p, tag, orig, parent, nodes, stack, blank, rest, hblank,
      hcontexts, hhot, hleads, hplace, hremain =>
    writable_bodys level name bodys hproper hplain p tag orig parent nodes stack blank rest hblank
      hcontexts hhot hleads hplace hremain
termination_by structural node => node

theorem writable_childs (level : ℕ) : (nodes : List KXmlNode) →
    AllChilds KXmlNodeBody.Proper nodes → AllChilds (Plain skipNs) nodes →
    ∀ (p : KXmlParser) (tag : Bytes) (orig parent : KXmlNodeBody)
      (stack : List (Bytes × KXmlNodeBody)) (blank rest : Bytes),
    (∀ b ∈ blank, isSpace b = true) → p.contexts ≠ [] →
    p.hot = blank ++ (writeChilds level nodes ++ rest) →
    p.Leads skipNs before root ((tag, parent) :: stack) →
    (∀ a Q b, Fits Q root ((tag, a) :: stack) b → orig.ReadsAs b) →
    Remain orig parent nodes → AllChilds (KXmlNodeBody.Writable skipNs) nodes
  | [], _, _, _, _, _, _, _, _, _, _, _, _, _, _, _ => trivial
  | node :: nodes, hproper, hplain, p, tag, orig, parent, stack, blank, rest, hblank, hcontexts,
      hhot, hleads, hplace, hremain => by
    rw [writeChilds, List.append_assoc] at hhot
    have hnode := writable_node level node hproper.1 hplain.1 p tag orig parent nodes stack blank _
      hblank hcontexts hhot hleads hplace hremain
    obtain ⟨hparent, hstack⟩ := List.forall_mem_cons.mp hleads.keyed
    have hadd : parent.Extends (addNode before parent node) fun t =>
        if node.tag = t then node.body.map (KXmlNodeBody.rebuilt before) else [] := by
      cases node
      exact extends_addBodys before _ _ hparent
    obtain ⟨q, blank', hblank', hhot', hq, -, hleads'⟩ := hleads.reach
      ((tag, addNode before parent node) :: stack)
      (reaches_node level node hproper.1 hnode p blank _ hblank hcontexts hhot) (by
        rw [handleAll_node tag node hproper.1 hnode _ parent rfl]
        rfl) (List.forall_mem_cons.mpr ⟨hadd.keys, hstack⟩)
    refine ⟨hnode, writable_childs level nodes hproper.2 hplain.2 q tag orig _ stack blank' rest
      hblank' (hq ▸ hcontexts) hhot' hleads' hplace ?_⟩
    refine Remain.done node.tag (Remain.next node.body ?_ hadd fun t => ?_)
    · cases node
      simpa using hremain
    · split
      · exact List.length_map _
      · rfl
termination_by structural nodes => nodes

end

end

/-! ## The round trip -/

/-- A tree that is built: its nodes have bodies. -/
structure KXmlNode.Proper (t : KXmlNode) : Prop where
  body : t.body ≠ []
  all : t.All KXmlNodeBody.Proper

/-- A tree that the writer and the reader agree on: a document has one root. -/
structure KXmlNode.Writable (skipNs : Bool) (t : KXmlNode) : Prop where
  body : t.body.length = 1
  all : t.All (KXmlNodeBody.Writable skipNs)

/-- A tree that is read back is written as it is read. -/
theorem writable_of_roundTrips {skipNs : Bool} {before : Bytes → Bytes → Bool} {t : KXmlNode}
    (hproper : t.Proper) (hplain : t.All (Plain skipNs)) (h : t.RoundTrips skipNs before) :
    t.Writable skipNs := by
  obtain ⟨tag, bodys⟩ := t
  obtain ⟨root, hparse, htag, hreads⟩ := h
  obtain ⟨body, bodys, rfl⟩ := List.exists_cons_of_ne_nil hproper.body
  obtain ⟨hbody, -⟩ := hproper.all
  have hname : body.Proper tag := by
    cases body
    exact hbody.1
  have hcut : skipNs = true → 58 ∉ tag := by
    obtain ⟨hbody, -⟩ := hplain
    cases body
    exact hbody.1
  -- the run over the document
  have hwrite : (KXmlNode.mk tag (body :: bodys)).write 0 =
      body.element 0 tag ++ writeBodys 0 tag bodys := by
    rw [KXmlNode.write, writeBodys_cons]
  unfold KXmlDocument.parse at hparse
  rw [hwrite, startParse_element hname.tag] at hparse
  dsimp only at hparse
  have hleads : (KXmlParser.init (body.element 0 tag ++ writeBodys 0 tag bodys)).Leads skipNs before
      root [] := by
    split_ifs at hparse with hstop hthrew
    · cases hparse
    · exact ⟨rfl, List.forall_mem_nil _, Bool.not_eq_true _ ▸ fun h => hstop (.inl h),
        Option.some.inj hparse⟩
  -- the root that is returned has one body
  obtain ⟨attrs, single, rest, htoken, -⟩ := KXmlParser.nextToken_shape 0
    (writeBodys 0 tag bodys) hname (List.forall_mem_nil _)
  obtain ⟨b, hroot, -⟩ := hleads.start hcut htoken
  have hlength := hreads.length_eq
  rw [hroot] at hlength
  have hbodys : bodys = [] := by
    simpa using hlength
  subst hbodys
  have hwritable := writable_element 0 tag body hbody hplain.1 _ [] [] [] (by simp) rfl hleads
    fun a Q b hb => by
      rw [hb.1] at hreads
      cases hreads with
      | cons hbody _ => exact hbody
  exact ⟨rfl, hwritable, trivial⟩

/-- **What is written is read back**: exactly where the writer and the reader agree, if `skip_ns`
cuts no tag; and where they agree, it cuts none. -/
theorem roundTrips_iff (skipNs : Bool) (before : Bytes → Bytes → Bool) (t : KXmlNode)
    (hproper : t.Proper) :
    (t.Writable skipNs → t.RoundTrips skipNs before) ∧
      (t.All (Plain skipNs) → t.RoundTrips skipNs before → t.Writable skipNs) := by
  refine ⟨fun h => ?_, writable_of_roundTrips hproper⟩
  obtain ⟨tag, bodys⟩ := t
  obtain ⟨hbody, hall⟩ := h
  obtain ⟨body, rfl⟩ := List.length_eq_one_iff.mp hbody
  exact roundTrips_of_writable before hproper.all.1 hall.1

/-- An element with an attribute, and a child with text. -/
theorem roundTrips_two :
    (KXmlNode.mk (kglString "a") [.mk [(kglString "k", kglString "it's")]
      [.mk (kglString "b") [.mk [(kglString "_", kglString "<1>")] []]]]).RoundTrips true
        (fun a b => a < b) := by
  refine (roundTrips_iff true (fun a b => a < b) _ ⟨by simp, ?_⟩).1 ⟨rfl, ?_⟩
  · refine ⟨⟨?_, ⟨⟨?_, trivial⟩, trivial⟩, trivial⟩, trivial⟩
    · exact ⟨by decide, by decide, by decide, by decide, by rintro c ⟨⟩, by simp⟩
    · exact ⟨by decide, by decide, by decide, by decide, by rintro c ⟨⟩; rfl, by simp⟩
  refine ⟨⟨?_, ⟨⟨?_, trivial⟩, trivial⟩, trivial⟩, trivial⟩
  · have hnil : (KXmlNodeBody.mk [(kglString "k", kglString "it's")]
        [.mk (kglString "b") [.mk [(kglString "_", kglString "<1>")] []]]).getText = [] := by decide
    refine ⟨by decide, by decide, by decide, by decide, fun a ha => ?_, by decide, fun _ => ?_,
      by decide⟩
    · have hmem : a = (kglString "k", kglString "it's") := by simpa [external, kglString] using ha
      rw [hmem]
      simp [htmlDecode, kglString]
    · rw [hnil]
      simp [htmlDecode]
  · refine ⟨by decide, by decide, by decide, by decide, fun a ha => ?_, by decide, fun h => ?_,
      by decide⟩
    · cases ha
    · exact absurd (by decide) h

theorem htmlDecode_lt : htmlDecode (kglString "&lt;") = [60] := by
  have hentity : entity (kglString "lt;") = some (60, []) := rfl
  exact (htmlDecode_entity hentity).trans (congrArg (60 :: ·) (by rw [htmlDecode]))

/-- An attribute whose value holds an entity is read as another one. -/
theorem roundTrips_wrong :
    (KXmlNode.mk (kglString "a") [.mk [(kglString "k", kglString "&lt;")] []]).Proper ∧
      ¬(KXmlNode.mk (kglString "a") [.mk [(kglString "k", kglString "&lt;")] []]).RoundTrips true
        (fun a b => a < b) := by
  have hproper : (KXmlNode.mk (kglString "a") [.mk [(kglString "k", kglString "&lt;")] []]).Proper :=
    ⟨by simp, ⟨⟨by decide, by decide, by decide, by decide, by rintro c ⟨⟩, by simp⟩, trivial⟩, trivial⟩
  refine ⟨hproper, fun h => ?_⟩
  have hplain : (KXmlNode.mk (kglString "a") [.mk [(kglString "k", kglString "&lt;")] []]).All
      (Plain true) := ⟨⟨by unfold Plain; decide, trivial⟩, trivial⟩
  have hvalue := (writable_of_roundTrips hproper hplain h).all.1.1.values
    (kglString "k", kglString "&lt;") (by decide)
  rw [htmlDecode_lt] at hvalue
  revert hvalue
  decide

end Khttpd
