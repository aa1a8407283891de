import Khttpd.Model.KXmlDocument
import Khttpd.Analysis.KXml

/-!
# A written tree, piece by piece

What `KXmlNode::write` writes is a sequence of tags, text and CDATA sections; here is what the
parser's next piece is in front of each of them.
-/

set_option autoImplicit false

namespace Khttpd

/-! ## Names -/

/-- The characters of a name; what is not ASCII is in a name. -/
def isNameChar (c : Byte) : Bool :=
  48 ≤ c && c ≤ 57 || 65 ≤ c && c ≤ 90 || 97 ≤ c && c ≤ 122 || 128 ≤ c ||
    c == 45 || c == 46 || c == 58 || c == 95

/-- A name. -/
def IsName (name : Bytes) : Prop := name ≠ [] ∧ ∀ c ∈ name, isNameChar c = true

instance (name : Bytes) : Decidable (IsName name) :=
  decidable_of_iff ((!name.isEmpty && name.all isNameChar) = true) (by simp [IsName])

/-- The characters at which the parser does something else. -/
def nameEnds : List Byte := [33, 47, 60, 61, 62, 63]

theorem isNameChar_spec : ∀ n < 256, isNameChar (UInt8.ofNat n) = true →
    isSpace (UInt8.ofNat n) = false ∧ UInt8.ofNat n ∉ nameEnds := by
  decide +kernel

theorem isSpace_of_isNameChar {c : Byte} (h : isNameChar c = true) : isSpace c = false := by
  have hc := isNameChar_spec c.toNat c.toNat_lt
  rw [UInt8.ofNat_toNat] at hc
  exact (hc h).1

theorem ne_of_isNameChar {c b : Byte} (h : isNameChar c = true) (hb : b ∈ nameEnds) : c ≠ b := by
  have hc := isNameChar_spec c.toNat c.toNat_lt
  rw [UInt8.ofNat_toNat] at hc
  rintro rfl
  exact (hc h).2 hb

theorem IsName.not_mem {name : Bytes} (h : IsName name) {b : Byte} (hb : b ∈ nameEnds) :
    b ∉ name := fun hmem => ne_of_isNameChar (h.2 b hmem) hb rfl

/-- A name up to white space. -/
theorem IsName.takeWhile {name : Bytes} (h : IsName name) (rest : Bytes)
    (hrest : ∀ c ∈ rest.head?, isSpace c = true) :
    (name ++ rest).takeWhile (fun c => !isSpace c) = name ∧
      (name ++ rest).dropWhile (fun c => !isSpace c) = rest := by
  have hname : ∀ c ∈ name, (!isSpace c) = true := fun c hc => by
    rw [isSpace_of_isNameChar (h.2 c hc)]
    rfl
  rw [List.takeWhile_append_of_pos hname, List.dropWhile_append_of_pos hname]
  cases rest with
  | nil => simp
  | cons c rest =>
    have hc := hrest c rfl
    simp [hc]

/-! ## Pieces -/

theorem kglString_cdata : kglString "<![CDATA[" = [60, 33, 91, 67, 68, 65, 84, 65, 91] := by decide

theorem kglString_comment : kglString "<!--" = [60, 33, 45, 45] := by decide

theorem kglString_cdataEnd : kglString "]]>" = [93, 93, 62] := by decide

/-- A tag, behind white space. -/
theorem nextToken_tag {buf tail : Bytes} {c : Byte}
    (hhot : buf.dropWhile isSpace = 60 :: c :: tail) (hspace : isSpace c = false) (hbang : c ≠ 33) :
    nextToken buf =
      if c = 47 then
        match memchr 62 (tail.dropWhile isSpace) with
        | none => .inr .tag
        | some (content, rest) => .inl (.finish (content.takeWhile fun c => !isSpace c), rest)
      else
        match memchr 62 (c :: tail) with
        | none => .inr .tag
        | some (content, rest) =>
          let content := KXmlParser.splitSingle content
          .inl (.start (content.1.takeWhile fun c => !isSpace c)
            (buildAttribute ((content.1.dropWhile fun c => !isSpace c).drop 1)) content.2, rest) := by
  have hcdata : (kglString "<![CDATA[").isPrefixOf (60 :: c :: tail) = false := by
    rw [kglString_cdata]
    simp [List.isPrefixOf, hbang.symm]
  have hcomment : (kglString "<!--").isPrefixOf (60 :: c :: tail) = false := by
    rw [kglString_comment]
    simp [List.isPrefixOf, hbang.symm]
  have hdrop : (c :: tail).dropWhile isSpace = c :: tail :=
    List.dropWhile_cons_of_neg (by simp [hspace])
  unfold nextToken
  dsimp only
  rw [hhot, if_neg (List.cons_ne_nil _ _), if_pos (List.head?_cons ..), hcdata, hcomment,
    if_neg Bool.false_ne_true, if_neg Bool.false_ne_true, List.drop_one, List.tail_cons, hdrop,
    List.head?_cons, List.drop_one, List.tail_cons, hdrop]
  by_cases hslash : c = 47
  · exact (if_pos (congrArg some hslash)).trans (if_pos hslash).symm
  · exact (if_neg (by simpa using hslash)).trans (if_neg hslash).symm

/-- A start tag, or a single one. -/
theorem nextToken_start {blank content rest : Bytes} {c : Byte}
    (hblank : ∀ b ∈ blank, isSpace b = true) (hc : isNameChar c = true) (hgt : 62 ∉ content) :
    nextToken (blank ++ 60 :: c :: content ++ 62 :: rest) =
      .inl (.start
        ((KXmlParser.splitSingle (c :: content)).1.takeWhile fun c => !isSpace c)
        (buildAttribute
          (((KXmlParser.splitSingle (c :: content)).1.dropWhile fun c => !isSpace c).drop 1))
        (KXmlParser.splitSingle (c :: content)).2, rest) := by
  have hmem : 62 ∉ c :: content := by
    rw [List.mem_cons, not_or]
    exact ⟨(ne_of_isNameChar hc (by decide)).symm, hgt⟩
  have hhot : (blank ++ 60 :: c :: content ++ 62 :: rest).dropWhile isSpace =
      60 :: c :: (content ++ 62 :: rest) := by
    rw [List.append_assoc, List.dropWhile_append_of_pos hblank]
    rfl
  rw [nextToken_tag hhot (isSpace_of_isNameChar hc) (ne_of_isNameChar hc (by decide)),
    if_neg (ne_of_isNameChar hc (by decide)), ← List.cons_append, memchr_append hmem]

/-- An end tag. -/
theorem nextToken_finish {blank tag rest : Bytes} (hblank : ∀ b ∈ blank, isSpace b = true)
    (htag : IsName tag) :
    nextToken (blank ++ 60 :: 47 :: tag ++ 62 :: rest) = .inl (.finish tag, rest) := by
  have hhot : (blank ++ 60 :: 47 :: tag ++ 62 :: rest).dropWhile isSpace =
      60 :: 47 :: (tag ++ 62 :: rest) := by
    rw [List.append_assoc, List.dropWhile_append_of_pos hblank]
    rfl
  have hname : (tag ++ 62 :: rest).dropWhile isSpace = tag ++ 62 :: rest := by
    obtain ⟨c, tail, rfl⟩ := List.exists_cons_of_ne_nil htag.1
    have hspace := isSpace_of_isNameChar (htag.2 c List.mem_cons_self)
    exact List.dropWhile_cons_of_neg (by simp [hspace])
  have hcontent := (htag.takeWhile [] (by simp)).1
  rw [List.append_nil] at hcontent
  rw [nextToken_tag hhot (by decide) (by decide), if_pos rfl, hname,
    memchr_append (htag.not_mem (by decide))]
  dsimp only
  rw [hcontent]

/-- Text in front of markup. -/
theorem nextToken_text {text rest : Bytes} (hne : text ≠ [])
    (hhead : ∀ c ∈ text.head?, isSpace c = false) (hlt : 60 ∉ text) :
    nextToken (text ++ 60 :: rest) = .inl (.text (htmlDecode text), 60 :: rest) := by
  obtain ⟨c, tail, rfl⟩ := List.exists_cons_of_ne_nil hne
  have hc : c ≠ 60 := fun h => hlt (h ▸ List.mem_cons_self)
  have hhot : (c :: tail ++ 60 :: rest).dropWhile isSpace = c :: tail ++ 60 :: rest := by
    have hspace := hhead c rfl
    exact List.dropWhile_cons_of_neg (by simp [hspace])
  unfold nextToken
  dsimp only
  rw [hhot, if_neg (by simp), if_neg (by simpa using hc), memchr_append hlt]

/-- The end of a CDATA section is the first one. -/
theorem kglMemstr_cdataEnd {text : Bytes} (h : ¬kglString "]]>" <:+: text) (rest : Bytes) :
    kglMemstr (kglString "]]>") (text ++ kglString "]]>" ++ rest) = some (text, rest) := by
  induction text with
  | nil => rfl
  | cons c text ih =>
    have hprefix : ¬(kglString "]]>").isPrefixOf (c :: text ++ kglString "]]>" ++ rest) = true := by
      rw [kglString_cdataEnd] at h ⊢
      intro hp
      -- the end lies in the text, or it begins there and goes on with `]`
      match text with
      | [] => simp [List.isPrefixOf] at hp
      | [b] => simp [List.isPrefixOf] at hp
      | b :: a :: text =>
        simp only [List.cons_append, List.isPrefixOf, Bool.and_eq_true, beq_iff_eq] at hp
        obtain ⟨rfl, rfl, rfl, -⟩ := hp
        exact h ⟨[], text, rfl⟩
    rw [List.cons_append, List.cons_append] at hprefix ⊢
    rw [kglMemstr, if_neg hprefix,
      ih fun hcut => h (hcut.trans (List.suffix_cons _ _).isInfix)]
    rfl

/-- Behind the start of a CDATA section. -/
theorem nextToken_cdataStart (buf : Bytes) :
    nextToken (kglString "<![CDATA[" ++ buf) =
      match kglMemstr (kglString "]]>") buf with
      | none => .inr .cdata
      | some (character, rest) => .inl (.cdata character, rest) := by
  have hhot : (kglString "<![CDATA[" ++ buf).dropWhile isSpace = kglString "<![CDATA[" ++ buf := rfl
  have hhead : (kglString "<![CDATA[" ++ buf).head? = some 60 := rfl
  have hdrop : (kglString "<![CDATA[" ++ buf).drop 9 = buf := rfl
  unfold nextToken
  dsimp only
  rw [hhot, if_neg (by simp [kglString]), if_pos hhead, hdrop]
  exact if_pos (by simp)

/-- A CDATA section. -/
theorem nextToken_cdata {text : Bytes} (h : ¬kglString "]]>" <:+: text) (rest : Bytes) :
    nextToken (kglString "<![CDATA[" ++ text ++ kglString "]]>" ++ rest) =
      .inl (.cdata text, rest) := by
  rw [List.append_assoc, List.append_assoc, ← List.append_assoc text, nextToken_cdataStart,
    kglMemstr_cdataEnd h]

/-! ## Attributes -/

/-- The value between the quotes that are written. -/
def writtenValue (value : Bytes) : Bytes := if 39 ∈ value ∧ 34 ∈ value then [] else value

/-- An attribute is written between two quotes that are not in what is between them. -/
theorem writeAttribute_eq {name : Bytes} (hname : name.head? ≠ some 95) (value : Bytes) :
    ∃ quote, (quote = 39 ∨ quote = 34) ∧ quote ∉ writtenValue value ∧
      writeAttribute (name, value) =
        32 :: name ++ 61 :: quote :: writtenValue value ++ [quote] := by
  have hwrites : ¬(name = textAsAttributeName ∨ name.head? = some 95) := by
    rintro (rfl | h)
    · exact hname rfl
    · exact hname h
  unfold writeAttribute writtenValue
  dsimp only
  rw [if_neg hwrites]
  by_cases hone : 39 ∈ value
  · rw [if_neg (not_not.mpr hone)]
    by_cases htwo : 34 ∈ value
    · rw [if_neg (not_not.mpr htwo), if_pos ⟨hone, htwo⟩]
      exact ⟨39, .inl rfl, List.not_mem_nil, by simp⟩
    · rw [if_pos htwo, if_neg fun h => htwo h.2]
      exact ⟨34, .inr rfl, htwo, by simp⟩
  · rw [if_pos hone, if_neg fun h => hone h.1]
    exact ⟨39, .inl rfl, hone, by simp⟩

theorem buildAttributeLoop_stop (buf : Bytes) (attr : KXmlAttribute)
    (h : memchr 61 (buf.dropWhile isSpace) = none) : buildAttributeLoop buf attr = attr := by
  rw [buildAttributeLoop]
  split
  · rfl
  · split
    · rfl
    · rename_i heq
      rw [h] at heq
      cases heq

theorem buildAttributeLoop_open {buf name rest : Bytes} (attr : KXmlAttribute)
    (h : memchr 61 (buf.dropWhile isSpace) = some (name, rest)) (hopen : getString rest = none) :
    buildAttributeLoop buf attr = attr := by
  rw [buildAttributeLoop]
  split
  · rfl
  · split
    · rfl
    · rename_i heq
      rw [h] at heq
      cases heq
      split
      · rfl
      · rename_i heq
        rw [hopen] at heq
        cases heq

theorem buildAttributeLoop_go {buf name rest : Bytes} {got : GotString} (attr : KXmlAttribute)
    (h : memchr 61 (buf.dropWhile isSpace) = some (name, rest)) (hgot : getString rest = some got) :
    buildAttributeLoop buf attr = buildAttributeLoop got.next
      (attr.emplace (name.rdropWhile isSpace) (cstr (htmlDecode got.start))) := by
  rw [buildAttributeLoop]
  split
  · rename_i hnil
    rw [hnil] at h
    cases h
  · split
    · rename_i heq
      rw [h] at heq
      cases heq
    · rename_i heq
      rw [h] at heq
      cases heq
      split
      · rename_i heq
        rw [hgot] at heq
        cases heq
      · rename_i heq
        rw [hgot] at heq
        cases heq
        rfl

/-- White space in front of an attribute is skipped. -/
theorem buildAttributeLoop_space (buf : Bytes) (attr : KXmlAttribute) :
    buildAttributeLoop (32 :: buf) attr = buildAttributeLoop buf attr := by
  have hspace : (32 :: buf : Bytes).dropWhile isSpace = buf.dropWhile isSpace := rfl
  cases h : memchr 61 (buf.dropWhile isSpace) with
  | none =>
    rw [buildAttributeLoop_stop _ attr h, buildAttributeLoop_stop _ attr (by rw [hspace, h])]
  | some r =>
    cases hgot : getString r.2 with
    | none =>
      rw [buildAttributeLoop_open attr h hgot, buildAttributeLoop_open attr (by rw [hspace, h]) hgot]
    | some got =>
      rw [buildAttributeLoop_go attr h hgot, buildAttributeLoop_go attr (by rw [hspace, h]) hgot]

theorem memchr_name {name : Bytes} (hname : IsName name) (rest : Bytes) :
    memchr 61 ((32 :: name ++ 61 :: rest : Bytes).dropWhile isSpace) = some (name, rest) := by
  obtain ⟨c, tail, rfl⟩ := List.exists_cons_of_ne_nil hname.1
  have hspace := isSpace_of_isNameChar (hname.2 c List.mem_cons_self)
  have hdrop : (32 :: (c :: tail) ++ 61 :: rest : Bytes).dropWhile isSpace =
      c :: tail ++ 61 :: rest := by
    show (c :: (tail ++ 61 :: rest) : Bytes).dropWhile isSpace = _
    exact List.dropWhile_cons_of_neg (by simp [hspace])
  rw [hdrop, memchr_append (hname.not_mem (by decide))]

/-- An attribute is read. -/
theorem buildAttributeLoop_cons {name value : Bytes} (hname : IsName name)
    (hexternal : name.head? ≠ some 95) (rest : Bytes) (attr : KXmlAttribute) :
    buildAttributeLoop (writeAttribute (name, value) ++ rest) attr =
      buildAttributeLoop rest (attr.emplace name (cstr (htmlDecode (writtenValue value)))) := by
  obtain ⟨quote, hquote, hmem, hwrite⟩ := writeAttribute_eq hexternal value
  have hbuf : writeAttribute (name, value) ++ rest =
      32 :: name ++ 61 :: (quote :: writtenValue value ++ quote :: rest) := by
    rw [hwrite]
    simp
  have hget : getString (quote :: writtenValue value ++ quote :: rest) =
      some (.quoted (writtenValue value) rest) := by
    unfold getString
    have hspace : isSpace quote = false := by
      rcases hquote with rfl | rfl <;> rfl
    have hends : ¬(quote ≠ 39 ∧ quote ≠ 34) := by
      rintro ⟨h, h'⟩
      exact hquote.elim h h'
    rw [List.cons_append, List.dropWhile_cons_of_neg (by simp [hspace])]
    dsimp only
    rw [if_neg hends, memchr_append hmem]
    rfl
  have htrim : name.rdropWhile isSpace = name := by
    rw [List.rdropWhile_eq_self_iff]
    intro h
    rw [isSpace_of_isNameChar (hname.2 _ (List.getLast_mem h))]
    exact Bool.false_ne_true
  rw [hbuf, buildAttributeLoop_go attr (memchr_name hname _) hget, htrim]
  rfl

/-- The attributes that are written. -/
def external (attributes : KXmlAttribute) : KXmlAttribute :=
  attributes.filter fun a => a.1.head? ≠ some 95

theorem external_cons_of_neg {a : Bytes × Bytes} (h : a.1.head? = some 95)
    (attributes : KXmlAttribute) : external (a :: attributes) = external attributes :=
  List.filter_cons_of_neg (by simp [h])

theorem external_cons_of_pos {a : Bytes × Bytes} (h : a.1.head? ≠ some 95)
    (attributes : KXmlAttribute) : external (a :: attributes) = a :: external attributes :=
  List.filter_cons_of_pos (by simp [h])

theorem writeAttribute_internal {a : Bytes × Bytes} (h : a.1.head? = some 95) :
    writeAttribute a = [] := if_pos (.inr h)

/-- What is read of written attributes. -/
def readAttributes (attributes attr : KXmlAttribute) : KXmlAttribute :=
  attributes.foldl (fun attr a => attr.emplace a.1 (cstr (htmlDecode (writtenValue a.2)))) attr

/-- Written attributes are read. -/
theorem buildAttributeLoop_write {attributes : KXmlAttribute}
    (hnames : ∀ a ∈ external attributes, IsName a.1) (rest : Bytes) (attr : KXmlAttribute) :
    buildAttributeLoop (attributes.flatMap writeAttribute ++ rest) attr =
      buildAttributeLoop rest (readAttributes (external attributes) attr) := by
  induction attributes generalizing attr with
  | nil => rfl
  | cons a attributes ih =>
    by_cases hexternal : a.1.head? = some 95
    · rw [external_cons_of_neg hexternal] at hnames ⊢
      rw [List.flatMap_cons, writeAttribute_internal hexternal, List.nil_append, ih hnames]
    · rw [external_cons_of_pos hexternal] at hnames ⊢
      rw [List.flatMap_cons, List.append_assoc,
        buildAttributeLoop_cons (hnames a List.mem_cons_self) hexternal,
        ih fun b hb => hnames b (List.mem_cons_of_mem _ hb)]
      rfl

/-! ## Start tags -/

theorem mem_writtenValue {value : Bytes} {c : Byte} (h : c ∈ writtenValue value) : c ∈ value := by
  unfold writtenValue at h
  split at h
  · cases h
  · exact h

/-- A written attribute begins with a space, ends with a quote and ends no tag. -/
theorem writeAttribute_spec {name : Bytes} (hname : IsName name)
    (hexternal : name.head? ≠ some 95) (value : Bytes) :
    (∃ tail, writeAttribute (name, value) = 32 :: tail) ∧
      (∃ front quote, writeAttribute (name, value) = front ++ [quote] ∧
        (quote = 39 ∨ quote = 34)) ∧
      (62 ∉ writtenValue value → 62 ∉ writeAttribute (name, value)) := by
  obtain ⟨quote, hquote, -, hwrite⟩ := writeAttribute_eq hexternal value
  rw [hwrite]
  refine ⟨⟨_, rfl⟩, ⟨_, quote, rfl, hquote⟩, fun hwritten hmem => ?_⟩
  have hgt : (62 : Byte) ∉ name := hname.not_mem (by decide)
  have hne : (62 : Byte) ≠ quote := by
    rcases hquote with rfl | rfl
    · decide
    · decide
  simp [hgt, hne, hwritten] at hmem

/-- The attributes in a start tag. -/
theorem flatMap_writeAttribute_spec {attributes : KXmlAttribute}
    (hnames : ∀ a ∈ external attributes, IsName a.1) :
    (∀ c ∈ (attributes.flatMap writeAttribute).head?, c = 32) ∧
      (∀ c ∈ (attributes.flatMap writeAttribute).getLast?, c = 39 ∨ c = 34) ∧
      ((∀ a ∈ external attributes, 62 ∉ writtenValue a.2) →
        62 ∉ attributes.flatMap writeAttribute) := by
  induction attributes with
  | nil => simp
  | cons a attributes ih =>
    by_cases hexternal : a.1.head? = some 95
    · rw [external_cons_of_neg hexternal] at hnames ⊢
      rw [List.flatMap_cons, writeAttribute_internal hexternal, List.nil_append]
      exact ih hnames
    · rw [external_cons_of_pos hexternal] at hnames ⊢
      obtain ⟨⟨tail, hhead⟩, ⟨front, quote, hlast, hquote⟩, hgt⟩ :=
        writeAttribute_spec (hnames a List.mem_cons_self) hexternal a.2
      obtain ⟨-, ihlast, ihgt⟩ := ih fun b hb => hnames b (List.mem_cons_of_mem _ hb)
      rw [List.flatMap_cons]
      refine ⟨?_, ?_, ?_⟩
      · rw [hhead]
        simp
      · intro c hc
        rw [List.getLast?_append] at hc
        cases hrest : (attributes.flatMap writeAttribute).getLast? with
        | none =>
          rw [hrest, hlast] at hc
          simp only [Option.none_or, List.getLast?_concat, Option.mem_def,
            Option.some.injEq] at hc
          exact hc ▸ hquote
        | some b =>
          rw [hrest] at hc
          exact ihlast c (hrest.trans hc)
      · intro hvalues hmem
        rcases List.mem_append.mp hmem with hmem | hmem
        · exact hgt (hvalues a List.mem_cons_self) hmem
        · exact ihgt (fun b hb => hvalues b (List.mem_cons_of_mem _ hb)) hmem

/-- The content of a tag that no `/` ends. -/
theorem splitSingle_of_getLast {content : Bytes}
    (h : ∀ c ∈ content.getLast?, isSpace c = false ∧ c ≠ 47) :
    KXmlParser.splitSingle content = (content, false) := by
  cases hreverse : content.reverse with
  | nil =>
    unfold KXmlParser.splitSingle
    rw [hreverse]
    rfl
  | cons c front =>
    obtain ⟨hspace, hslash⟩ := h c (by rw [← List.head?_reverse, hreverse]; rfl)
    unfold KXmlParser.splitSingle
    rw [hreverse, List.dropWhile_cons_of_neg (by simp [hspace])]
    split
    · rename_i heq
      cases heq
      exact absurd rfl hslash
    · rfl

theorem splitSingle_slash (content : Bytes) :
    KXmlParser.splitSingle (content ++ [47]) = (content, true) := by
  unfold KXmlParser.splitSingle
  rw [List.reverse_append, List.reverse_singleton, List.singleton_append]
  show (content.reverse.reverse, true) = _
  rw [List.reverse_reverse]

/-- The start tag of an element. -/
theorem nextToken_element {blank tag : Bytes} {attributes : KXmlAttribute} (single : Bool)
    (rest : Bytes) (hblank : ∀ b ∈ blank, isSpace b = true) (htag : IsName tag)
    (hnames : ∀ a ∈ external attributes, IsName a.1)
    (hvalues : ∀ a ∈ external attributes, 62 ∉ writtenValue a.2) :
    nextToken (blank ++ 60 :: (tag ++ attributes.flatMap writeAttribute) ++
        (if single then [47] else []) ++ 62 :: rest) =
      .inl (.start tag (readAttributes (external attributes) []) single, rest) := by
  obtain ⟨hhead, hlast, hgt⟩ := flatMap_writeAttribute_spec hnames
  have hgt := hgt hvalues
  obtain ⟨htake, hdrop⟩ := htag.takeWhile (attributes.flatMap writeAttribute)
    fun c hc => by
      rw [hhead c hc]
      rfl
  have hbuild : buildAttribute ((attributes.flatMap writeAttribute).drop 1) =
      readAttributes (external attributes) [] := by
    have hwrite := buildAttributeLoop_write hnames [] []
    rw [List.append_nil, buildAttributeLoop_stop [] _ rfl] at hwrite
    unfold buildAttribute
    cases hattrs : attributes.flatMap writeAttribute with
    | nil =>
      rw [← hwrite, hattrs]
      rfl
    | cons c text =>
      rw [hattrs] at hhead hwrite
      rw [← hwrite, hhead c rfl, buildAttributeLoop_space]
      rfl
  obtain ⟨c, tail, hct⟩ := List.exists_cons_of_ne_nil htag.1
  have hc : isNameChar c = true := htag.2 c (by rw [hct]; exact List.mem_cons_self)
  have hsplit : KXmlParser.splitSingle (tag ++ attributes.flatMap writeAttribute ++
      (if single then [47] else [])) = (tag ++ attributes.flatMap writeAttribute, single) := by
    cases single with
    | true => exact splitSingle_slash _
    | false =>
      rw [if_neg Bool.false_ne_true, List.append_nil]
      refine splitSingle_of_getLast fun b hb => ?_
      rw [List.getLast?_append] at hb
      cases hattrs : (attributes.flatMap writeAttribute).getLast? with
      | none =>
        rw [hattrs, Option.none_or] at hb
        have hname := htag.2 b (List.mem_of_getLast? hb)
        exact ⟨isSpace_of_isNameChar hname, ne_of_isNameChar hname (by decide)⟩
      | some d =>
        rw [hattrs] at hb
        cases hb
        rcases hlast b hattrs with rfl | rfl
        · decide
        · decide
  have hcontent : 62 ∉ tail ++ attributes.flatMap writeAttribute ++
      (if single then [47] else []) := by
    have htail : (62 : Byte) ∉ tail := fun h =>
      htag.not_mem (by decide : (62 : Byte) ∈ nameEnds) (by rw [hct]; exact List.mem_cons_of_mem _ h)
    cases single <;> simp [htail, hgt]
  have hbuf : blank ++ 60 :: (tag ++ attributes.flatMap writeAttribute) ++
      (if single then [47] else []) ++ 62 :: rest =
      blank ++ 60 :: c :: (tail ++ attributes.flatMap writeAttribute ++
        (if single then [47] else [])) ++ 62 :: rest := by
    rw [hct]
    simp
  rw [hbuf, nextToken_start hblank hc hcontent]
  have hjoin : c :: (tail ++ attributes.flatMap writeAttribute ++ (if single then [47] else [])) =
      tag ++ attributes.flatMap writeAttribute ++ (if single then [47] else []) := by
    rw [hct]
    simp
  rw [hjoin, hsplit]
  dsimp only
  rw [htake, hdrop, hbuild]

end Khttpd
