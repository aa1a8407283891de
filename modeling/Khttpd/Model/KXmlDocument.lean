import Khttpd.Model.KXml

/-!
# XML documents

The trees of `KXmlNode`, how they are written, and `KXmlDocument`, the handler of the parser's
events that builds them. A key is its tag here: `vary` and the tag id are not written, and without
a table of qualified names the handler does not set them. The bodies of a node are the list that a
`KAutoArray` stands for, and the nodes of a map stand in the order of the map.
-/

set_option autoImplicit false

namespace Khttpd

/-! ## Trees -/

mutual

/-- `KXmlNode`: the tag, and the bodies that stand under it. -/
inductive KXmlNode
  | mk (tag : Bytes) (body : List KXmlNodeBody)

/-- `KXmlNodeBody`. -/
inductive KXmlNodeBody
  | mk (attributes : KXmlAttribute) (childs : List KXmlNode)

end

namespace KXmlNode

/-- `key.tag`. -/
def tag : KXmlNode → Bytes
  | mk tag _ => tag

/-- The array of bodies. -/
def body : KXmlNode → List KXmlNodeBody
  | mk _ body => body

@[simp] theorem tag_mk (tag : Bytes) (body : List KXmlNodeBody) : (mk tag body).tag = tag := rfl

@[simp] theorem body_mk (tag : Bytes) (body : List KXmlNodeBody) : (mk tag body).body = body := rfl

end KXmlNode

/-- `text_as_attribute_name`. -/
def textAsAttributeName : Bytes := kglString "_"

namespace KXmlNodeBody

/-- The attributes, the text among them. -/
def attributes : KXmlNodeBody → KXmlAttribute
  | mk attributes _ => attributes

/-- The map of children. -/
def childs : KXmlNodeBody → List KXmlNode
  | mk _ childs => childs

@[simp] theorem attributes_mk (attributes : KXmlAttribute) (childs : List KXmlNode) :
    (mk attributes childs).attributes = attributes := rfl

@[simp] theorem childs_mk (attributes : KXmlAttribute) (childs : List KXmlNode) :
    (mk attributes childs).childs = childs := rfl

/-- `get_text`. -/
def getText (body : KXmlNodeBody) : Bytes := (body.attributes.lookup textAsAttributeName).getD []

end KXmlNodeBody

/-! ## Writing -/

/-- An attribute, as `KXmlNodeBody::write` writes it. -/
def writeAttribute (attr : Bytes × Bytes) : Bytes :=
  let (name, value) := attr
  -- the text, and the other names that begin with `internal_xml_attribute`
  if name = textAsAttributeName ∨ name.head? = some 95 then []
  else
    [32] ++ name ++ [61] ++
      if 39 ∉ value then [39] ++ value ++ [39]
      else if 34 ∉ value then [34] ++ value ++ [34]
      else [39, 39]

/-- The text, as `KXmlNodeBody::write` writes it. -/
def writeText (text : Bytes) : Bytes :=
  if 60 ∈ text then kglString "<![CDATA[" ++ text ++ kglString "]]>" else text

/-- `level` tabs. -/
def writeTabs (level : ℕ) : Bytes := List.replicate level 9

mutual

/-- `KXmlNode::write`; the stream takes everything. -/
def KXmlNode.write (level : ℕ) : KXmlNode → Bytes
  | .mk tag body => writeBodys level tag body

/-- The loop of `KXmlNode::write`. -/
def writeBodys (level : ℕ) (tag : Bytes) : List KXmlNodeBody → Bytes
  | [] => []
  | body :: bodys =>
    let (written, ended) := body.write level
    writeTabs level ++ [60] ++ tag ++ written ++
      (if ended then [] else [60, 47] ++ tag ++ [62, 10]) ++ writeBodys level tag bodys

/-- `KXmlNodeBody::write`: what it writes, and whether it returns `KGL_END`. -/
def KXmlNodeBody.write (level : ℕ) : KXmlNodeBody → Bytes × Bool
  | .mk attributes childs =>
    let text := attributes.lookup textAsAttributeName
    let written := attributes.flatMap writeAttribute
    if childs.isEmpty ∧ text = none then (written ++ [47, 62, 10], true)
    else
      (written ++ (if childs.isEmpty then [62] else [62, 10]) ++ writeChilds (level + 1) childs ++
        (text.elim [] fun text => writeText text ++ if childs.isEmpty then [] else [10]) ++
        (if childs.isEmpty then [] else writeTabs level), false)

/-- The loop of `KXmlNodeBody::write` over the children. -/
def writeChilds (level : ℕ) : List KXmlNode → Bytes
  | [] => []
  | node :: nodes => node.write level ++ writeChilds level nodes

end

/-! ## Building -/

/-- `set_text`. -/
def KXmlNodeBody.setText (text : Bytes) : KXmlNodeBody → KXmlNodeBody
  | .mk attributes childs =>
    if (attributes.lookup textAsAttributeName).isSome then
      .mk (attributes.map fun a => if a.1 = textAsAttributeName then (a.1, text) else a) childs
    else .mk (attributes.emplace textAsAttributeName text) childs

/-- `KXmlNodeBody::add` at the last place. `before` is the order in which the map keeps its keys. -/
def KXmlNodeBody.add (before : Bytes → Bytes → Bool) (xml : KXmlNode) :
    KXmlNodeBody → KXmlNodeBody
  | .mk attributes childs =>
    if childs.any (fun node => node.tag = xml.tag) then
      .mk attributes (childs.map fun node =>
        if node.tag = xml.tag then .mk node.tag (node.body ++ xml.body.getLast?.toList) else node)
    else
      .mk attributes (childs.takeWhile (fun node => before node.tag xml.tag) ++
        xml :: childs.dropWhile fun node => before node.tag xml.tag)

/-- `append`. -/
def KXmlNode.append (before : Bytes → Bytes → Bool) (node xml : KXmlNode) : KXmlNode :=
  match node.body.getLast? with
  | none => node
  | some last => .mk node.tag (node.body.dropLast ++ [last.add before xml])

/-- `KXmlDocument`. `failed` is set when an assertion of the source fails. -/
structure KXmlDocument where
  curNode : Option KXmlNode
  root : Option KXmlNode
  parents : List (Option KXmlNode)
  failed : Bool

namespace KXmlDocument

/-- The document of the constructor. -/
def init : KXmlDocument := ⟨none, none, [], false⟩

/-- The tag of an element. -/
def tagOf (skipNs : Bool) (qName : Bytes) : Bytes :=
  if skipNs then
    match memchr 58 qName with
    | some (_, name) => name
    | none => qName
  else qName

/-- `startElement`, without a table of qualified names. -/
def startElement (skipNs : Bool) (doc : KXmlDocument) (qName : Bytes) (attrs : KXmlAttribute) :
    KXmlDocument :=
  { doc with
    parents := doc.curNode :: doc.parents
    curNode := some (.mk (tagOf skipNs qName) [.mk attrs []]) }

/-- `startCharacter`. -/
def startCharacter (doc : KXmlDocument) (character : Bytes) : KXmlDocument :=
  match doc.curNode with
  | some (.mk tag (first :: bodys)) =>
    { doc with curNode := some (.mk tag (first.setText (cstr character) :: bodys)) }
  | _ => doc

/-- `endElement`. -/
def endElement (before : Bytes → Bytes → Bool) (doc : KXmlDocument) : KXmlDocument :=
  match doc.curNode with
  | none => doc
  | some node =>
    let parents := doc.parents.tail
    match doc.parents.headD none with
    | none =>
      ⟨none, some node, parents, doc.failed || doc.root.isSome⟩
    | some parent => { doc with curNode := some (parent.append before node), parents := parents }

/-- The events of the parser, one after the other. -/
def handle (skipNs : Bool) (before : Bytes → Bytes → Bool) (doc : KXmlDocument) :
    XmlEvent → KXmlDocument
  | .startElement qName attrs => doc.startElement skipNs qName attrs
  | .startCharacter character => doc.startCharacter character
  | .endElement _ => doc.endElement before

end KXmlDocument

/-- What is in front of the document for `internelParseString`, after `startParse` has looked for an
XML declaration; `none` where it throws. -/
def startParse (buf : Bytes) : Option Bytes :=
  (memchr 60 buf).bind fun r =>
    if r.2.head? = some 63 then
      (memchr 63 (r.2.drop 1)).bind fun r => if r.2.head? = some 62 then some (r.2.drop 1) else none
    else some buf

/-- `KXmlDocument::parse`: the tree, or NULL. Nothing is returned where an assertion fails or the
parser computes with a null pointer. -/
def KXmlDocument.parse (skipNs : Bool) (before : Bytes → Bytes → Bool) (str : Bytes) :
    Option (Option KXmlNode) :=
  match startParse str with
  | none => some none
  | some buf =>
    let (parser, result) := internelParseString buf
    let doc := parser.events.foldl (KXmlDocument.handle skipNs before) .init
    if doc.failed ∨ result = .undefined then none
    else if result = .threw then some none
    else some doc.root

end Khttpd
