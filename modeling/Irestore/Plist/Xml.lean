/-
# Plist.Xml — `xplist.c`: property lists as XML, and back

`node_to_xml` adds to an XML element the indentation, the element of a node and a
newline; `xml_to_node` walks the children of an element and skips the text between
them.  libxml2 and GLib come in as a `Host`; `Documented` is what is assumed of them.

* `Host` — what libxml2 and GLib do with documents, numbers and dates.
* `nodeToXml`, `plistToXml` — the writer.
* `xmlToNode`, `xmlToPlist` — the reader.
-/
import Irestore.Library.Xml
import Irestore.Library.Base64
import Irestore.Plist.XmlFormat
import Irestore.Plist.Node

namespace Irestore.Plist

open Irestore.Library Irestore.Library.CMemory Irestore.Library.Base64

set_option autoImplicit false

/-! ## The libraries -/

/-- The names of elements that `xplist.c` knows. -/
inductive Tag where
  | text | key | false | true | integer | real | date | data | string | array | dict
  | other (name : List UInt8)
  deriving DecidableEq

/-- `xmlCharEncoding`, as far as it is told apart. -/
inductive CharEncoding where
  | none | ascii | utf8 | other
  deriving DecidableEq

/-- libxml2, GLib and the number formats. -/
structure Host where
  /-- The text of a child that `xmlNewChild` makes of some content. -/
  resolve : List UInt8 → List UInt8
  xmlDetectCharEncoding : List UInt8 → CharEncoding
  /-- The children of the root after dumping and parsing the document. -/
  reparse : Xml Tag → Xml Tag
  gBase64Encode : List UInt8 → List UInt8
  gBase64Decode : List UInt8 → List UInt8
  gAsciiStrtoull : List UInt8 → UInt64
  printReal : UInt64 → List UInt8
  atof : List UInt8 → UInt64
  gTimeValToIso8601 : Int → Int → List UInt8
  gTimeValFromIso8601 : List UInt8 → Int × Int

/-- A `guint64` as `printf` writes it. -/
def decimal (n : UInt64) : List UInt8 := (Nat.toDigits 10 n.toNat).map fun c => UInt8.ofNat c.toNat

/-- What is documented of the libraries. -/
structure Host.Documented (host : Host) : Prop where
  /-- Content without references is taken as it is. -/
  resolve_plain : ∀ {text : List UInt8}, 0x26 ∉ text → host.resolve text = text
  /-- A reference is longer than what it stands for. -/
  resolve_shorter : ∀ {text : List UInt8}, 0x26 ∈ text →
    (host.resolve text).length < text.length
  detect_text : ∀ {text : List UInt8}, XmlText text → host.xmlDetectCharEncoding text ≠ .other
  reparse_text : ∀ {doc : Xml Tag}, doc.AllText XmlText → (host.reparse doc).outline = doc.outline
  encode_base64 : ∀ {bytes : List UInt8}, ∀ b ∈ host.gBase64Encode bytes, isBase64 b
  decode_encode : ∀ bytes : List UInt8, host.gBase64Decode (host.gBase64Encode bytes) = bytes
  decode_blank : ∀ text : List UInt8,
    host.gBase64Decode text = host.gBase64Decode (text.filter fun b => !isBlank b)
  decode_nil : host.gBase64Decode [] = []
  strtoull_decimal : ∀ n : UInt64, host.gAsciiStrtoull (decimal n) = n

/-! ## Writing -/

/-- Is the node an array or a dictionary? -/
def PlistType.isStruct (type : PlistType) : Bool := type = .array ∨ type = .dict

/-- The tag and the content of a node's element. -/
def elementOf (host : Host) (depth : UInt32) (data : PlistData) :
    Checked (Option (Tag × Option (List UInt8))) :=
  match data.type, data.value with
  | .boolean, .word bits => .ok (some (if bits.toUInt8 ≠ 0 then .true else .false, none))
  | .uint, .word bits => .ok (some (.integer, some (decimal bits)))
  | .real, .word bits => .ok (some (.real, some (host.printReal bits)))
  | .string, .strval text => .ok (some (.string, some text))
  | .key, .strval text => .ok (some (.key, some text))
  | .data, .buff block =>
      if data.length = 0 then .ok (some (.data, none))
      else do
        let bytes ← memcpy block data.length
        let val ← formatString (host.gBase64Encode bytes) 68 depth.toNat
        return some (.data, some val)
  | .array, _ => .ok (some (.array, none))
  | .dict, _ => .ok (some (.dict, none))
  | .date, .timeval sec usec => .ok (some (.date, some (host.gTimeValToIso8601 sec usec)))
  | .none, _ => .ok none
  | _, _ => .error .wildPointer

/-- The children of a new element: `xmlNewTextChild` takes the content of a string as
it is, `xmlNewChild` resolves the references in any other. -/
def newChild (host : Host) (type : PlistType) : Option (List UInt8) → Xml Tag
  | none => .nil
  | some val => .text (if type = .string then val else host.resolve val) .nil

/-- `depth` tabs before the next node. -/
def indent (next : Xml Tag) : Nat → Xml Tag
  | 0 => next
  | depth + 1 => .text [9] (indent next depth)

/-- `node_to_xml` for a node and its later siblings: what it adds to their parent. -/
def nodeToXml (host : Host) : UInt32 → GNode → Checked (Xml Tag)
  | _, .nil => .ok .nil
  | depth, .cons data below next => do
      let element ← elementOf host depth data
      let inside ← (if data.type.isStruct then nodeToXml host (depth + 1) below else .ok .nil)
      let rest ← nodeToXml host depth next
      match element with
      | none => return indent (.text [10] rest) depth.toNat
      | some (tag, val) =>
          let child := newChild host data.type val
          let child := if data.type.isStruct then
              child.append (.text [10] (inside.append (indent .nil depth.toNat)))
            else child
          return indent (.element tag child (.text [10] rest)) depth.toNat

/-- The children of the `plist` element after `node_to_xml`. -/
def plistToXml (host : Host) (plist : GNode) : Checked (Xml Tag) := do
  let inside ← nodeToXml host 0 plist
  return .text [10] inside

/-! ## Reading -/

/-- `plist_new_plist_data`. -/
def plistNewPlistData : PlistData := ⟨.word 0, 0, .boolean⟩

/-- The data of the node that is made of an element. -/
def dataOf (host : Host) (name : Tag) (content : List UInt8) : PlistData :=
  match name with
  | .true => ⟨.word 1, 1, .boolean⟩
  | .false => ⟨.word 0, 1, .boolean⟩
  | .integer => ⟨.word (host.gAsciiStrtoull content), 8, .uint⟩
  | .real => ⟨.word (host.atof content), 8, .real⟩
  | .date =>
      let (sec, usec) := host.gTimeValFromIso8601 content
      ⟨.timeval sec usec, 16, .date⟩
  | .string =>
      if host.xmlDetectCharEncoding content = .other then plistNewPlistData
      else ⟨.strval content, content.length, .string⟩
  | .key => ⟨.strval content, content.length, .key⟩
  | .data => ⟨.buff (host.gBase64Decode content), (host.gBase64Decode content).length, .data⟩
  | .array => ⟨.word 0, 0, .array⟩
  | .dict => ⟨.word 0, 0, .dict⟩
  | .text | .other _ => plistNewPlistData

/-- `xml_to_node`: the nodes it makes of the elements of a chain. -/
def xmlToNode (host : Host) : Xml Tag → GNode
  | .nil => .nil
  | .text _ next => xmlToNode host next
  | .element name children next =>
      if name = .text then xmlToNode host next
      else
        .cons (dataOf host name children.content)
          (if name = .array ∨ name = .dict then xmlToNode host children else .nil)
          (xmlToNode host next)

/-- `xml_to_node` on the root: the first node is the list, and any others are put
behind its children. -/
def xmlToPlist (host : Host) (root : Xml Tag) : GNode :=
  match xmlToNode host root with
  | .nil => .nil
  | .cons data below next => .cons data (below.append next) .nil

end Irestore.Plist
