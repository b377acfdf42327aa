/-
# Plist.XmlRoundTrip — what is read back of a list written as XML

* `nodeToXml_ok_iff` — a list is written exactly when its indented data fit an `int`.
* `xmlToNode_nodeToXml` — what is read back of it: its keys as `xmlNewChild` took
  them, everything else as it was.
* `round_trips_iff` — a property list is read back as it was exactly when, besides,
  no key has an ampersand.
-/
import Irestore.Plist.Xml

namespace Irestore.Plist

open Irestore.Library Irestore.Library.CMemory Irestore.Library.Base64

set_option autoImplicit false

/-! ## Items -/

namespace Item

def type : Item → PlistType
  | .boolean _ => .boolean
  | .uint _ => .uint
  | .string _ => .string
  | .key _ => .key
  | .data _ => .data
  | .array => .array
  | .dict => .dict

def tag : Item → Tag
  | .boolean b => if b then .true else .false
  | .uint _ => .integer
  | .string _ => .string
  | .key _ => .key
  | .data _ => .data
  | .array => .array
  | .dict => .dict

/-- The content of the item's element. -/
def val (host : Host) (depth : UInt32) : Item → Option (List UInt8)
  | .uint n => some (decimal n)
  | .string text | .key text => some text
  | .data bytes =>
      if bytes = [] then none else some (formatted (host.gBase64Encode bytes) 68 depth.toNat)
  | .boolean _ | .array | .dict => none

/-- Data whose indented base64 text has a size an `int` holds. -/
def Fits (host : Host) (depth : UInt32) : Item → Prop
  | .data bytes => bytes = [] ∨
      ((host.gBase64Encode bytes).length / 68 + 1) * (depth.toNat + 68 + 1) + depth.toNat + 1 <
        2 ^ 31
  | _ => True

/-- Texts of XML characters. -/
def Legal : Item → Prop
  | .string text | .key text => XmlText text
  | _ => True

/-- No key with an ampersand. -/
def Plain : Item → Prop
  | .key text => 0x26 ∉ text
  | _ => True

/-- What is read back of an item. -/
def readBack (host : Host) : Item → Item
  | .key text => .key (host.resolve text)
  | item => item

end Item

theorem Item.tag_ne_text (item : Item) : item.tag ≠ .text := by
  cases item with
  | boolean b => cases b <;> decide
  | uint n | string text | key text | data bytes | array | dict => simp [tag]

theorem Item.tag_struct (item : Item) :
    (item.tag = .array ∨ item.tag = .dict) ↔ item.type.isStruct = true := by
  cases item with
  | boolean b => cases b <;> decide
  | uint n | string text | key text | data bytes | array | dict =>
    simp [tag, type, PlistType.isStruct]

theorem type_of_item {data : PlistData} {item : Item} (shown : data.item? = some item) :
    data.type = item.type := by
  obtain ⟨value, length, type⟩ := data
  unfold PlistData.item? at shown
  dsimp only at shown
  split at shown <;> (try split at shown) <;> (try split at shown) <;> cases shown <;> rfl

/-- The characters of a decimal number. -/
def isDigit (b : UInt8) : Bool := 48 ≤ b ∧ b ≤ 57

theorem decimal_digit {n : UInt64} : ∀ b ∈ decimal n, isDigit b := by
  intro b member
  obtain ⟨c, digit, rfl⟩ := List.mem_map.mp member
  have isDigit := Nat.isDigit_of_mem_toDigits (by decide) (by decide) digit
  simp only [Char.isDigit, Bool.and_eq_true, decide_eq_true_eq, ge_iff_le,
    UInt32.le_iff_toNat_le] at isDigit
  have low : 48 ≤ c.toNat := isDigit.1
  have high : c.toNat ≤ 57 := isDigit.2
  simp only [Plist.isDigit, decide_eq_true_eq, UInt8.le_iff_toNat_le, UInt8.reduceToNat,
    UInt8.toNat_ofNat']
  omega

section Host

variable {host : Host} (documented : host.Documented)

include documented

theorem readBack_eq_self_iff {item : Item} : item.readBack host = item ↔ item.Plain := by
  cases item with
  | key text =>
    simp only [Item.readBack, Item.key.injEq, Item.Plain]
    constructor
    · intro same ampersand
      have shorter := documented.resolve_shorter ampersand
      rw [same] at shorter
      exact Nat.lt_irrefl _ shorter
    · exact documented.resolve_plain
  | boolean b | uint n | string text | data bytes | array | dict =>
    simp [Item.readBack, Item.Plain]

theorem encode_text (bytes : List UInt8) :
    (∀ b ∈ host.gBase64Encode bytes, isBlank b = false) ∧ 0 ∉ host.gBase64Encode bytes := by
  constructor
  · intro b member
    have letter := documented.encode_base64 b member
    by_contra blank
    rw [Bool.not_eq_false] at blank
    rcases of_decide_eq_true blank with rfl | rfl
    · exact absurd letter (by decide)
    · exact absurd letter (by decide)
  · exact fun member => absurd (documented.encode_base64 0 member) (by decide)

theorem formatted_base64 {bytes : List UInt8} {depth : Nat} :
    ∀ b ∈ formatted (host.gBase64Encode bytes) 68 depth, (isBase64 b || isBlank b) = true := by
  intro b member
  by_cases blank : isBlank b = true
  · rw [blank, Bool.or_true]
  · have kept : b ∈ (formatted (host.gBase64Encode bytes) 68 depth).filter fun b => !isBlank b :=
      List.mem_filter.mpr ⟨member, by simpa using blank⟩
    rw [filter_formatted (by decide) (encode_text documented bytes).1] at kept
    rw [documented.encode_base64 b kept, Bool.true_or]

/-- A node's element, when its data can be indented. -/
theorem elementOf_item {data : PlistData} {item : Item} (shown : data.item? = some item)
    (depth : UInt32) {element : Option (Tag × Option (List UInt8))} :
    elementOf host depth data = .ok element ↔
      item.Fits host depth ∧ element = some (item.tag, item.val host depth) := by
  obtain ⟨value, length, type⟩ := data
  unfold PlistData.item? at shown
  dsimp only at shown
  split at shown
  · split at shown
    · rename_i bits zero
      cases shown
      simp [elementOf, zero, Item.Fits, Item.tag, Item.val, eq_comm]
    · split at shown
      · rename_i bits differ one
        cases shown
        simp [elementOf, one, Item.Fits, Item.tag, Item.val, eq_comm]
      · cases shown
  · cases shown
    simp [elementOf, Item.Fits, Item.tag, Item.val, eq_comm]
  · cases shown
    simp [elementOf, Item.Fits, Item.tag, Item.val, eq_comm]
  · cases shown
    simp [elementOf, Item.Fits, Item.tag, Item.val, eq_comm]
  · split at shown
    · rename_i bytes whole
      cases shown
      subst whole
      obtain ⟨-, nulFree⟩ := encode_text documented bytes
      by_cases empty : bytes = []
      · subst empty
        simp [elementOf, Item.Fits, Item.tag, Item.val, eq_comm]
      · have positive : bytes.length ≠ 0 := fun zero => empty (List.length_eq_zero_iff.mp zero)
        have whole : memcpy bytes bytes.length = .ok bytes := by simp [memcpy]
        simp only [elementOf, if_neg positive, whole, ok_bind, Item.Fits, empty, false_or,
          Item.tag, Item.val, if_false]
        rw [formatString_eq (by decide) nulFree]
        split
        · rename_i small
          rw [ok_bind, and_iff_right small, pure_eq_ok, Except.ok.injEq, eq_comm]
        · rename_i large
          simp only [error_bind, reduceCtorEq, large, false_and]
    · cases shown
  · cases shown
    simp [elementOf, Item.Fits, Item.tag, Item.val, eq_comm]
  · cases shown
    simp [elementOf, Item.Fits, Item.tag, Item.val, eq_comm]
  · cases shown

/-- What the reader makes of the element of an item. -/
theorem dataOf_item {item : Item} (legal : item.Legal) (depth : UInt32)
    (scalar : item.type.isStruct = false) :
    (dataOf host item.tag (newChild host item.type (item.val host depth)).content).item? =
      some (item.readBack host) := by
  cases item with
  | array | dict => cases scalar
  | boolean b => cases b <;> rfl
  | uint n =>
    have digits : 0x26 ∉ decimal n := fun member => absurd (decimal_digit _ member) (by decide)
    simp [Item.tag, Item.val, Item.type, newChild, Xml.content, dataOf, PlistData.item?,
      Item.readBack, documented.resolve_plain digits, documented.strtoull_decimal]
  | string text =>
    simp [Item.tag, Item.val, Item.type, newChild, Xml.content, dataOf, PlistData.item?,
      Item.readBack, documented.detect_text legal]
  | key text =>
    simp [Item.tag, Item.val, Item.type, newChild, Xml.content, dataOf, PlistData.item?,
      Item.readBack]
  | data bytes =>
    by_cases empty : bytes = []
    · simp [Item.tag, Item.val, newChild, Xml.content, dataOf, PlistData.item?, Item.readBack,
        empty, documented.decode_nil]
    · obtain ⟨text, -⟩ := encode_text documented bytes
      have plain : 0x26 ∉ formatted (host.gBase64Encode bytes) 68 depth.toNat :=
        fun member => absurd (formatted_base64 documented _ member) (by decide)
      have decoded : host.gBase64Decode (formatted (host.gBase64Encode bytes) 68 depth.toNat) =
          bytes := by
        rw [documented.decode_blank, filter_formatted (by decide) text, documented.decode_encode]
      simp [Item.tag, Item.val, Item.type, newChild, Xml.content, dataOf, PlistData.item?,
        Item.readBack, empty, documented.resolve_plain plain, decoded]

/-- The content of an item's element is XML text, when a key is taken as it is. -/
theorem newChild_text {item : Item} (legal : item.Legal) (plain : item.Plain) (depth : UInt32) :
    (newChild host item.type (item.val host depth)).AllText XmlText := by
  cases item with
  | boolean b | array | dict => trivial
  | string text => exact ⟨legal, trivial⟩
  | key text =>
    refine ⟨?_, trivial⟩
    change XmlText (host.resolve text)
    rw [documented.resolve_plain plain]
    exact legal
  | uint n =>
    refine ⟨?_, trivial⟩
    change XmlText (host.resolve (decimal n))
    rw [documented.resolve_plain fun member => absurd (decimal_digit _ member) (by decide)]
    refine xmlText_ascii fun b member => ?_
    have digit := decimal_digit b member
    simp only [isDigit, asciiText, decide_eq_true_eq, UInt8.le_iff_toNat_le,
      UInt8.lt_iff_toNat_lt, ← UInt8.toNat_inj, UInt8.reduceToNat] at digit ⊢
    omega
  | data bytes =>
    by_cases empty : bytes = []
    · rw [Item.val, if_pos empty]
      trivial
    · rw [Item.val, if_neg empty]
      refine ⟨?_, trivial⟩
      change XmlText (host.resolve (formatted (host.gBase64Encode bytes) 68 depth.toNat))
      rw [documented.resolve_plain fun member =>
        absurd (formatted_base64 documented _ member) (by decide)]
      refine xmlText_ascii fun b member => ?_
      have letter := formatted_base64 documented b member
      simp only [isBase64, isBlank, asciiText, Bool.or_eq_true, decide_eq_true_eq,
        UInt8.le_iff_toNat_le, UInt8.lt_iff_toNat_lt, ← UInt8.toNat_inj,
        UInt8.reduceToNat] at letter ⊢
      omega

end Host

/-! ## Lists -/

/-- A property list: its texts are XML text, and only arrays and dictionaries have
children. -/
def Proper : Siblings Item → Prop
  | .nil => True
  | .cons item below next =>
      item.Legal ∧ (item.type.isStruct = false → below = .nil) ∧ Proper below ∧ Proper next

/-- All data of the list can be indented. -/
def Fits (host : Host) : UInt32 → Siblings Item → Prop
  | _, .nil => True
  | depth, .cons item below next =>
      item.Fits host depth ∧ Fits host (depth + 1) below ∧ Fits host depth next

section Reading

variable (host : Host)

theorem xmlToNode_append : ∀ front back : Xml Tag,
    xmlToNode host (front.append back) = (xmlToNode host front).append (xmlToNode host back)
  | .nil, _ => rfl
  | .text _ next, back => xmlToNode_append next back
  | .element name children next, back => by
      simp only [Xml.append, xmlToNode, xmlToNode_append next back]
      split <;> rfl

theorem xmlToNode_indent (next : Xml Tag) : ∀ depth : Nat,
    xmlToNode host (indent next depth) = xmlToNode host next
  | 0 => rfl
  | depth + 1 => xmlToNode_indent next depth

/-- The reader sees the outline of a document. -/
def readOutline : Outline Tag → GNode
  | .nil => .nil
  | .element name content children next =>
      if name = .text then readOutline next
      else
        .cons (dataOf host name content)
          (if name = .array ∨ name = .dict then readOutline children else .nil)
          (readOutline next)

theorem xmlToNode_eq_readOutline : ∀ doc : Xml Tag,
    xmlToNode host doc = readOutline host doc.outline
  | .nil => rfl
  | .text _ next => xmlToNode_eq_readOutline next
  | .element name children next => by
      rw [xmlToNode, Xml.outline, readOutline, xmlToNode_eq_readOutline children,
        xmlToNode_eq_readOutline next]

end Reading

section Writing

variable {host : Host} (documented : host.Documented)

/-- The children of the element of an item; `inside` is what its own children became. -/
def childOf (host : Host) (depth : UInt32) (item : Item) (inside : Xml Tag) : Xml Tag :=
  if item.type.isStruct then
    (newChild host item.type (item.val host depth)).append
      (.text [10] (inside.append (indent .nil depth.toNat)))
  else newChild host item.type (item.val host depth)

include documented

/-- What one node and its later siblings become. -/
theorem nodeToXml_cons {data : PlistData} {item : Item} (shown : data.item? = some item)
    {below next : GNode} {depth : UInt32} {doc : Xml Tag} :
    nodeToXml host depth (.cons data below next) = .ok doc ↔
      item.Fits host depth ∧ ∃ inside rest,
        (if item.type.isStruct then nodeToXml host (depth + 1) below else .ok .nil) =
          .ok inside ∧ nodeToXml host depth next = .ok rest ∧
        doc = indent (.element item.tag (childOf host depth item inside) (.text [10] rest))
          depth.toNat := by
  rw [nodeToXml, type_of_item shown, bind_eq_ok]
  simp only [elementOf_item documented shown]
  constructor
  · rintro ⟨_, ⟨fits, rfl⟩, written⟩
    obtain ⟨inside, insideRun, written⟩ := bind_eq_ok.mp written
    obtain ⟨rest, restRun, written⟩ := bind_eq_ok.mp written
    exact ⟨fits, inside, rest, insideRun, restRun, (Except.ok.inj written).symm⟩
  · rintro ⟨fits, inside, rest, insideRun, restRun, rfl⟩
    refine ⟨_, ⟨fits, rfl⟩, ?_⟩
    rw [insideRun, ok_bind, restRun, ok_bind]
    rfl

/-- **A list is written exactly when its data can be indented.** -/
theorem nodeToXml_ok_iff {chain : GNode} : ∀ {tree : Siblings Item} {depth : UInt32},
    chain.traverse PlistData.item? = some tree → Proper tree →
      ((∃ doc, nodeToXml host depth chain = .ok doc) ↔ Fits host depth tree) := by
  induction chain with
  | nil =>
    intro tree depth items _
    cases items
    exact ⟨fun _ => trivial, fun _ => ⟨.nil, rfl⟩⟩
  | cons data below next ihBelow ihNext =>
    intro tree depth items proper
    obtain ⟨item, below', next', rfl, shown, itemsBelow, itemsNext⟩ :=
      Siblings.traverse_cons.mp items
    obtain ⟨legal, leaf, properBelow, properNext⟩ := proper
    have inner : (∃ inside,
        (if item.type.isStruct then nodeToXml host (depth + 1) below else .ok .nil) =
          .ok inside) ↔ Fits host (depth + 1) below' := by
      split
      · exact ihBelow itemsBelow properBelow
      · rename_i scalar
        rw [leaf (by simpa using scalar)]
        exact ⟨fun _ => trivial, fun _ => ⟨_, rfl⟩⟩
    simp only [nodeToXml_cons documented shown, Fits, ← inner,
      ← ihNext itemsNext properNext]
    constructor
    · rintro ⟨_, fits, inside, rest, insideRun, restRun, -⟩
      exact ⟨fits, ⟨inside, insideRun⟩, ⟨rest, restRun⟩⟩
    · rintro ⟨fits, ⟨inside, insideRun⟩, ⟨rest, restRun⟩⟩
      exact ⟨_, fits, inside, rest, insideRun, restRun, rfl⟩

/-- **What is read back of a list.** -/
theorem xmlToNode_nodeToXml {chain : GNode} :
    ∀ {tree : Siblings Item} {depth : UInt32} {doc : Xml Tag},
      chain.traverse PlistData.item? = some tree → Proper tree →
      nodeToXml host depth chain = .ok doc →
        (xmlToNode host doc).traverse PlistData.item? = some (tree.map (Item.readBack host)) := by
  induction chain with
  | nil =>
    intro tree depth doc items _ written
    cases items
    cases written
    rfl
  | cons data below next ihBelow ihNext =>
    intro tree depth doc items proper written
    obtain ⟨item, below', next', rfl, shown, itemsBelow, itemsNext⟩ :=
      Siblings.traverse_cons.mp items
    obtain ⟨legal, leaf, properBelow, properNext⟩ := proper
    obtain ⟨-, inside, rest, insideRun, restRun, rfl⟩ :=
      (nodeToXml_cons documented shown).mp written
    rw [xmlToNode_indent, xmlToNode, if_neg item.tag_ne_text]
    have after := ihNext itemsNext properNext restRun
    refine Siblings.traverse_cons.mpr ⟨_, _, _, rfl, ?_, ?_, after⟩
    · by_cases struct : item.type.isStruct = true
      · cases item <;> first
          | rfl
          | cases struct
      · rw [childOf, if_neg struct]
        exact dataOf_item documented legal depth (by simpa using struct)
    · by_cases struct : item.type.isStruct = true
      · have empty : newChild host item.type (item.val host depth) = .nil := by
          cases item <;> first
            | rfl
            | cases struct
        rw [if_pos struct] at insideRun
        rw [if_pos ((item.tag_struct).mpr struct), childOf, if_pos struct, empty,
          Xml.nil_append, xmlToNode, xmlToNode_append, xmlToNode_indent, xmlToNode,
          Siblings.append_nil]
        exact ihBelow itemsBelow properBelow insideRun
      · rw [if_neg fun isTag => struct ((item.tag_struct).mp isTag),
          leaf (by simpa using struct)]
        rfl

/-- The text of a document is XML text, when every key is taken as it is. -/
theorem nodeToXml_text {chain : GNode} :
    ∀ {tree : Siblings Item} {depth : UInt32} {doc : Xml Tag},
      chain.traverse PlistData.item? = some tree → Proper tree →
      (∀ item ∈ tree.labels, item.Plain) →
      nodeToXml host depth chain = .ok doc → doc.AllText XmlText := by
  have tabs (next : Xml Tag) (text : next.AllText XmlText) :
      ∀ depth : Nat, (indent next depth).AllText XmlText := by
    intro depth
    induction depth with
    | zero => exact text
    | succ depth ih => exact ⟨xmlText_ascii (by decide +kernel), ih⟩
  induction chain with
  | nil =>
    intro tree depth doc items _ _ written
    cases written
    trivial
  | cons data below next ihBelow ihNext =>
    intro tree depth doc items proper plain written
    obtain ⟨item, below', next', rfl, shown, itemsBelow, itemsNext⟩ :=
      Siblings.traverse_cons.mp items
    obtain ⟨legal, leaf, properBelow, properNext⟩ := proper
    obtain ⟨-, inside, rest, insideRun, restRun, rfl⟩ :=
      (nodeToXml_cons documented shown).mp written
    simp only [Siblings.labels, List.mem_cons, List.mem_append, forall_eq, or_imp,
      forall_and] at plain
    obtain ⟨here, plainBelow, plainNext⟩ := plain
    have newline : XmlText [10] := xmlText_ascii (by decide +kernel)
    have rests := ihNext itemsNext properNext plainNext restRun
    refine tabs (.element item.tag (childOf host depth item inside) (.text [10] rest))
      ⟨?_, newline, rests⟩ _
    have content := newChild_text documented legal here depth
    rw [childOf]
    split
    · rename_i struct
      rw [if_pos struct] at insideRun
      refine Xml.allText_append.mpr ⟨content, newline, Xml.allText_append.mpr ⟨?_, tabs .nil trivial _⟩⟩
      exact ihBelow itemsBelow properBelow plainBelow insideRun
    · exact content

end Writing

/-! ## Round trips -/

/-- The list is written, and it is read back as it was, at once and after the
document was dumped and parsed. -/
def RoundTrips (host : Host) (plist : GNode) (tree : Siblings Item) : Prop :=
  ∃ doc, plistToXml host plist = .ok doc ∧
    (xmlToPlist host doc).traverse PlistData.item? = some tree ∧
    (xmlToPlist host (host.reparse doc)).traverse PlistData.item? = some tree

theorem map_eq_self_iff {α : Type} {f : α → α} {tree : Siblings α} :
    tree.map f = tree ↔ ∀ a ∈ tree.labels, f a = a := by
  induction tree with
  | nil => simp [Siblings.map, Siblings.labels]
  | cons data below next ihBelow ihNext =>
    simp only [Siblings.map, Siblings.labels, Siblings.cons.injEq, ihBelow, ihNext, List.mem_cons,
      List.mem_append, forall_eq, or_imp, forall_and]

theorem traverse_nil {chain : GNode} (empty : chain.traverse PlistData.item? = some .nil) :
    chain = .nil := by
  cases chain with
  | nil => rfl
  | cons data below next =>
    obtain ⟨_, _, _, absurd, -⟩ := Siblings.traverse_cons.mp empty
    cases absurd

/-- What is read back of the document of one list. -/
theorem xmlToPlist_plistToXml {host : Host} (documented : host.Documented) {data : PlistData}
    {below : GNode} {tree : Siblings Item}
    (items : (Siblings.cons data below .nil).traverse PlistData.item? = some tree)
    (proper : Proper tree) {doc : Xml Tag}
    (written : plistToXml host (.cons data below .nil) = .ok doc) :
    (xmlToPlist host doc).traverse PlistData.item? = some (tree.map (Item.readBack host)) := by
  obtain ⟨inside, run, whole⟩ := bind_eq_ok.mp written
  cases whole
  have back := xmlToNode_nodeToXml documented items proper run
  obtain ⟨item, below', next', rfl, -, -, none⟩ := Siblings.traverse_cons.mp items
  cases none
  unfold xmlToPlist
  rw [show xmlToNode host (.text [10] inside) = xmlToNode host inside from rfl]
  cases read : xmlToNode host inside with
  | nil =>
    rw [read] at back
    cases back
  | cons data' below' next' =>
    rw [read] at back
    obtain ⟨item', belowItems, nextItems, isTree, shown, readBelow, readNext⟩ :=
      Siblings.traverse_cons.mp back
    cases isTree
    rw [traverse_nil readNext]
    dsimp only
    rw [Siblings.append_nil]
    exact Siblings.traverse_cons.mpr ⟨_, _, _, rfl, shown, readBelow, rfl⟩

/-- **A property list is read back as it was exactly when no key has an ampersand and
the indented data fit an `int`.** -/
theorem round_trips_iff {host : Host} (documented : host.Documented) {data : PlistData}
    {below : GNode} {tree : Siblings Item}
    (items : (Siblings.cons data below .nil).traverse PlistData.item? = some tree)
    (proper : Proper tree) :
    RoundTrips host (.cons data below .nil) tree ↔
      (∀ item ∈ tree.labels, item.Plain) ∧ Fits host 0 tree := by
  have written : (∃ doc, plistToXml host (.cons data below .nil) = .ok doc) ↔ Fits host 0 tree := by
    rw [← nodeToXml_ok_iff documented items proper]
    constructor
    · rintro ⟨doc, run⟩
      obtain ⟨inside, run, -⟩ := bind_eq_ok.mp run
      exact ⟨inside, run⟩
    · rintro ⟨inside, run⟩
      exact ⟨.text [10] inside, bind_eq_ok.mpr ⟨inside, run, rfl⟩⟩
  have plain : tree.map (Item.readBack host) = tree ↔ ∀ item ∈ tree.labels, item.Plain := by
    rw [map_eq_self_iff]
    exact forall₂_congr fun item _ => readBack_eq_self_iff documented
  rw [← written, ← plain]
  constructor
  · rintro ⟨doc, run, read, -⟩
    rw [xmlToPlist_plistToXml documented items proper run] at read
    exact ⟨Option.some.inj read, doc, run⟩
  · rintro ⟨same, doc, run⟩
    have read := xmlToPlist_plistToXml documented items proper run
    rw [same] at read
    refine ⟨doc, run, read, ?_⟩
    obtain ⟨inside, inner, whole⟩ := bind_eq_ok.mp run
    cases whole
    have text : (Xml.text [10] inside).AllText XmlText :=
      ⟨xmlText_ascii (by decide +kernel),
        nodeToXml_text documented items proper (plain.mp same) inner⟩
    unfold xmlToPlist at read ⊢
    rw [xmlToNode_eq_readOutline, documented.reparse_text text, ← xmlToNode_eq_readOutline]
    exact read

/-! ## A host -/

/-- The text of content with `&amp;` references; any other reference ends it. -/
def resolveAmp : List UInt8 → List UInt8
  | [] => []
  | 0x26 :: 0x61 :: 0x6d :: 0x70 :: 0x3b :: rest => 0x26 :: resolveAmp rest
  | b :: rest => if b = 0x26 then [] else b :: resolveAmp rest

theorem resolveAmp_plain {text : List UInt8} (plain : 0x26 ∉ text) : resolveAmp text = text := by
  induction text using resolveAmp.induct with
  | case1 => rfl
  | case2 rest ih => exact absurd (List.mem_cons_self ..) plain
  | case3 rest differ => exact absurd (List.mem_cons_self ..) plain
  | case4 b rest differ other ih =>
    rw [resolveAmp, if_neg other, ih fun member => plain (List.mem_cons_of_mem _ member)]
    exact differ

theorem length_resolveAmp_le (text : List UInt8) : (resolveAmp text).length ≤ text.length := by
  induction text using resolveAmp.induct with
  | case1 => exact Nat.le_refl _
  | case2 rest ih =>
    simp only [resolveAmp, List.length_cons]
    omega
  | case3 rest differ =>
    rw [resolveAmp, if_pos rfl]
    · exact Nat.zero_le _
    · exact differ
  | case4 b rest differ other ih =>
    rw [resolveAmp, if_neg other]
    · simp only [List.length_cons]
      omega
    · exact differ

theorem resolveAmp_shorter {text : List UInt8} (ampersand : 0x26 ∈ text) :
    (resolveAmp text).length < text.length := by
  induction text using resolveAmp.induct with
  | case1 => cases ampersand
  | case2 rest ih =>
    have below := length_resolveAmp_le rest
    simp only [resolveAmp, List.length_cons]
    omega
  | case3 rest differ =>
    rw [resolveAmp, if_pos rfl]
    · exact Nat.succ_pos _
    · exact differ
  | case4 b rest differ other ih =>
    have later : 0x26 ∈ rest := (List.mem_cons.mp ampersand).resolve_left (Ne.symm other)
    rw [resolveAmp, if_neg other]
    · exact Nat.succ_lt_succ (ih later)
    · exact differ

/-- Libraries with the references, the numbers and the base64 that a list needs. -/
def sampleHost : Host where
  resolve := resolveAmp
  xmlDetectCharEncoding _ := .none
  reparse := id
  gBase64Encode := encode
  gBase64Decode := decode
  gAsciiStrtoull text :=
    UInt64.ofNat (Nat.ofDigitChars 10 (text.map fun b => Char.ofNat b.toNat) 0)
  printReal _ := []
  atof _ := 0
  gTimeValToIso8601 _ _ := []
  gTimeValFromIso8601 _ := (0, 0)

theorem sampleHost_documented : sampleHost.Documented where
  resolve_plain := resolveAmp_plain
  resolve_shorter := resolveAmp_shorter
  detect_text _ := CharEncoding.noConfusion
  reparse_text _ := rfl
  encode_base64 := encode_isBase64 _
  decode_encode := decode_encode
  decode_blank := by
    refine decode_filter fun b letter => ?_
    simp only [isBase64, isBlank, Bool.not_eq_true', decide_eq_true_eq, decide_eq_false_iff_not,
      UInt8.le_iff_toNat_le, ← UInt8.toNat_inj, UInt8.reduceToNat] at letter ⊢
    omega
  decode_nil := rfl
  strtoull_decimal n := by
    have chars : (decimal n).map (fun b => Char.ofNat b.toNat) = Nat.toDigits 10 n.toNat := by
      have same : ∀ c ∈ Nat.toDigits 10 n.toNat,
          ((fun b : UInt8 => Char.ofNat b.toNat) ∘ fun c : Char => UInt8.ofNat c.toNat) c = c := by
        intro c member
        have digit := Nat.isDigit_of_mem_toDigits (by decide) (by decide) member
        simp only [Char.isDigit, Bool.and_eq_true, decide_eq_true_eq, UInt32.le_iff_toNat_le]
          at digit
        have small : c.toNat < 2 ^ 8 := Nat.lt_of_le_of_lt digit.2 (by decide)
        rw [Function.comp, UInt8.toNat_ofNat', Nat.mod_eq_of_lt small, Char.ofNat_toNat]
      rw [decimal, List.map_map, List.map_congr_left same, List.map_id']
    simp only [sampleHost, chars, Nat.ofDigitChars_ten_toDigits]
    exact UInt64.ofNat_toNat

/-- The dictionary `a` → the array of true, 7, the string `x&y` and three bytes. -/
def sampleBelow : GNode :=
  .cons (plistNewKey [0x61]) .nil (.cons plistNewArray
    (.cons (plistNewBool 1) .nil (.cons (plistNewUint 7) .nil
      (.cons (plistNewString [0x78, 0x26, 0x79]) .nil (.cons (plistNewData [1, 2, 3]) .nil .nil))))
    .nil)

def sampleTree : Siblings Item :=
  .cons .dict (.cons (.key [0x61]) .nil (.cons .array
    (.cons (.boolean true) .nil (.cons (.uint 7) .nil
      (.cons (.string [0x78, 0x26, 0x79]) .nil (.cons (.data [1, 2, 3]) .nil .nil))))
    .nil)) .nil

/-- It is read back as it was. -/
theorem sample_round_trips : RoundTrips sampleHost (.cons plistNewDict sampleBelow .nil)
    sampleTree := by
  have text : XmlText [0x61] := xmlText_ascii (by decide +kernel)
  have string : XmlText [0x78, 0x26, 0x79] := xmlText_ascii (by decide +kernel)
  have proper : Proper sampleTree := by
    simp [sampleTree, Proper, Item.Legal, Item.type, PlistType.isStruct, text, string]
  refine (round_trips_iff sampleHost_documented (by decide) proper).mpr ⟨?_, ?_⟩
  · simp [sampleTree, Siblings.labels, Item.Plain]
  · simp [sampleTree, Fits, Item.Fits, sampleHost, encode]

/-- The key `&amp;` is read back as `&`. -/
theorem ampersand_key_changed :
    ¬ RoundTrips sampleHost
      (.cons plistNewDict (.cons (plistNewKey [0x26, 0x61, 0x6d, 0x70, 0x3b]) .nil
        (.cons (plistNewBool 1) .nil .nil)) .nil)
      (.cons .dict (.cons (.key [0x26, 0x61, 0x6d, 0x70, 0x3b]) .nil
        (.cons (.boolean true) .nil .nil)) .nil) := by
  rintro ⟨doc, run, read, -⟩
  cases run
  exact absurd read (by decide)

end Irestore.Plist
