/-
# Plist.BinaryEncode — the objects `plist_to_bin` writes for a property list

* `IsPlist` — the trees the encoder is for: leaves have no children, the children of a
  dictionary alternate between keys and values, texts are valid.
* `fileObject` — the object a node is written as.
* `members_fileObject` — it names the numbers of the node's children, in order.
* `writeObject_eq`, `objectBytes_written` — the node is written as that object, and
  `lookups_end_of_writeObject` only when its children are found.
-/
import Irestore.Plist.BinaryFile
import Irestore.Plist.BinarySerialize

namespace Irestore.Plist

open Irestore.Library Irestore.Library.Bytes Irestore.Library.CMemory

set_option autoImplicit false

/-! ## Property lists -/

/-- UTF-8 text. -/
def ValidText (text : List UInt8) : Prop :=
  ∃ chars : List Char, chars.flatMap String.utf8EncodeChar = text

/-- What is documented of the platform: GLib converts valid text to UTF-16 and back,
and there is memory for a table of objects that fill less than 4 GiB. -/
structure Platform.Documented (platform : Platform) : Prop where
  utf16 : ∀ text, ValidText text → 0 ∉ text → ∃ units,
    platform.utf8ToUtf16 text = some units ∧ platform.utf16ToUtf8 units = some text
  memory : ∀ size < 2 ^ 35, platform.malloc size = true

def isKey (node : HeapNode) : Bool := decide (node.data.type = .key)

/-- The children a node with the item has. -/
def Shaped (below : Siblings HeapNode) : Item → Prop
  | .array => ∀ child ∈ below.tops, isKey child = false
  | .dict => ∃ entries : List (HeapNode × HeapNode),
      below.tops = entries.flatMap (fun entry => [entry.1, entry.2]) ∧
        ∀ entry ∈ entries, isKey entry.1 = true ∧ isKey entry.2 = false
  | _ => below = .nil

/-- A property list: every node holds an item of valid text and has the children of
its kind; no two are at one address. -/
structure IsPlist (chain : Siblings HeapNode) : Prop extends Placed chain where
  shaped : ∀ node below, (node, below) ∈ chain.subtrees → ∀ item, node.Holds item →
    Shaped below item
  valid : ∀ node ∈ chain.labels, ∀ item, node.Holds item → ValidText item.text

theorem HeapNode.Holds.unique {node : HeapNode} {i j : Item} (left : node.Holds i)
    (right : node.Holds j) : i = j :=
  Option.some.inj (left.item?.symm.trans right.item?)

/-! ## The object of a node -/

/-- The block of a string that is not ASCII. -/
def utf16Block (platform : Platform) (text : List UInt8) : List UInt8 :=
  ((platform.utf8ToUtf16 text).getD []).flatMap fun unit => be 2 unit.toNat

def textObject (platform : Platform) (text : List UInt8) : Object :=
  if isAsciiString text text.length then .string text else .unicode (utf16Block platform text)

/-- The object a node is written as, given the numbers of its children. -/
def fileObject (platform : Platform) (index : HeapNode → Nat) (w : Nat)
    (object : HeapNode × Siblings HeapNode) : Object :=
  match object.1.data.item? with
  | some (.boolean b) => .boolean b
  | some (.uint n) => .uint n
  | some (.string text) | some (.key text) => textObject platform text
  | some (.data bytes) => .data bytes
  | some .array => .array object.2.length ((object.2.tops.map index).flatMap (be w))
  | some .dict => .dict (object.2.length / 2)
      (((pairs object.2.tops).1.map index ++ (pairs object.2.tops).2.map index).flatMap (be w))
  | none => .boolean false

theorem length_tops : ∀ chain : Siblings HeapNode, chain.tops.length = chain.length
  | .nil => rfl
  | .cons _ _ next => by rw [Siblings.tops, Siblings.length, List.length_cons, length_tops next]

theorem pairs_flatMap {α : Type} : ∀ entries : List (α × α),
    pairs (entries.flatMap fun entry => [entry.1, entry.2]) =
      (entries.map Prod.fst, entries.map Prod.snd)
  | [] => rfl
  | (key, value) :: rest => by
      simp only [List.flatMap_cons, List.cons_append, List.nil_append, pairs, pairs_flatMap rest,
        List.map_cons]

theorem pairs_length {α : Type} : ∀ xs : List α,
    (pairs xs).1.length = xs.length / 2 ∧ (pairs xs).2.length = xs.length / 2
  | [] => by simp [pairs]
  | [_] => by simp [pairs]
  | key :: value :: rest => by
      obtain ⟨keys, values⟩ := pairs_length rest
      simp only [pairs, List.length_cons, keys, values]
      omega

theorem length_flatMap_pair {α : Type} : ∀ entries : List (α × α),
    (entries.flatMap fun entry => [entry.1, entry.2]).length = entries.length * 2
  | [] => rfl
  | entry :: rest => by
      rw [List.flatMap_cons, List.length_append, length_flatMap_pair rest, List.length_cons]
      simp
      omega

/-! ## What the object shows -/

theorem codeUnits_blocks : ∀ units : List UInt16,
    codeUnits (units.flatMap fun unit => be 2 unit.toNat) = units
  | [] => rfl
  | unit :: units => by
      have split : be 2 unit.toNat = [UInt8.ofNat (unit.toNat / 256), UInt8.ofNat unit.toNat] := rfl
      have word : ofBE [UInt8.ofNat (unit.toNat / 256), UInt8.ofNat unit.toNat] = unit.toNat := by
        rw [← split, ofBE_be unit.toNat_lt]
      rw [List.flatMap_cons, split, List.cons_append, List.cons_append, List.nil_append, codeUnits,
        codeUnits_blocks units, word, UInt16.ofNat_toNat]

theorem utf16Block_read {platform : Platform} (documented : platform.Documented)
    {text : List UInt8} (valid : ValidText text) (nulFree : 0 ∉ text) :
    platform.utf16ToUtf8 (codeUnits (utf16Block platform text)) = some text := by
  obtain ⟨units, converted, back⟩ := documented.utf16 text valid nulFree
  rw [utf16Block, converted, Option.getD_some, codeUnits_blocks, back]

theorem text_textObject {platform : Platform} (documented : platform.Documented)
    {text : List UInt8} (valid : ValidText text) (nulFree : 0 ∉ text) :
    (textObject platform text).text platform = text := by
  unfold textObject
  split
  · rfl
  · rw [Object.text, utf16Block_read documented valid nulFree, Option.getD_some]

theorem isString_textObject (platform : Platform) (text : List UInt8) :
    (textObject platform text).isString = true := by
  unfold textObject
  split <;> rfl

theorem item_textObject (platform : Platform) (text : List UInt8) :
    (textObject platform text).item platform =
      .string ((textObject platform text).text platform) := by
  unfold textObject
  split <;> rfl

section Shows

variable {platform : Platform} {index : HeapNode → Nat} {w : Nat} {node : HeapNode}
  {below : Siblings HeapNode} {item : Item}

theorem isKey_of_holds (holds : node.Holds item) : isKey node = decide (item.made.type = .key) := by
  rw [isKey, holds.data]

/-- **The object shows the item of its node**, a key as a string. -/
theorem item_fileObject (documented : platform.Documented) (holds : node.Holds item)
    (valid : ValidText item.text) :
    markKey (isKey node) ((fileObject platform index w (node, below)).item platform) = item := by
  have isItem := holds.item?
  have nulFree := holds.nulFree
  rw [isKey_of_holds holds]
  cases item with
  | string text | key text =>
    have read : (textObject platform text).text platform = text :=
      text_textObject documented valid nulFree
    simp only [fileObject, isItem, item_textObject, read]
    rfl
  | _ =>
    simp only [fileObject, isItem]
    rfl

theorem text_fileObject (documented : platform.Documented) (holds : node.Holds item)
    (valid : ValidText item.text) :
    (fileObject platform index w (node, below)).text platform = item.text := by
  have isItem := holds.item?
  have nulFree := holds.nulFree
  cases item with
  | string text | key text =>
    simp only [fileObject, isItem]
    exact text_textObject documented valid nulFree
  | _ =>
    simp only [fileObject, isItem]
    rfl

theorem isBasic_fileObject (object : HeapNode × Siblings HeapNode) :
    (fileObject platform index w object).isBasic = true := by
  unfold fileObject textObject
  split <;> try rfl
  all_goals split <;> rfl

theorem isString_fileObject (holds : node.Holds item) (isString : isKey node = true) :
    (fileObject platform index w (node, below)).isString = true := by
  have isItem := holds.item?
  rw [isKey_of_holds holds, decide_eq_true_eq] at isString
  cases item with
  | key text =>
    simp only [fileObject, isItem]
    exact isString_textObject platform text
  | _ => cases isString

theorem units_fileObject (documented : platform.Documented) (holds : node.Holds item)
    (valid : ValidText item.text) {block : List UInt8}
    (isUnicode : fileObject platform index w (node, below) = .unicode block) :
    (platform.utf16ToUtf8 (codeUnits block)).isSome = true := by
  have isItem := holds.item?
  have nulFree := holds.nulFree
  cases item with
  | string text | key text =>
    simp only [fileObject, isItem, textObject] at isUnicode
    split at isUnicode
    · cases isUnicode
    · cases isUnicode
      have read : platform.utf16ToUtf8 (codeUnits (utf16Block platform text)) = some text :=
        utf16Block_read documented valid nulFree
      rw [read]
      rfl
  | _ =>
    simp only [fileObject, isItem] at isUnicode
    cases isUnicode

end Shows

/-! ## What the object names -/

section Members

variable {platform : Platform} {index : HeapNode → Nat} {w : Nat}

/-- **The object names the numbers of the children, keys as keys.** -/
theorem members_fileObject (known : w ∈ [1, 2, 3, 4, 8]) {node : HeapNode}
    {below : Siblings HeapNode} {item : Item} (holds : node.Holds item) (shaped : Shaped below item)
    (fits : ∀ child ∈ below.tops, index child < 256 ^ w) :
    (fileObject platform index w (node, below)).members w =
      below.tops.map fun child => (isKey child, index child) := by
  have isItem := holds.item?
  cases item with
  | array =>
    have values : ∀ child ∈ below.tops, isKey child = false := shaped
    simp only [fileObject, isItem, Object.members, ← length_tops]
    apply map_range
    intro i child found
    have member := List.mem_of_getElem? found
    rw [@refAt_flatMap w known _ i (index child) (by simp [found]) (fits child member),
      values child member]
  | dict =>
    obtain ⟨entries, tops, kinds⟩ := shaped
    have count : below.length / 2 = entries.length := by
      rw [← length_tops, tops, length_flatMap_pair, Nat.mul_div_cancel _ (by decide)]
    have member {entry : HeapNode × HeapNode} (inside : entry ∈ entries) :
        entry.1 ∈ below.tops ∧ entry.2 ∈ below.tops := by
      rw [tops]
      exact ⟨List.mem_flatMap.mpr ⟨entry, inside, by simp⟩,
        List.mem_flatMap.mpr ⟨entry, inside, by simp⟩⟩
    simp only [fileObject, isItem, Object.members, count, tops, pairs_flatMap, List.map_flatMap,
      List.map_cons, List.map_nil]
    apply flatMap_range
    intro i entry found
    have inside := List.mem_of_getElem? found
    have key : refAt (((entries.map Prod.fst).map index ++
        (entries.map Prod.snd).map index).flatMap (be w)) w i = index entry.1 := by
      apply refAt_flatMap known _ (fits _ (member inside).1)
      rw [List.getElem?_append_left (by simpa using (List.getElem?_eq_some_iff.mp found).1)]
      simp [found]
    have value : refAt (((entries.map Prod.fst).map index ++
        (entries.map Prod.snd).map index).flatMap (be w)) w (i + entries.length) =
        index entry.2 := by
      apply refAt_flatMap known _ (fits _ (member inside).2)
      rw [List.getElem?_append_right (by simp)]
      simp [found]
    rw [key, value, (kinds entry inside).1, (kinds entry inside).2]
  | boolean b | uint n | data bytes =>
    cases shaped
    simp only [fileObject, isItem, Object.members, Siblings.tops, List.map_nil]
  | string text | key text =>
    cases shaped
    simp only [fileObject, isItem, textObject, Siblings.tops, List.map_nil]
    split <;> rfl

end Members

/-! ## The bytes of a node -/

/-- What is written for a node, given the numbers of its children. -/
def objectBytes (platform : Platform) (index : HeapNode → Nat) (w : Nat)
    (object : HeapNode × Siblings HeapNode) : List UInt8 :=
  match object.1.data.item? with
  | some (.boolean b) => [if b then 0x09 else 0x08]
  | some (.uint n) => writeInt n.toNat
  | some (.string text) | some (.key text) =>
      if isAsciiString text text.length then writeMarker 0x50 text.length ++ text
      else
        writeMarker 0x60 ((platform.utf8ToUtf16 text).getD []).length ++ utf16Block platform text
  | some (.data bytes) => writeMarker 0x40 bytes.length ++ bytes ++ writeMarker 0xA0 0
  | some .array => writeMarker 0xA0 object.2.length ++ (object.2.tops.map index).flatMap (be w)
  | some .dict => writeMarker 0xD0 (object.2.length / 2) ++
      ((pairs object.2.tops).1.map index ++ (pairs object.2.tops).2.map index).flatMap (be w)
  | none => []

theorem mem_pairs {α : Type} {a : α} : ∀ {xs : List α},
    (a ∈ (pairs xs).1 → a ∈ xs) ∧ (a ∈ (pairs xs).2 → a ∈ xs)
  | [] => ⟨id, id⟩
  | [_] => by simp [pairs]
  | key :: value :: rest => by
      obtain ⟨keys, values⟩ := @mem_pairs _ a rest
      simp only [pairs, List.mem_cons]
      exact ⟨fun member => member.imp id fun inRest => .inr (keys inRest),
        fun member => .inr (member.imp id values)⟩

section Bytes

variable {platform : Platform} {probing : RefProbing} {ser : Serialize} {index : HeapNode → Nat}
  {w : Nat}

theorem writeRefs_eq {nodes : List HeapNode}
    (known : ∀ child ∈ nodes, ser.lookup probing child = .ok (some (index child))) :
    nodes.mapM (writeRef probing ser w) = .ok ((nodes.map index).map (be w)) := by
  rw [List.map_map]
  refine mapM_eq_map fun child member => ?_
  rw [writeRef, known child member]
  rfl

theorem writeArray_eq {below : Siblings HeapNode}
    (known : ∀ child ∈ below.tops, ser.lookup probing child = .ok (some (index child))) :
    writeArray probing ser w below =
      .ok (writeMarker 0xA0 below.length ++ (below.tops.map index).flatMap (be w)) := by
  rw [writeArray, writeRefs_eq known, ok_bind, List.flatMap_def]
  rfl

theorem writeDict_eq {below : Siblings HeapNode}
    (known : ∀ child ∈ below.tops, ser.lookup probing child = .ok (some (index child))) :
    writeDict probing ser w below = .ok (writeMarker 0xD0 (below.length / 2) ++
      ((pairs below.tops).1.map index ++ (pairs below.tops).2.map index).flatMap (be w)) := by
  rw [writeDict, writeRefs_eq fun child member => known child (mem_pairs.1 member),
    writeRefs_eq fun child member => known child (mem_pairs.2 member), ok_bind, ok_bind,
    List.flatMap_append, List.flatMap_def, List.flatMap_def]
  rfl

theorem writeUnicode_eq (units : List UInt16) :
    writeUnicode units =
      .ok (writeMarker 0x60 units.length ++ units.flatMap fun unit => be 2 unit.toNat) := by
  have length : (units.flatMap fun unit => be 2 unit.toNat).length = units.length * 2 := by
    have counted := length_flatMap_be 2 (units.map UInt16.toNat)
    rwa [List.flatMap_map, List.length_map] at counted
  have copied := @memcpy_append (units.flatMap fun unit => be 2 unit.toNat) [] _ length
  rw [List.append_nil] at copied
  show writeRawData 0x60 (units.flatMap fun unit => be 2 unit.toNat) units.length = _
  rw [writeRawData, if_pos rfl, copied, ok_bind]
  rfl

/-- **What the node is written as.** -/
theorem writeObject_eq (documented : platform.Documented) {node : HeapNode}
    {below : Siblings HeapNode} {item : Item} (holds : node.Holds item) (shaped : Shaped below item)
    (valid : ValidText item.text)
    (known : ∀ child ∈ below.tops, ser.lookup probing child = .ok (some (index child))) :
    writeObject platform probing ser w (node, below) =
      .ok (objectBytes platform index w (node, below)) := by
  have isItem := holds.item?
  have data := holds.data
  unfold objectBytes
  cases item with
  | boolean b =>
    simp only [isItem]
    cases b <;> simp [writeObject, data, Item.made, plistNewBool]
  | uint n =>
    simp only [isItem]
    simp only [writeObject, data, Item.made, plistNewUint]
  | string text | key text =>
    have nulFree : 0 ∉ text := holds.nulFree
    have whole : cString text = text := cString_of_nul_free nulFree
    have counted : cString (text ++ [0]) = text := cString_append nulFree
    obtain ⟨units, converted, -⟩ := documented.utf16 text valid nulFree
    simp only [isItem]
    simp only [writeObject, data, Item.made, plistNewString, plistNewKey, whole]
    split
    · rw [writeString, writeRawData, counted, if_neg (by decide), memcpy_append rfl, ok_bind]
      rfl
    · simp only [converted, utf16Block, Option.getD_some, writeUnicode_eq]
  | data bytes =>
    cases shaped
    have copied := @memcpy_append bytes [] _ rfl
    rw [List.append_nil] at copied
    simp only [isItem]
    have written : writeData bytes bytes.length = .ok (writeMarker 0x40 bytes.length ++ bytes) := by
      rw [writeData, writeRawData, if_neg (by decide), copied, ok_bind]
      rfl
    simp only [writeObject, data, Item.made, plistNewData, written, ok_bind, writeArray_eq known]
    simp [Siblings.tops, Siblings.length]
  | array =>
    simp only [isItem]
    simp only [writeObject, data, Item.made, plistNewArray]
    exact writeArray_eq known
  | dict =>
    simp only [isItem]
    simp only [writeObject, data, Item.made, plistNewDict]
    exact writeDict_eq known

theorem ends_of_writeRef {child : HeapNode} {bytes : List UInt8}
    (run : writeRef probing ser w child = .ok bytes) : Ends (ser.lookup probing child) := by
  obtain ⟨val, found, -⟩ := bind_eq_ok.mp run
  exact ⟨val, found⟩

/-- A node is written only when the numbers of all its children are found. -/
theorem lookups_end_of_writeObject {node : HeapNode} {below : Siblings HeapNode} {item : Item}
    (holds : node.Holds item) (shaped : Shaped below item) {bytes : List UInt8}
    (run : writeObject platform probing ser w (node, below) = .ok bytes) :
    ∀ child ∈ below.tops, Ends (ser.lookup probing child) := by
  have data := holds.data
  have each {nodes : List HeapNode} {written : List (List UInt8)}
      (run : nodes.mapM (writeRef probing ser w) = .ok written) {child : HeapNode}
      (isChild : child ∈ nodes) : Ends (ser.lookup probing child) := by
    obtain ⟨_, found⟩ := mapM_ends run child isChild
    exact ends_of_writeRef found
  intro child isChild
  cases item with
  | array =>
    simp only [writeObject, data, Item.made, plistNewArray, writeArray] at run
    obtain ⟨_, inner, -⟩ := bind_eq_ok.mp run
    exact each inner isChild
  | dict =>
    obtain ⟨entries, tops, -⟩ := shaped
    simp only [writeObject, data, Item.made, plistNewDict, writeDict, tops, pairs_flatMap] at run
    obtain ⟨_, keys, run⟩ := bind_eq_ok.mp run
    obtain ⟨_, values, -⟩ := bind_eq_ok.mp run
    rw [tops] at isChild
    obtain ⟨entry, member, isChild⟩ := List.mem_flatMap.mp isChild
    simp only [List.mem_cons, List.not_mem_nil, or_false] at isChild
    rcases isChild with rfl | rfl
    · exact each keys (List.mem_map_of_mem member)
    · exact each values (List.mem_map_of_mem member)
  | _ =>
    cases shaped
    cases isChild

theorem length_utf16Block (text : List UInt8) : (utf16Block platform text).length =
    2 * ((platform.utf8ToUtf16 text).getD []).length := by
  have counted := length_flatMap_be 2 (((platform.utf8ToUtf16 text).getD []).map UInt16.toNat)
  rw [List.flatMap_map, List.length_map, Nat.mul_comm] at counted
  exact counted

theorem textObject_written {text : List UInt8} {bytes rest : List UInt8}
    (isBytes : bytes = if isAsciiString text text.length then writeMarker 0x50 text.length ++ text
      else writeMarker 0x60 ((platform.utf8ToUtf16 text).getD []).length ++ utf16Block platform text)
    (small : bytes.length < 2 ^ 64) : Written w (textObject platform text) (bytes ++ rest) := by
  subst isBytes
  unfold textObject
  split at small
  · rename_i ascii
    rw [List.length_append] at small
    rw [if_pos ascii, if_pos ascii, List.append_assoc]
    exact .string (counted_writeMarker (by decide) (by omega))
  · rename_i wide
    rw [List.length_append, length_utf16Block] at small
    rw [if_neg wide, if_neg wide, List.append_assoc]
    exact .unicode (counted_writeMarker (by decide) (by omega)) (length_utf16Block text)

theorem length_pairs (below : Siblings HeapNode) :
    ((pairs below.tops).1.map index ++ (pairs below.tops).2.map index).length =
      below.length / 2 * 2 := by
  obtain ⟨keys, values⟩ := pairs_length below.tops
  rw [List.length_append, List.length_map, List.length_map, keys, values, length_tops]
  omega

/-- **What is written for a node is its object in the format.** -/
theorem objectBytes_written (positive : 0 < w) {node : HeapNode} {below : Siblings HeapNode}
    {item : Item} (holds : node.Holds item) (shaped : Shaped below item)
    (small : (objectBytes platform index w (node, below)).length < 2 ^ 64) (rest : List UInt8) :
    Written w (fileObject platform index w (node, below))
      (objectBytes platform index w (node, below) ++ rest) := by
  have isItem := holds.item?
  have bytes : ∀ {bytes}, objectBytes platform index w (node, below) = bytes →
      bytes.length < 2 ^ 64 := fun same => same ▸ small
  unfold fileObject
  unfold objectBytes at bytes ⊢
  cases item with
  | boolean b =>
    simp only [isItem]
    cases b with
    | false => exact .false
    | true => exact .true
  | uint n =>
    simp only [isItem]
    obtain ⟨k, width, fits, written⟩ := writeInt_eq n.toNat_lt
    have isWritten := @Written.uint w k _ rest width (length_be (2 ^ k) n.toNat)
    rw [ofBE_be fits, UInt64.ofNat_toNat] at isWritten
    rw [written]
    exact isWritten
  | string text | key text =>
    simp only [isItem] at bytes ⊢
    exact textObject_written rfl (bytes rfl)
  | data block =>
    simp only [isItem] at bytes ⊢
    have fits := bytes rfl
    rw [List.length_append, List.length_append] at fits
    rw [List.append_assoc, List.append_assoc]
    exact .data (counted_writeMarker (by decide) (by omega))
  | array =>
    simp only [isItem] at bytes ⊢
    have length := length_flatMap_be w (below.tops.map index)
    rw [List.length_map, length_tops] at length
    have fits := bytes rfl
    have each : below.length ≤ below.length * w := Nat.le_mul_of_pos_right _ positive
    rw [List.length_append, length] at fits
    rw [List.append_assoc]
    exact .array (.inl rfl) (counted_writeMarker (by decide) (by omega)) length
  | dict =>
    simp only [isItem] at bytes ⊢
    have length := length_flatMap_be w
      ((pairs below.tops).1.map index ++ (pairs below.tops).2.map index)
    rw [length_pairs, Nat.mul_right_comm] at length
    have fits := bytes rfl
    have each : below.length / 2 ≤ below.length / 2 * w := Nat.le_mul_of_pos_right _ positive
    rw [List.length_append, length] at fits
    rw [List.append_assoc]
    exact .dict (.inl rfl) (counted_writeMarker (by decide) (by omega)) length

end Bytes

end Irestore.Plist
