/-
# Plist.Access — reading the values of a property list

The accessors of `plist.c`.  A node pointer is an `Option`, NULL being `none`;
the variable an accessor stores into is NULL or 0 before, as its callers have it.

The scalar accessors end with an assertion on the length they read, which stays 0
for a node of another type: `plist_get_string_val` then takes the length of a
NULL string, the others fail the assertion.
-/
import Irestore.Plist.Dict

namespace Irestore.Plist

open Irestore.Library Irestore.Library.CMemory

set_option autoImplicit false

/-- `plist_get_node_type`. -/
def plistGetNodeType : Option PlistNode → PlistType
  | none => .none
  | some node => node.1.type

/-- `plist_get_string_val`. -/
def plistGetStringVal (node : Option PlistNode) : Checked (List UInt8) :=
  match node with
  | some (⟨.strval text, length, .string⟩, _) =>
      if length = text.length then .ok text else .error .assertion
  | some (⟨_, _, .string⟩, _) => .error .wildPointer
  | _ => .error .nullPointer

/-- `plist_get_bool_val`: the low byte of the union's word. -/
def plistGetBoolVal (node : Option PlistNode) : Checked UInt8 :=
  match node with
  | some (⟨.word bits, length, .boolean⟩, _) =>
      if length = 1 then .ok bits.toUInt8 else .error .assertion
  | some (⟨_, _, .boolean⟩, _) => .error .wildPointer
  | _ => .error .assertion

/-- `plist_get_uint_val`. -/
def plistGetUintVal (node : Option PlistNode) : Checked UInt64 :=
  match node with
  | some (⟨.word bits, length, .uint⟩, _) =>
      if length = 8 then .ok bits else .error .assertion
  | some (⟨_, _, .uint⟩, _) => .error .wildPointer
  | _ => .error .assertion

/-- `plist_get_key_val`. -/
def plistGetKeyVal (node : Option PlistNode) : Checked (List UInt8) :=
  match node with
  | some (⟨.strval text, length, .key⟩, _) =>
      if length = text.length then .ok text else .error .assertion
  | some (⟨_, _, .key⟩, _) => .error .wildPointer
  | _ => .error .nullPointer

/-- `plist_get_data_val`; nothing is stored for a node of another type. -/
def plistGetDataVal (node : Option PlistNode) : Checked (Option (List UInt8)) :=
  match node with
  | some (⟨.buff block, length, .data⟩, _) => do
      let bytes ← memcpy block length
      return some bytes
  | some (⟨_, _, .data⟩, _) => .error .wildPointer
  | _ => .ok none

/-- `plist_dict_next_item`: the key, the item and the iterator behind them. -/
def plistDictNextItem (node : PlistNode) (iter : Nat) :
    Checked (Option (List UInt8) × Option PlistNode × Nat) :=
  if node.1.type = .dict ∧ iter < node.2.length % 2 ^ 32 then do
    let key ← plistGetKeyVal node.2.toList[iter]?
    return (some key, node.2.toList[iter + 1]?, (iter + 2) % 2 ^ 32)
  else return (none, none, iter)

/-- `plist_array_get_item`. -/
def plistArrayGetItem (node : PlistNode) (n : Nat) : Option PlistNode :=
  if node.1.type = .array then node.2.toList[n]? else none

theorem plistArrayGetItem_eq {node : PlistNode} (isArray : node.1.type = .array) (n : Nat) :
    plistArrayGetItem node n = node.2.toList[n]? := if_pos isArray

/-- `plist_array_append_item`. -/
def plistArrayAppendItem (node item : PlistNode) : PlistNode :=
  if node.1.type = .array then (node.1, node.2.append (.cons item.1 item.2 .nil)) else node

/-- The array after a list of items was appended one by one. -/
theorem foldl_arrayAppendItem {items : List PlistNode} :
    ∀ {node : PlistNode}, node.1.type = .array →
      (items.foldl plistArrayAppendItem node).1 = node.1 ∧
        (items.foldl plistArrayAppendItem node).2.toList = node.2.toList ++ items := by
  induction items with
  | nil =>
    intro node _
    simp
  | cons item rest ih =>
    intro node isArray
    have step : plistArrayAppendItem node item =
        (node.1, node.2.append (.cons item.1 item.2 .nil)) := if_pos isArray
    obtain ⟨data, chain⟩ := @ih (plistArrayAppendItem node item) (by rw [step]; exact isArray)
    rw [List.foldl_cons, data, chain, step]
    simp [Siblings.toList]

/-! ## Copies -/

/-- The union holds the member that the type says, of the length it has: the nodes that the
constructors and the parsers make. -/
def PlistData.Intact (data : PlistData) : Prop :=
  match data.type, data.value with
  | .boolean, .word _ => data.length = 1
  | .uint, .word _ => data.length = 8
  | .string, .strval text | .key, .strval text => data.length = text.length
  | .data, .buff block => data.length = block.length
  | .real, _ | .date, _ | .array, _ | .dict, _ | .none, _ => True
  | _, _ => False

/-- Every node of the chain and below it is intact. -/
def Intact : GNode → Prop
  | .nil => True
  | .cons data below next => data.Intact ∧ Intact below ∧ Intact next

/-- A tree of intact nodes. -/
def PlistNode.Intact (node : PlistNode) : Prop := node.1.Intact ∧ Plist.Intact node.2

theorem Intact.mem {chain : GNode} (intact : Intact chain) :
    ∀ {node : PlistNode}, node ∈ chain.toList → node.Intact := by
  induction chain with
  | nil => exact fun member => absurd member List.not_mem_nil
  | cons data below next _ ih =>
    intro node member
    rcases List.mem_cons.mp member with rfl | later
    · exact ⟨intact.1, intact.2.1⟩
    · exact ih intact.2.2 later

theorem Intact.append {front back : GNode} (intact : Intact front) (intactBack : Intact back) :
    Intact (front.append back) := by
  induction front with
  | nil => exact intactBack
  | cons data below next _ ih => exact ⟨intact.1, intact.2.1, ih intact.2.2⟩

theorem PlistNode.Intact.insertItem {dict item : PlistNode} (intact : dict.Intact)
    (intactItem : item.Intact) (key : CText) : (plistDictInsertItem dict key item).Intact := by
  rw [plistDictInsertItem]
  split
  · exact ⟨intact.1, intact.2.append ⟨rfl, trivial, intactItem.1, intactItem.2, trivial⟩⟩
  · exact intact

theorem plistCopyData_intact {data : PlistData} (intact : data.Intact) :
    plistCopyData data = .ok data := by
  obtain ⟨value, length, type⟩ := data
  cases type <;> cases value <;> first | exact intact.elim | rfl | skip
  -- data: as many bytes are copied as there are
  rename_i block
  have whole : length = block.length := intact
  simp [plistCopyData, memcpy, whole]

theorem plistCopyChain_intact {chain : GNode} (intact : Intact chain) :
    plistCopyChain chain = .ok chain := by
  induction chain with
  | nil => rfl
  | cons data below next copiedBelow copiedNext =>
    rw [plistCopyChain, plistCopyData_intact intact.1, ok_bind, copiedBelow intact.2.1, ok_bind,
      copiedNext intact.2.2]
    rfl

/-- **The copy of an intact tree is that tree.** -/
theorem plistCopyNode_intact {node : PlistNode} (intact : node.Intact) :
    plistCopyNode node = .ok node := by
  rw [plistCopyNode, plistCopyData_intact intact.1, ok_bind, plistCopyChain_intact intact.2]
  rfl

/-! ## Reading intact nodes -/

/-- What an accessor reads of an intact string. -/
theorem plistGetStringVal_intact {node : PlistNode} (intact : node.Intact)
    (isString : node.1.type = .string) :
    ∃ text, node.1.value = .strval text ∧ plistGetStringVal (some node) = .ok text := by
  obtain ⟨⟨value, length, type⟩, below⟩ := node
  have same : type = .string := isString
  subst same
  cases value with
  | strval text =>
    have whole : length = text.length := intact.1
    exact ⟨text, rfl, if_pos whole⟩
  | _ => exact intact.1.elim

/-- The text of an intact node can be taken exactly of a string. -/
theorem plistGetStringVal_ends_iff {node : PlistNode} (intact : node.Intact) :
    Ends (plistGetStringVal (some node)) ↔ node.1.type = .string := by
  constructor
  · rintro ⟨text, read⟩
    unfold plistGetStringVal at read
    split at read
    · rename_i same
      cases same
      rfl
    · cases read
    · cases read
  · intro isString
    obtain ⟨text, -, read⟩ := plistGetStringVal_intact intact isString
    exact ⟨text, read⟩

/-- What an accessor reads of an intact unsigned integer. -/
theorem plistGetUintVal_intact {node : PlistNode} (intact : node.Intact)
    (isUint : node.1.type = .uint) :
    ∃ bits, node.1.value = .word bits ∧ plistGetUintVal (some node) = .ok bits := by
  obtain ⟨⟨value, length, type⟩, below⟩ := node
  have same : type = .uint := isUint
  subst same
  cases value with
  | word bits =>
    have whole : length = 8 := intact.1
    exact ⟨bits, rfl, if_pos whole⟩
  | _ => exact intact.1.elim

/-- The number of an intact node can be taken exactly of an unsigned integer. -/
theorem plistGetUintVal_ends_iff {node : PlistNode} (intact : node.Intact) :
    Ends (plistGetUintVal (some node)) ↔ node.1.type = .uint := by
  constructor
  · rintro ⟨bits, read⟩
    unfold plistGetUintVal at read
    split at read
    · rename_i same
      cases same
      rfl
    · cases read
    · cases read
  · intro isUint
    obtain ⟨bits, -, read⟩ := plistGetUintVal_intact intact isUint
    exact ⟨bits, read⟩

/-! ## Reading any nodes -/

/-- An unsigned integer: its union holds a word. -/
def IsUint (node : Option PlistNode) : Prop :=
  ∃ bits below, node = some (⟨.word bits, 8, .uint⟩, below)

/-- A string of this text. -/
def IsString (node : Option PlistNode) (text : List UInt8) : Prop :=
  ∃ below, node = some (⟨.strval text, text.length, .string⟩, below)

theorem plistGetUintVal_ends_iff_isUint {node : Option PlistNode} :
    Ends (plistGetUintVal node) ↔ IsUint node := by
  constructor
  · rintro ⟨bits, read⟩
    unfold plistGetUintVal at read
    split at read
    · rename_i bits' length below
      split at read
      · rename_i whole
        exact ⟨bits', below, by rw [whole]⟩
      · cases read
    · cases read
    · cases read
  · rintro ⟨bits, below, rfl⟩
    exact ⟨bits, rfl⟩

theorem plistGetStringVal_eq_ok_iff {node : Option PlistNode} {text : List UInt8} :
    plistGetStringVal node = .ok text ↔ IsString node text := by
  constructor
  · intro read
    unfold plistGetStringVal at read
    split at read
    · rename_i text' length below
      split at read
      · rename_i whole
        cases read
        exact ⟨below, by rw [whole]⟩
      · cases read
    · cases read
    · cases read
  · rintro ⟨below, rfl⟩
    exact if_pos rfl

/-- What the children of a dictionary have under a key: the node behind the key of this text, or
nothing.  Up to there each place of a key has one. -/
inductive Under (key : List UInt8) : GNode → Option PlistNode → Prop
  | missing : Under key .nil none
  | alone {data : PlistData} {below : GNode} {text : List UInt8} (isKey : data.type = .key)
      (value : data.value = .strval text) : Under key (.cons data below .nil) none
  | here {data item : PlistData} {below itemBelow after : GNode} (isKey : data.type = .key)
      (value : data.value = .strval key) :
      Under key (.cons data below (.cons item itemBelow after)) (some (item, itemBelow))
  | later {data item : PlistData} {below itemBelow after : GNode} {text : List UInt8}
      {found : Option PlistNode} (isKey : data.type = .key) (value : data.value = .strval text)
      (other : key ≠ text) (under : Under key after found) :
      Under key (.cons data below (.cons item itemBelow after)) found

/-- What a node has under a key: nothing, unless it is a dictionary. -/
def HasItem (node : PlistNode) (key : CText) (found : Option PlistNode) : Prop :=
  if node.1.type = .dict then Under key.val node.2 found else found = none

theorem findKeyNode_iff {key : List UInt8} {chain : GNode} : ∀ {item : Option PlistNode},
    (∃ found, findKeyNode key chain = .ok found ∧ found.bind Found.item = item) ↔
      Under key chain item := by
  fun_induction findKeyNode key chain with
  | case1 =>
    refine fun {item} => ⟨?_, fun under => ?_⟩
    · rintro ⟨found, ran, rfl⟩
      cases ran
      exact .missing
    · cases under
      exact ⟨none, rfl, rfl⟩
  | case2 data below isKey value =>
    refine fun {item} => ⟨?_, fun under => ?_⟩
    · rintro ⟨found, ran, rfl⟩
      cases ran
      exact .alone isKey value
    · cases under
      exact ⟨_, rfl, rfl⟩
  | case3 data below isKey itemData itemBelow after value =>
    refine fun {item} => ⟨?_, fun under => ?_⟩
    · rintro ⟨found, ran, rfl⟩
      cases ran
      exact .here isKey value
    · cases under with
      | here => exact ⟨_, rfl, rfl⟩
      | later _ value' other =>
        cases value.symm.trans value'
        exact absurd rfl other
  | case4 data below text value isKey other =>
    refine fun {item} => ⟨?_, fun under => ?_⟩
    · rintro ⟨found, ran, rfl⟩
      cases ran
      exact .alone isKey value
    · cases under
      exact ⟨none, rfl, rfl⟩
  | case5 data below text value isKey other itemData itemBelow after ih =>
    refine fun {item} => ⟨?_, fun under => ?_⟩
    · rintro ⟨found, ran, rfl⟩
      obtain ⟨found', walked, same⟩ := bind_eq_ok.mp ran
      cases same
      refine .later isKey value other (ih.mp ⟨found', walked, ?_⟩)
      cases found' <;> rfl
    · cases under with
      | here _ value' =>
        cases value.symm.trans value'
        exact absurd rfl other
      | later _ _ _ under =>
        obtain ⟨found, walked, rfl⟩ := ih.mpr under
        refine ⟨_, by rw [walked, ok_bind]; rfl, ?_⟩
        cases found <;> rfl
  | case6 data below next isKey noText =>
    refine fun {item} => iff_of_false ?_ fun under => ?_
    · rintro ⟨found, ran, -⟩
      cases ran
    · cases under with
      | alone _ value => exact noText _ value
      | here _ value => exact noText _ value
      | later _ value => exact noText _ value
  | case7 data below next noKey =>
    refine fun {item} => iff_of_false ?_ fun under => ?_
    · rintro ⟨found, ran, -⟩
      cases ran
    · cases under with
      | alone isKey => exact noKey isKey
      | here isKey => exact noKey isKey
      | later isKey => exact noKey isKey

/-- **What `plist_dict_get_item` gives of any node.** -/
theorem plistDictGetItem_eq_ok_iff {node : PlistNode} {key : CText} {item : Option PlistNode} :
    plistDictGetItem node key = .ok item ↔ HasItem node key item := by
  rw [plistDictGetItem, HasItem]
  by_cases isDict : node.1.type = .dict
  · rw [if_pos isDict, if_pos isDict, ← findKeyNode_iff, bind_eq_ok]
    simp only [pure_eq_ok, Except.ok.injEq]
  · rw [if_neg isDict, if_neg isDict]
    exact ⟨fun ran => (Except.ok.inj ran).symm, fun absent => congrArg Except.ok absent.symm⟩

/-- What is found under a key is an item of the dictionary. -/
theorem findKeyNode_mem {key : List UInt8} {chain : GNode} :
    ∀ {found : Found} {item : PlistNode}, findKeyNode key chain = .ok (some found) →
      found.item = some item → item ∈ chain.toList := by
  fun_induction findKeyNode key chain with
  | case3 =>
    intro found item ran isItem
    cases ran
    cases isItem
    exact .tail _ (.head _)
  | case5 _ _ _ _ _ _ _ _ _ ih =>
    intro found item ran isItem
    obtain ⟨found', later, same⟩ := bind_eq_ok.mp ran
    cases found' with
    | none => cases same
    | some found' =>
      cases same
      exact .tail _ (.tail _ (ih later isItem))
  | case2 =>
    intro found item ran isItem
    cases ran
    cases isItem
  | _ => exact fun ran => by cases ran

theorem plistDictGetItem_mem {dict item : PlistNode} {key : CText}
    (ran : plistDictGetItem dict key = .ok (some item)) : item ∈ dict.2.toList := by
  rw [plistDictGetItem] at ran
  split at ran
  · obtain ⟨found, walked, same⟩ := bind_eq_ok.mp ran
    obtain ⟨found, rfl, isItem⟩ := Option.bind_eq_some_iff.mp (Except.ok.inj same)
    exact findKeyNode_mem walked isItem
  · cases ran

/-- All the bytes of an intact data node. -/
theorem plistGetDataVal_intact {node : PlistNode} (intact : node.Intact)
    (isData : node.1.type = .data) :
    ∃ bytes, node.1.value = .buff bytes ∧ plistGetDataVal (some node) = .ok (some bytes) := by
  obtain ⟨⟨value, length, type⟩, below⟩ := node
  have same : type = .data := isData
  subst same
  cases value with
  | buff bytes =>
    have whole : length = bytes.length := intact.1
    refine ⟨bytes, rfl, ?_⟩
    simp [plistGetDataVal, memcpy, whole]
  | _ => exact intact.1.elim

theorem Alternates.item_mem {chain : GNode} {bindings : Bindings}
    (alternates : Alternates chain bindings) :
    ∀ binding ∈ bindings, binding.2 ∈ chain.toList := by
  induction alternates with
  | nil => exact fun binding member => absurd member List.not_mem_nil
  | cons _ _ _ ih =>
    intro binding member
    rcases List.mem_cons.mp member with rfl | later
    · exact .tail _ (.head _)
    · exact .tail _ (.tail _ (ih binding later))

/-- The key and the item of one binding, two children behind the ones before it. -/
theorem plistDictNextItem_eq {node : PlistNode} {bindings : Bindings} (isDict : node.1.type = .dict)
    (alternates : Alternates node.2 bindings) (intact : Intact node.2) {i : Nat}
    (inside : i < plistDictGetSize node) :
    ∃ key item, bindings[i]? = some (key, item) ∧
      plistDictNextItem node (2 * i) = .ok (some key.val, some item, 2 * (i + 1)) := by
  rw [plistDictGetSize, if_pos isDict] at inside
  have nodes : ∀ {chain : GNode} {bindings : Bindings}, Alternates chain bindings → Intact chain →
      ∀ {i : Nat}, i < bindings.length → ∃ key item, bindings[i]? = some (key, item) ∧
        plistGetKeyVal chain.toList[2 * i]? = .ok key.val ∧
          chain.toList[2 * i + 1]? = some item := by
    intro chain bindings alternates
    induction alternates with
    | nil => exact fun _ _ inside => absurd inside (Nat.not_lt_zero _)
    | @cons data below key item rest bindings type value _ ih =>
      intro intact i inside
      cases i with
      | zero =>
        obtain ⟨held, length, kind⟩ := data
        have isKey : kind = .key := type
        have text : held = .strval key.val := value
        subst isKey text
        have whole : length = key.val.length := intact.1
        exact ⟨key, item, rfl, if_pos whole, rfl⟩
      | succ i =>
        exact ih intact.2.2.2.2 (Nat.lt_of_succ_lt_succ inside)
  have count := alternates.length
  obtain ⟨key, item, bound, isKey, isItem⟩ := @nodes _ _ alternates intact i (by omega)
  refine ⟨key, item, bound, ?_⟩
  rw [plistDictNextItem, if_pos ⟨isDict, by omega⟩, isKey, isItem, Nat.mod_eq_of_lt (by omega)]
  rfl

/-! ## Dictionaries -/

/-- A node without children. -/
def leaf (data : PlistData) : PlistNode := (data, .nil)

/-- The items appended to a new array are its items. -/
theorem foldl_newArray (items : List PlistNode) :
    (items.foldl plistArrayAppendItem (leaf plistNewArray)).1.type = .array ∧
      (items.foldl plistArrayAppendItem (leaf plistNewArray)).2.toList = items := by
  obtain ⟨data, chain⟩ := @foldl_arrayAppendItem items (leaf plistNewArray) rfl
  exact ⟨congrArg PlistData.type data, chain⟩

/-- The text of the string a dictionary holds under a key; `none` when it holds
nothing or no string there. -/
def stringItem (dict : PlistNode) (key : CText) : Checked (Option (List UInt8)) := do
  let node ← plistDictGetItem dict key
  if plistGetNodeType node = .string then do
    let text ← plistGetStringVal node
    return some text
  else return none

/-- The bytes of the data a dictionary holds under a key. -/
def dataItem (dict : PlistNode) (key : CText) : Checked (Option (List UInt8)) := do
  let node ← plistDictGetItem dict key
  if plistGetNodeType node = .data then plistGetDataVal node else return none

section Items

variable {dict : PlistNode} {bindings : Bindings} (isDict : dict.1.type = .dict)
  (alternates : Alternates dict.2 bindings) (intact : dict.Intact)

include isDict alternates intact

/-- An item of a well formed dictionary is found or not, and is intact. -/
theorem getItem_intact (key : CText) :
    ∃ node, plistDictGetItem dict key = .ok node ∧ ∀ item ∈ node, item.Intact := by
  refine ⟨_, getItem_eq isDict alternates key, fun item found => ?_⟩
  have same : plistDictGetItem dict key = .ok (some item) :=
    (getItem_eq isDict alternates key).trans (congrArg _ found)
  exact intact.2.mem (plistDictGetItem_mem same)

end Items

end Irestore.Plist
