/-
# Usbmux.Devices — the device collection and its events

`get_next_event` reads one packet, keeps the collection of devices and tells the callback
what was added and removed; when the receive fails it removes every device.

The collection is an array of pointers, NULL where nothing is.  A device is the block
malloc gave, by its address, and what it holds; blocks are never freed, so a new one has
an address of its own.  `Seen` is one call of the callback, with what the collection holds
at that moment.

* `entries_add`, `entries_remove` — the collection as a bag of devices.
* `removeDevices_eq` — the loop over the collection that empties it.
* `well_matched` — over every sequence of packets.
-/
import Irestore.Library.Trace
import Irestore.Usbmux.Packet
import Mathlib.Data.List.ReduceOption
import Mathlib.Data.Multiset.AddSub

namespace Irestore.Usbmux

open Irestore.Library Irestore.Library.Bytes Irestore.Library.CMemory Irestore.Plist

set_option autoImplicit false

/-- A block with a device record. -/
structure Device where
  address : Nat
  info : UsbmuxdDeviceInfo

/-! ## The collection -/

/-- `struct collection`; its capacity is the number of slots. -/
structure Collection where
  slots : List (Option Device)
  positive : 0 < slots.length

def collectionInit : Collection := ⟨[none], by decide⟩

/-- The slots with the device in the first free one, if there is one. -/
def fillSlot (device : Device) : List (Option Device) → Option (List (Option Device))
  | [] => none
  | none :: rest => some (some device :: rest)
  | some other :: rest => (fillSlot device rest).map (some other :: ·)

theorem length_fillSlot {device : Device} : ∀ {slots filled : List (Option Device)},
    fillSlot device slots = some filled → filled.length = slots.length
  | none :: rest, filled, fill => by
      cases fill
      rfl
  | some other :: rest, filled, fill => by
      obtain ⟨later, filled, rfl⟩ := Option.map_eq_some_iff.mp fill
      rw [List.length_cons, List.length_cons, length_fillSlot filled]

/-- `collection_add`: the first free slot, or the first of twice as many; the capacity is
an `int`. -/
def collectionAdd (col : Collection) (device : Device) : Checked Collection :=
  match fill : fillSlot device col.slots with
  | some filled => return ⟨filled, length_fillSlot fill ▸ col.positive⟩
  | none => do
      let _ ← int (col.slots.length * 2)
      return ⟨col.slots ++ some device :: List.replicate (col.slots.length - 1) none, by simp⟩

/-- The slots without the first pointer to the block. -/
def clearSlot (device : Device) : List (Option Device) → List (Option Device)
  | [] => []
  | slot :: rest =>
      if slot.map Device.address = some device.address then none :: rest
      else slot :: clearSlot device rest

theorem length_clearSlot (device : Device) (slots : List (Option Device)) :
    (clearSlot device slots).length = slots.length := by
  induction slots with
  | nil => rfl
  | cons slot rest ih =>
    rw [clearSlot]
    split
    · rfl
    · rw [List.length_cons, List.length_cons, ih]

/-- `collection_remove`. -/
def collectionRemove (col : Collection) (device : Device) : Collection :=
  ⟨clearSlot device col.slots, length_clearSlot device col.slots ▸ col.positive⟩

/-- `collection_count`. -/
def collectionCount (col : Collection) : Nat := col.slots.countP Option.isSome

/-- The devices in the collection, by their slots. -/
def Collection.entries (col : Collection) : List Device := col.slots.reduceOption

/-- What they hold. -/
def Collection.infos (col : Collection) : List UsbmuxdDeviceInfo := col.entries.map Device.info

/-! ## The calls -/

inductive UsbmuxdEvent where
  | added (device : UsbmuxdDeviceInfo)
  | removed (device : UsbmuxdDeviceInfo)
  deriving DecidableEq

/-- A call of the callback: the event, and what the collection holds. -/
structure Seen where
  event : UsbmuxdEvent
  present : List UsbmuxdDeviceInfo

/-- The collection, the next address malloc gives, and the calls of the callback. -/
structure Devices where
  collection : Collection
  next : Nat
  history : List Seen

def Devices.start : Devices := ⟨collectionInit, 0, []⟩

/-- `generate_event`, for a callback. -/
def Devices.generateEvent (devices : Devices) (event : UsbmuxdEvent) : Devices :=
  { devices with history := devices.history ++ [⟨event, devices.collection.infos⟩] }

/-- `devices_find`. -/
def devicesFind (col : Collection) (handle : UInt32) : Option Device :=
  col.entries.find? fun device => device.info.handle = handle

/-- An event for the device, which then leaves the collection. -/
def Devices.remove (devices : Devices) (device : Device) : Devices :=
  let devices := devices.generateEvent (.removed device.info)
  { devices with collection := collectionRemove devices.collection device }

/-- The loop over the slots from `iter` on when the connection fails: the collection is
changed while it runs. -/
def removeDevices : Nat → Nat → Devices → Devices
  | 0, _, devices => devices
  | n + 1, iter, devices =>
      match devices.collection.slots[iter]? with
      | some (some device) => removeDevices n (iter + 1) (devices.remove device)
      | _ => removeDevices n (iter + 1) devices

def EIO : Int := 5

/-- `get_next_event`; `allocated` says whether malloc gives a block for a new device. -/
def getNextEvent (fromXml : List UInt8 → Checked (Option PlistNode)) (devices : Devices)
    (arrival : Arrival) (allocated : Bool) : Checked (Devices × Int) := do
  let receipt ← receivePacket fromXml arrival
  if receipt.ret < 0 then
    return (removeDevices devices.collection.slots.length 0 devices, - EIO)
  else if 16 < receipt.header.length.toNat ∧ receipt.payload.join = none then
    return (devices, -EBADMSG)
  else if receipt.header.message = MESSAGE_DEVICE_ADD then
    if allocated then
      match receipt.payload.join with
      | none => .error .nullPointer
      | some record => do
          let info ← deviceInfo record
          let collection ← collectionAdd devices.collection ⟨devices.next, info⟩
          return (Devices.generateEvent ⟨collection, devices.next + 1, devices.history⟩
            (.added info), 0)
    else return (devices, -1)
  else if receipt.header.message = MESSAGE_DEVICE_REMOVE then
    match receipt.payload.join with
    | none => .error .nullPointer
    | some block => do
        let handle ← memcpy block 4
        match devicesFind devices.collection (UInt32.ofNat (ofLE handle)) with
        | none => return (devices, 0)
        | some device => return (devices.remove device, 0)
  else return (devices, 0)

/-- The calls for a sequence of packets, up to one that faults. -/
def observe (fromXml : List UInt8 → Checked (Option PlistNode)) (devices : Devices) :
    List (Arrival × Bool) → Devices
  | [] => devices
  | (arrival, allocated) :: rest =>
      match getNextEvent fromXml devices arrival allocated with
      | .ok (devices, _) => observe fromXml devices rest
      | .error _ => devices

/-! ## The collection as a bag -/

theorem fillSlot_perm {device : Device} : ∀ {slots filled : List (Option Device)},
    fillSlot device slots = some filled →
      filled.reduceOption.Perm (device :: slots.reduceOption)
  | none :: rest, filled, fill => by
      cases fill
      rw [List.reduceOption_cons_of_some, List.reduceOption_cons_of_none]
  | some other :: rest, filled, fill => by
      obtain ⟨later, inner, rfl⟩ := Option.map_eq_some_iff.mp fill
      rw [List.reduceOption_cons_of_some, List.reduceOption_cons_of_some]
      exact ((fillSlot_perm inner).cons other).trans (.swap device other _)

/-- A device more. -/
theorem entries_add {col grown : Collection} {device : Device}
    (run : collectionAdd col device = .ok grown) :
    grown.entries.Perm (device :: col.entries) := by
  rw [collectionAdd] at run
  split at run
  · rename_i filled fill
    cases run
    exact fillSlot_perm fill
  · obtain ⟨capacity, -, run⟩ := bind_eq_ok.mp run
    cases run
    show (col.slots ++ some device :: List.replicate _ none).reduceOption.Perm _
    rw [List.reduceOption_append, List.reduceOption_cons_of_some,
      List.reduceOption_replicate_none]
    exact List.perm_append_singleton device col.entries

theorem fillSlot_eq_none {device : Device} : ∀ {slots : List (Option Device)},
    fillSlot device slots = none ↔ none ∉ slots
  | [] => by simp [fillSlot]
  | none :: rest => by simp [fillSlot]
  | some other :: rest => by
      rw [fillSlot, Option.map_eq_none_iff, fillSlot_eq_none]
      simp

/-- There is room for one more device while a slot is free or can be made. -/
theorem collectionAdd_ends_iff {col : Collection} {device : Device} :
    (∃ grown, collectionAdd col device = .ok grown) ↔
      none ∈ col.slots ∨ col.slots.length * 2 < 2 ^ 31 := by
  rw [collectionAdd]
  split
  · rename_i filled fill
    refine iff_of_true ⟨_, rfl⟩ (.inl ?_)
    by_contra full
    cases fill.symm.trans (fillSlot_eq_none.mpr full)
  · rename_i full
    have taken := fillSlot_eq_none.mp full
    rw [int]
    split
    · exact iff_of_true ⟨_, rfl⟩ (.inr ‹_›)
    · refine iff_of_false (fun ⟨_, run⟩ => by cases run) ?_
      rintro (free | small)
      · exact taken free
      · contradiction

theorem clearSlot_perm {device : Device} : ∀ {slots : List (Option Device)},
    device ∈ slots.reduceOption → (slots.reduceOption.map Device.address).Nodup →
      (device :: (clearSlot device slots).reduceOption).Perm slots.reduceOption
  | none :: rest, member, distinct => by
      rw [clearSlot, if_neg (by simp), List.reduceOption_cons_of_none,
        List.reduceOption_cons_of_none]
      rw [List.reduceOption_cons_of_none] at member distinct
      exact clearSlot_perm member distinct
  | some other :: rest, member, distinct => by
      rw [List.reduceOption_cons_of_some] at member distinct
      rw [List.map_cons, List.nodup_cons] at distinct
      rw [clearSlot]
      split
      · rename_i same
        rcases List.mem_cons.mp member with rfl | later
        · rw [List.reduceOption_cons_of_none, List.reduceOption_cons_of_some]
        · refine absurd ?_ distinct.1
          rw [show other.address = device.address from Option.some.inj same]
          exact List.mem_map_of_mem later
      · rename_i differ
        have later : device ∈ rest.reduceOption := by
          rcases List.mem_cons.mp member with rfl | later
          · exact absurd rfl differ
          · exact later
        rw [List.reduceOption_cons_of_some, List.reduceOption_cons_of_some]
        exact (List.Perm.swap other device _).trans ((clearSlot_perm later distinct.2).cons other)

/-- A device less. -/
theorem entries_remove {col : Collection} {device : Device} (member : device ∈ col.entries)
    (distinct : (col.entries.map Device.address).Nodup) :
    (device :: (collectionRemove col device).entries).Perm col.entries :=
  clearSlot_perm member distinct

theorem collectionCount_eq (col : Collection) : collectionCount col = col.infos.length := by
  rw [collectionCount, Collection.infos, List.length_map, Collection.entries]
  induction col.slots with
  | nil => rfl
  | cons slot rest ih =>
    cases slot with
    | none => rw [List.countP_cons_of_neg (by simp), ih, List.reduceOption_cons_of_none]
    | some device =>
      rw [List.countP_cons_of_pos (by simp), ih, List.reduceOption_cons_of_some, List.length_cons]

/-! ## What the callback is told -/

/-- The devices added and not removed. -/
def stock : Monitor Seen (Multiset UsbmuxdDeviceInfo) where
  start := 0
  step present seen :=
    match seen.event with
    | .added device => device ::ₘ present
    | .removed device => present.erase device

@[simp] theorem stock_added (present : Multiset UsbmuxdDeviceInfo) (device : UsbmuxdDeviceInfo)
    (seen : List UsbmuxdDeviceInfo) :
    stock.step present ⟨.added device, seen⟩ = device ::ₘ present := rfl

@[simp] theorem stock_removed (present : Multiset UsbmuxdDeviceInfo) (device : UsbmuxdDeviceInfo)
    (seen : List UsbmuxdDeviceInfo) :
    stock.step present ⟨.removed device, seen⟩ = present.erase device := rfl

/-- A device is added with its entry in the collection, and removed only when it is there;
the collection holds what it should while the callback runs. -/
def Permitted (present : Multiset UsbmuxdDeviceInfo) (seen : Seen) : Prop :=
  match seen.event with
  | .added device => (seen.present : Multiset UsbmuxdDeviceInfo) = device ::ₘ present
  | .removed device =>
      device ∈ present ∧ (seen.present : Multiset UsbmuxdDeviceInfo) = present

/-- The devices have blocks of their own, and the collection holds what the callback was
told. -/
structure Fine (devices : Devices) : Prop where
  distinct : (devices.collection.entries.map Device.address).Nodup
  below : ∀ device ∈ devices.collection.entries, device.address < devices.next
  sound : stock.Sound Permitted devices.history
  holds : stock.read devices.history = (devices.collection.infos : Multiset UsbmuxdDeviceInfo)

theorem fine_start : Fine .start where
  distinct := by simp [Devices.start, collectionInit, Collection.entries]
  below := by simp [Devices.start, collectionInit, Collection.entries]
  sound := Monitor.sound_nil
  holds := rfl

theorem Fine.add {devices : Devices} (fine : Fine devices) {grown : Collection}
    {info : UsbmuxdDeviceInfo}
    (run : collectionAdd devices.collection ⟨devices.next, info⟩ = .ok grown) :
    Fine (Devices.generateEvent ⟨grown, devices.next + 1, devices.history⟩ (.added info)) := by
  have bag := entries_add run
  have infos : (grown.infos : Multiset UsbmuxdDeviceInfo) =
      info ::ₘ (devices.collection.infos : Multiset UsbmuxdDeviceInfo) :=
    Multiset.coe_eq_coe.mpr (bag.map Device.info)
  refine ⟨?_, fun device member => ?_, fine.sound.concat ?_, ?_⟩
  · refine (bag.map Device.address).nodup_iff.mpr ?_
    rw [List.map_cons, List.nodup_cons]
    refine ⟨fun taken => ?_, fine.distinct⟩
    obtain ⟨device, member, same⟩ := List.mem_map.mp taken
    exact absurd (fine.below device member) (not_lt.mpr (le_of_eq same.symm))
  · rcases List.mem_cons.mp (bag.mem_iff.mp member) with rfl | old
    · exact Nat.lt_succ_self _
    · exact Nat.lt_succ_of_lt (fine.below device old)
  · rw [fine.holds]
    exact infos
  · show stock.read (devices.history ++ [_]) = (grown.infos : Multiset UsbmuxdDeviceInfo)
    rw [Monitor.read_concat, fine.holds, infos, stock_added]

theorem Fine.remove {devices : Devices} (fine : Fine devices) {device : Device}
    (member : device ∈ devices.collection.entries) : Fine (devices.remove device) := by
  have bag := entries_remove member fine.distinct
  have infos : device.info ::ₘ
      ((collectionRemove devices.collection device).infos : Multiset UsbmuxdDeviceInfo) =
        (devices.collection.infos : Multiset UsbmuxdDeviceInfo) :=
    Multiset.coe_eq_coe.mpr (bag.map Device.info)
  refine ⟨?_, fun other kept => ?_, fine.sound.concat ⟨?_, ?_⟩, ?_⟩
  · have distinct := (bag.map Device.address).nodup_iff.mpr fine.distinct
    rw [List.map_cons, List.nodup_cons] at distinct
    exact distinct.2
  · exact fine.below other (bag.mem_iff.mp (List.mem_cons_of_mem _ kept))
  · rw [fine.holds, ← infos]
    exact Multiset.mem_cons_self _ _
  · exact fine.holds.symm
  · show stock.read (devices.history ++ [_]) =
      ((collectionRemove devices.collection device).infos : Multiset UsbmuxdDeviceInfo)
    rw [Monitor.read_concat, fine.holds, ← infos, stock_removed, Multiset.erase_cons_head]

/-! ## The connection fails -/

/-- The calls of the callback for the slots still to visit. -/
def farewell : List (Option Device) → List Seen
  | [] => []
  | none :: rest => farewell rest
  | some device :: rest =>
      ⟨.removed device.info, device.info :: rest.reduceOption.map Device.info⟩ :: farewell rest

theorem map_farewell : ∀ slots : List (Option Device),
    (farewell slots).map Seen.event =
      (slots.reduceOption.map Device.info).map UsbmuxdEvent.removed
  | [] => rfl
  | none :: rest => by
      rw [farewell, map_farewell rest, List.reduceOption_cons_of_none]
  | some device :: rest => by
      rw [farewell, List.map_cons, map_farewell rest, List.reduceOption_cons_of_some]
      rfl

/-- Behind free slots the first pointer to the block is the slot itself. -/
theorem clearSlot_replicate (device : Device) (rest : List (Option Device)) : ∀ iter : Nat,
    clearSlot device (List.replicate iter none ++ some device :: rest) =
      List.replicate iter none ++ none :: rest
  | 0 => by simp [clearSlot]
  | iter + 1 => by
      rw [List.replicate_succ, List.cons_append, clearSlot, if_neg (by simp),
        clearSlot_replicate device rest iter, List.cons_append]

/-- **The loop visits every device once and leaves no pointer behind**, though it clears the
slots it runs over. -/
theorem removeDevices_eq : ∀ (rest : List (Option Device)) (iter : Nat) (devices : Devices),
    devices.collection.slots = List.replicate iter none ++ rest →
      (removeDevices rest.length iter devices).collection.slots =
          List.replicate (iter + rest.length) none ∧
        (removeDevices rest.length iter devices).next = devices.next ∧
        (removeDevices rest.length iter devices).history = devices.history ++ farewell rest
  | [], iter, devices, visited => by
      simpa [removeDevices, farewell] using visited
  | slot :: rest, iter, devices, visited => by
      have here : devices.collection.slots[iter]? = some slot := by
        rw [visited, List.getElem?_append_right (by simp), List.length_replicate, Nat.sub_self]
        rfl
      have passed : List.replicate iter (none : Option Device) ++ none :: rest =
          List.replicate (iter + 1) none ++ rest := by
        rw [List.replicate_succ', List.append_assoc]
        rfl
      have count : iter + (slot :: rest).length = iter + 1 + rest.length := by
        rw [List.length_cons]
        omega
      rw [List.length_cons, removeDevices, here, ← List.length_cons, count]
      cases slot with
      | none => exact removeDevices_eq rest (iter + 1) devices (visited.trans passed)
      | some device =>
        have cleared : (devices.remove device).collection.slots =
            List.replicate (iter + 1) none ++ rest := by
          show clearSlot device devices.collection.slots = _
          rw [visited, clearSlot_replicate, passed]
        have present : devices.collection.infos =
            device.info :: rest.reduceOption.map Device.info := by
          rw [Collection.infos, Collection.entries, visited, List.reduceOption_append,
            List.reduceOption_replicate_none, List.nil_append, List.reduceOption_cons_of_some,
            List.map_cons]
        obtain ⟨slots, next, history⟩ :=
          removeDevices_eq rest (iter + 1) (devices.remove device) cleared
        refine ⟨slots, next, history.trans ?_⟩
        show devices.history ++ [⟨.removed device.info, devices.collection.infos⟩] ++ farewell rest =
          devices.history ++ farewell (some device :: rest)
        rw [present, farewell, List.append_assoc, List.singleton_append]

theorem sound_farewell (slots : List (Option Device)) : ∀ {history : List Seen},
    stock.Sound Permitted history →
      stock.read history = (slots.reduceOption.map Device.info : Multiset UsbmuxdDeviceInfo) →
        stock.Sound Permitted (history ++ farewell slots) ∧
          stock.read (history ++ farewell slots) = 0 := by
  induction slots with
  | nil =>
    intro history sound holds
    rw [farewell, List.append_nil]
    exact ⟨sound, holds⟩
  | cons slot rest ih =>
    intro history sound holds
    cases slot with
    | none =>
      rw [List.reduceOption_cons_of_none] at holds
      exact ih sound holds
    | some device =>
      rw [List.reduceOption_cons_of_some, List.map_cons, ← Multiset.cons_coe] at holds
      rw [farewell, ← List.singleton_append, ← List.append_assoc]
      apply ih
      · refine sound.concat ⟨?_, holds.symm⟩
        rw [holds]
        exact Multiset.mem_cons_self _ _
      · rw [Monitor.read_concat, holds, stock_removed, Multiset.erase_cons_head]

/-- What is left when the connection has failed. -/
def Devices.lost (devices : Devices) : Devices :=
  removeDevices devices.collection.slots.length 0 devices

theorem lost_eq (devices : Devices) :
    devices.lost.collection.entries = [] ∧
      devices.lost.history = devices.history ++ farewell devices.collection.slots := by
  obtain ⟨slots, -, history⟩ := removeDevices_eq devices.collection.slots 0 devices rfl
  refine ⟨?_, history⟩
  show (removeDevices _ 0 devices).collection.slots.reduceOption = []
  rw [slots, List.reduceOption_replicate_none]

theorem Fine.lost {devices : Devices} (fine : Fine devices) : Fine devices.lost := by
  obtain ⟨empty, history⟩ := lost_eq devices
  obtain ⟨sound, nothing⟩ := sound_farewell _ fine.sound fine.holds
  refine ⟨?_, ?_, history ▸ sound, ?_⟩
  · rw [empty]
    exact List.nodup_nil
  · rw [empty]
    simp
  · rw [history, Collection.infos, empty]
    exact nothing

/-! ## Every sequence of packets -/

section Runs

variable {fromXml : List UInt8 → Checked (Option PlistNode)} {devices after : Devices}
  {arrival : Arrival} {allocated : Bool}

/-- **One packet keeps the collection and the history in step.** -/
theorem Fine.step (fine : Fine devices) {ret : Int}
    (run : getNextEvent fromXml devices arrival allocated = .ok (after, ret)) : Fine after := by
  rw [getNextEvent] at run
  obtain ⟨receipt, -, run⟩ := bind_eq_ok.mp run
  split at run
  · cases run
    exact fine.lost
  split at run
  · cases run
    exact fine
  split at run
  · split at run
    · cases present : receipt.payload.join with
      | none =>
        rw [present] at run
        cases run
      | some record =>
        simp only [present] at run
        obtain ⟨info, -, run⟩ := bind_eq_ok.mp run
        obtain ⟨grown, added, run⟩ := bind_eq_ok.mp run
        cases run
        exact fine.add added
    · cases run
      exact fine
  split at run
  · cases present : receipt.payload.join with
    | none =>
      rw [present] at run
      cases run
    | some block =>
      simp only [present] at run
      obtain ⟨handle, -, run⟩ := bind_eq_ok.mp run
      cases found : devicesFind devices.collection (UInt32.ofNat (ofLE handle)) with
      | none =>
        rw [found] at run
        cases run
        exact fine
      | some device =>
        rw [found] at run
        cases run
        exact fine.remove (List.mem_of_find?_eq_some found)
  · cases run
    exact fine

theorem Fine.observe (fromXml : List UInt8 → Checked (Option PlistNode)) :
    ∀ (packets : List (Arrival × Bool)) {devices : Devices}, Fine devices →
      Fine (observe fromXml devices packets)
  | [], _, fine => fine
  | (arrival, allocated) :: rest, devices, fine => by
      rw [Usbmux.observe]
      cases run : getNextEvent fromXml devices arrival allocated with
      | error fault => exact fine
      | ok result => exact Fine.observe fromXml rest (fine.step run)

end Runs

/-- A packet that was read and adds this device. -/
def AddRead (fromXml : List UInt8 → Checked (Option PlistNode)) (arrival : Arrival)
    (info : UsbmuxdDeviceInfo) : Prop :=
  ∃ receipt record, receivePacket fromXml arrival = .ok receipt ∧ ¬ receipt.ret < 0 ∧
    receipt.header.message = MESSAGE_DEVICE_ADD ∧ receipt.payload.join = some record ∧
    deviceInfo record = .ok info

/-- A device that is added is entered and announced, when there is a slot for it. -/
theorem getNextEvent_of_addRead {fromXml : List UInt8 → Checked (Option PlistNode)}
    {devices : Devices} {arrival : Arrival} {info : UsbmuxdDeviceInfo}
    (read : AddRead fromXml arrival info)
    (room : none ∈ devices.collection.slots ∨ devices.collection.slots.length * 2 < 2 ^ 31) :
    ∃ after, getNextEvent fromXml devices arrival true = .ok (after, 0) ∧
      (after.collection.infos : Multiset UsbmuxdDeviceInfo) =
        info ::ₘ (devices.collection.infos : Multiset UsbmuxdDeviceInfo) ∧
      after.history = devices.history ++ [⟨.added info, after.collection.infos⟩] := by
  obtain ⟨receipt, record, received, success, isAdd, present, filled⟩ := read
  obtain ⟨grown, added⟩ := (@collectionAdd_ends_iff _ ⟨devices.next, info⟩).mpr room
  have announced : ¬ (16 < receipt.header.length.toNat ∧ receipt.payload.join = none) := by
    rintro ⟨-, absent⟩
    cases present.symm.trans absent
  refine ⟨Devices.generateEvent ⟨grown, devices.next + 1, devices.history⟩ (.added info), ?_,
    Multiset.coe_eq_coe.mpr ((entries_add added).map Device.info), rfl⟩
  rw [getNextEvent, received, ok_bind, if_neg success, if_neg announced, if_pos isAdd, if_pos rfl]
  simp only [present, filled, ok_bind, added, pure_eq_ok]

/-- **Over every sequence of packets** what the callback is told is well matched: a device
is removed when it was added and not yet removed, with its entry in the collection when it
is added, and the collection holds the devices added and not removed.  A receive that fails
is one removal for every device present, and leaves the collection empty; a device that is added,
when there is a block and a slot for it, is entered and announced. -/
theorem well_matched (fromXml : List UInt8 → Checked (Option PlistNode))
    (packets : List (Arrival × Bool)) :
    stock.Sound Permitted (observe fromXml .start packets).history ∧
      stock.read (observe fromXml .start packets).history =
        ((observe fromXml .start packets).collection.infos : Multiset UsbmuxdDeviceInfo) ∧
      (∀ arrival allocated receipt, receivePacket fromXml arrival = .ok receipt → receipt.ret < 0 →
        ∃ after, getNextEvent fromXml (observe fromXml .start packets) arrival allocated =
            .ok (after, - EIO) ∧
          collectionCount after.collection = 0 ∧
          after.history.map Seen.event =
            (observe fromXml .start packets).history.map Seen.event ++
              (observe fromXml .start packets).collection.infos.map UsbmuxdEvent.removed) ∧
      ∀ arrival info, AddRead fromXml arrival info →
        (none ∈ (observe fromXml .start packets).collection.slots ∨
          (observe fromXml .start packets).collection.slots.length * 2 < 2 ^ 31) →
        ∃ after, getNextEvent fromXml (observe fromXml .start packets) arrival true =
            .ok (after, 0) ∧
          (after.collection.infos : Multiset UsbmuxdDeviceInfo) =
            info ::ₘ
              ((observe fromXml .start packets).collection.infos : Multiset UsbmuxdDeviceInfo) ∧
          after.history = (observe fromXml .start packets).history ++
            [⟨.added info, after.collection.infos⟩] := by
  have fine := Fine.observe fromXml packets fine_start
  refine ⟨fine.sound, fine.holds, fun arrival allocated receipt received failed => ?_,
    fun arrival info => getNextEvent_of_addRead⟩
  obtain ⟨empty, history⟩ := lost_eq (observe fromXml .start packets)
  refine ⟨(observe fromXml .start packets).lost, ?_, ?_, ?_⟩
  · rw [getNextEvent, received, ok_bind, if_pos failed]
    rfl
  · rw [collectionCount_eq, Collection.infos, empty]
    rfl
  · rw [history, List.map_append, map_farewell]
    rfl

end Irestore.Usbmux
