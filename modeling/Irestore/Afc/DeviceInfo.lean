/-
# Afc.DeviceInfo — one key of the device information

The reply is a sequence of strings, a value behind each key.  `make_strings_list` cuts it
into one list, and gives NULL for an empty reply; `afc_get_device_info_key` looks for the key
at every place of that list.

* `makeStringsList_infoReply` — the list is that of the keys and values in turn.
* `findKey_eq_lookup_iff` — when the walk over the list finds what the pairs give.
* `deviceInfoKey_iff` — when the call does.
* `value_taken_for_key` — a value that is the text of the key.
-/
import Irestore.Afc.Replies

namespace Irestore.Afc

open Irestore.Library Irestore.Library.Program Irestore.Library.Bytes Irestore.Library.CMemory

set_option autoImplicit false

variable {σ : Type} (env : Environment σ)

/-! ## Replies -/

/-- A reply of keys, each with its value behind it. -/
def infoReply (pairs : List (CText × CText)) : List UInt8 :=
  pairs.flatMap fun pair => pair.1.block ++ pair.2.block

/-- The request is answered with success, and the reply is received. -/
def Replied (w : World σ) (reply : List UInt8) : Prop :=
  ∃ data w', (exchange env AFC_OP_GET_DEVINFO [] AFC_E_NOT_ENOUGH_DATA).run w =
      (.ok (AFC_E_SUCCESS, data, reply.length), w') ∧
    (data.elim [] fun buffer => buffer.filled.take reply.length) = reply

/-- The keys and values in turn. -/
def tokens (pairs : List (CText × CText)) : List (List UInt8) :=
  pairs.flatMap fun pair => [pair.1.val, pair.2.val]

/-- One string of the reply, behind what was read of it before. -/
theorem splitNul_block {text : List UInt8} (nulFree : 0 ∉ text) (before rest : List UInt8) :
    splitNul before (text ++ 0 :: rest) = (before.reverse ++ text) :: splitNul [] rest := by
  induction text generalizing before with
  | nil => simp [splitNul]
  | cons b text ih =>
    have nonzero : b ≠ 0 := fun zero => nulFree (by simp [zero])
    rw [List.cons_append, splitNul, if_neg nonzero, ih fun member => nulFree (by simp [member])]
    simp

theorem splitNul_infoReply : ∀ pairs : List (CText × CText),
    splitNul [] (infoReply pairs) = tokens pairs
  | [] => rfl
  | pair :: pairs => by
      have cut : infoReply (pair :: pairs) =
          pair.1.val ++ 0 :: (pair.2.val ++ 0 :: infoReply pairs) := by
        simp [infoReply, CText.block]
      rw [cut, splitNul_block pair.1.property, splitNul_block pair.2.property,
        splitNul_infoReply pairs]
      rfl

theorem infoReply_ne_nil {pairs : List (CText × CText)} (some : pairs ≠ []) :
    infoReply pairs ≠ [] := by
  obtain ⟨pair, rest, rfl⟩ := List.exists_cons_of_ne_nil some
  simp [infoReply, CText.block]

/-- **The list made of a reply**; none is made of an empty one. -/
theorem makeStringsList_infoReply {pairs : List (CText × CText)} {data : Option Buffer}
    (holds : (data.elim [] fun buffer => buffer.filled.take (infoReply pairs).length) =
      infoReply pairs) :
    makeStringsList data (infoReply pairs).length =
      if pairs = [] then none else some (tokens pairs) := by
  by_cases empty : pairs = []
  · rw [if_pos empty, empty]
    cases data <;> rfl
  · have length : (infoReply pairs).length ≠ 0 :=
      fun zero => infoReply_ne_nil empty (List.length_eq_zero_iff.mp zero)
    rw [if_neg empty]
    cases data with
    | none => exact absurd holds.symm (infoReply_ne_nil empty)
    | some buffer =>
      rw [Option.elim_some] at holds
      rw [makeStringsList, if_neg length, holds, splitNul_infoReply]

/-! ## The walk -/

/-- No value is taken for the key: none before the first pair of the key has its text, unless
the key of the pair behind the first such value is what the key's own pair holds. -/
def Unmistaken (key : CText) : List (CText × CText) → Prop
  | [] => True
  | pair :: rest =>
      pair.1 = key ∨
        if pair.2 = key then ∃ next ∈ rest.head?, rest.lookup key = some next.1
        else Unmistaken key rest

theorem findKey_cons (key token : List UInt8) (rest : List (List UInt8)) :
    findKey key (token :: rest) =
      if token = key then rest.head?.elim (.error .nullPointer) fun value => .ok (some value)
      else findKey key rest := by
  cases rest <;> rfl

/-- **The walk over the list finds what the pairs give.** -/
theorem findKey_eq_lookup_iff {key : CText} {pairs : List (CText × CText)} :
    findKey key.val (tokens pairs) = .ok ((pairs.lookup key).map Subtype.val) ↔
      Unmistaken key pairs := by
  induction pairs with
  | nil => exact iff_of_true rfl trivial
  | cons pair rest ih =>
    obtain ⟨k, v⟩ := pair
    have cut : tokens ((k, v) :: rest) = k.val :: v.val :: tokens rest := rfl
    rw [Unmistaken, cut, findKey_cons, findKey_cons, List.lookup_cons]
    dsimp only
    by_cases here : k = key
    · subst here
      simp
    · have differ : ¬ k.val = key.val := fun same => here (Subtype.ext same)
      have other : (key == k) = false := beq_eq_false_iff_ne.mpr (Ne.symm here)
      rw [if_neg differ, or_iff_right here, other]
      by_cases value : v = key
      · -- the value is taken for the key, and what is behind it for the value
        rw [if_pos (congrArg Subtype.val value), if_pos value]
        cases rest with
        | nil => simp [tokens]
        | cons next rest =>
          have front : tokens (next :: rest) = next.1.val :: next.2.val :: tokens rest := rfl
          simp only [front, List.head?_cons, Option.elim_some, Option.mem_def, Option.some.injEq]
          constructor
          · intro found
            refine ⟨next, rfl, ?_⟩
            obtain ⟨found', isFound, text⟩ :=
              Option.map_eq_some_iff.mp (Except.ok.inj found).symm
            rw [isFound, Subtype.ext text]
          · rintro ⟨_, rfl, found⟩
            simp [found]
      · have differ' : ¬ v.val = key.val := fun same => value (Subtype.ext same)
        rw [if_neg differ', if_neg value]
        exact ih

/-! ## The call -/

/-- **The call gives the value of the first pair of the key, or NULL, exactly when the reply is
not empty and no value is taken for the key.** -/
theorem deviceInfoKey_iff {w : World σ} {pairs : List (CText × CText)}
    (replied : Replied env w (infoReply pairs)) (key : CText) :
    ((afcGetDeviceInfoKey env (some key)).run w).1 =
        .ok (AFC_E_SUCCESS, (pairs.lookup key).map Subtype.val) ↔
      pairs ≠ [] ∧ Unmistaken key pairs := by
  obtain ⟨data, w', ran, holds⟩ := replied
  have info : (afcGetDeviceInfo env).run w =
      (.ok (AFC_E_SUCCESS, if pairs = [] then none else some (tokens pairs)), w') := by
    rw [afcGetDeviceInfo, run_bind ran]
    dsimp only
    rw [if_neg (by decide), makeStringsList_infoReply holds]
    rfl
  rw [afcGetDeviceInfoKey, run_bind info]
  dsimp only
  rw [if_neg (by decide), ← findKey_eq_lookup_iff]
  by_cases empty : pairs = []
  · rw [if_pos empty]
    refine iff_of_false (fun same => ?_) fun found => found.1 empty
    cases same
  · rw [if_neg empty, and_iff_right empty]
    rw [run_bind (show (deref (some (tokens pairs))).run w' = (.ok (tokens pairs), w') from rfl)]
    cases walk : findKey key.val (tokens pairs) with
    | error fault => exact iff_of_false (fun same => by cases same) fun same => by cases same
    | ok value =>
      constructor
      · intro same
        cases same
        rfl
      · intro same
        cases same
        rfl

/-! ## Recorded replies -/

/-- The reply `number` that carries the bytes. -/
def devinfoReply (number : UInt64) (body : List UInt8) : List UInt8 :=
  (AFCPacket.mk AFC_MAGIC (40 + UInt64.ofNat body.length) (40 + UInt64.ofNat body.length) number
    AFC_OP_DATA).toLE ++ body

/-- The key `b` behind a pair whose value is `c`. -/
theorem second_key_found :
    ((afcGetDeviceInfoKey streamEnvironment (some (cText "b"))).run
        (afcClientNewFromConnection
          (devinfoReply 1 (infoReply [(cText "a", cText "c"), (cText "b", cText "d")])) 0)).1 =
      .ok (AFC_E_SUCCESS,
        ([(cText "a", cText "c"), (cText "b", cText "d")].lookup (cText "b")).map Subtype.val) := by
  refine (deviceInfoKey_iff streamEnvironment ?_ (cText "b")).mpr ⟨by simp, ?_⟩
  · exact ⟨_, _, rfl, by decide⟩
  · refine .inr ?_
    rw [if_neg (by decide)]
    exact .inl rfl

/-- The value of `a` is the text `b`: the key `b` gives `b`, the key of its own pair. -/
theorem value_taken_for_key :
    ((afcGetDeviceInfoKey streamEnvironment (some (cText "b"))).run
        (afcClientNewFromConnection
          (devinfoReply 1 (infoReply [(cText "a", cText "b"), (cText "b", cText "d")])) 0)).1 ≠
      .ok (AFC_E_SUCCESS,
        ([(cText "a", cText "b"), (cText "b", cText "d")].lookup (cText "b")).map Subtype.val) := by
  decide

end Irestore.Afc
