/-
# Img3.Order — which images keep their elements when they are signed

The slots forget the order of the elements, and all but one of a kind (two KBAGs).
What is kept is written in one order, the unknown (SALT) element behind the CERT.

* `kept_append_behind` — elements in the order of the slots, none too many, are all
  kept, and in their order.
* `preserves_iff` — signing keeps the other elements, their order and their side of
  the SHSH exactly for those images, when no SALT stands before an SHSH and the
  result is below `2^31` bytes.
-/
import Irestore.Img3.Signing

namespace Irestore.Img3

open Irestore.Library.Bytes Irestore.Library.CMemory Irestore.Library.Records

set_option autoImplicit false

/-! ## Kinds -/

/-- The kind of an element's signature. -/
def Element.kind (e : Element) : Option Slot := slotOf e.signature

/-- The place of a kind among the slots. -/
def Slot.rank : Slot → Nat
  | .type => 0
  | .data => 1
  | .vers => 2
  | .sepo => 3
  | .bord => 4
  | .kbag => 5
  | .unkn => 6
  | .ecid => 7
  | .shsh => 8
  | .cert => 9

theorem Slot.rank_injective {a b : Slot} (same : a.rank = b.rank) : a = b := by
  cases a <;> cases b <;> first
    | rfl
    | cases same

theorem Slot.rank_lt (kind : Slot) : kind.rank < 10 := by cases kind <;> decide

def Element.rank (e : Element) : Nat := (e.kind.map Slot.rank).getD 10

theorem Element.rank_eq_iff {e : Element} {kind : Slot} :
    e.rank = kind.rank ↔ e.kind = some kind := by
  have bound := kind.rank_lt
  rw [rank]
  cases e.kind with
  | none => simp; omega
  | some other => exact ⟨fun same => congrArg some (Slot.rank_injective same), fun same => by
      cases same
      rfl⟩

/-- The kinds the TSS server replaces. -/
def Slot.signs : Slot → Bool
  | .ecid | .shsh | .cert => true
  | _ => false

theorem isSignature_eq (e : Element) : e.isSignature = e.kind.any Slot.signs := by
  unfold Element.isSignature Element.kind slotOf
  generalize e.signature = s
  by_cases ecid : s = kEcidElement
  · subst ecid
    rfl
  by_cases shsh : s = kShshElement
  · subst shsh
    rfl
  by_cases cert : s = kCertElement
  · subst cert
    rfl
  rw [beq_false_of_ne ecid, beq_false_of_ne shsh, beq_false_of_ne cert, if_neg ecid, if_neg shsh,
    if_neg cert]
  repeat' split
  all_goals rfl

/-- The elements of an image that signing is to leave alone. -/
def others (es : List Element) : List Element := es.filter fun e => !e.isSignature

theorem others_append (es es' : List Element) : others (es ++ es') = others es ++ others es' :=
  List.filter_append ..

theorem ofKind_others {kind : Slot} (other : kind.signs = false) (es : List Element) :
    ofKind kind (others es) = ofKind kind es := by
  rw [ofKind, others, List.filter_filter]
  refine List.filter_congr fun e _ => ?_
  rw [isSignature_eq]
  by_cases same : e.kind = some kind
  · have same' : slotOf e.signature = some kind := same
    simp [same, same', other]
  · have differ : ¬ slotOf e.signature = some kind := same
    simp [differ]

/-! ## Kept elements -/

/-- The kinds in the order in which the slots are written, without the signature. -/
def slotOrder : List Slot := [.type, .data, .vers, .sepo, .bord, .kbag, .kbag, .unkn]

theorem getLast?_toList_of_le_one {α : Type} : ∀ {xs : List α}, xs.length ≤ 1 →
    xs.getLast?.toList = xs
  | [], _ => rfl
  | [_], _ => rfl

theorem head?_append_getLast? {α : Type} : ∀ {xs : List α}, xs.length ≤ 2 →
    xs.head?.toList ++ xs.tail.getLast?.toList = xs
  | [], _ => rfl
  | [_], _ => rfl
  | [_, _], _ => rfl

theorem filterMap_id_cons {α : Type} (x : Option α) (xs : List (Option α)) :
    (x :: xs).filterMap id = x.toList ++ xs.filterMap id := by
  cases x <;> rfl

/-- **Elements in the order of the slots, none too many, are all kept, in order.** -/
theorem kept_append_behind {es : List Element}
    (ordered : ((others es).map Element.kind).Sublist (slotOrder.map some)) :
    kept es ++ behind es = others es := by
  have ranks : ((others es).map Element.rank).Sublist (slotOrder.map Slot.rank) := by
    have ranked := ordered.map fun kind => (kind.map Slot.rank).getD 10
    rw [List.map_map, List.map_map] at ranked
    exact ranked
  have sorted : (others es).Pairwise fun a b => a.rank ≤ b.rank := by
    rw [← List.pairwise_map]
    exact List.Pairwise.sublist ranks (by decide)
  have low : ∀ e ∈ others es, e.rank < 7 := by
    intro e member
    have bounded : ∀ r ∈ slotOrder.map Slot.rank, r < 7 := by decide
    exact bounded _ (ranks.subset (List.mem_map_of_mem member))
  have whole := eq_flatMap_buckets sorted 7
  rw [List.filter_eq_self.mpr fun e member => decide_eq_true (low e member)] at whole
  -- the bucket of a rank is the elements of its kind
  have bucket : ∀ kind : Slot, kind.signs = false →
      (others es).filter (fun e => e.rank = kind.rank) = ofKind kind es := by
    intro kind other
    rw [← ofKind_others other, ofKind]
    exact List.filter_congr fun e _ => decide_eq_decide.mpr Element.rank_eq_iff
  have few : ∀ kind : Slot, kind.signs = false →
      (ofKind kind es).length ≤ (slotOrder.map some).count (some kind) := by
    intro kind other
    refine Nat.le_trans (Nat.le_of_eq ?_) (ordered.count_le (some kind))
    rw [← ofKind_others other, ofKind, List.count_eq_countP, List.countP_map,
      List.countP_eq_length_filter]
    exact congrArg List.length (List.filter_congr fun e _ => (beq_eq_decide _ _).symm)
  have pieces : kept es ++ behind es = (List.range 7).flatMap fun r =>
      (others es).filter fun e => e.rank = r := by
    have seven : List.range 7 = [Slot.type.rank, Slot.data.rank, Slot.vers.rank, Slot.sepo.rank,
      Slot.bord.rank, Slot.kbag.rank, Slot.unkn.rank] := rfl
    rw [seven]
    simp only [List.flatMap_cons, List.flatMap_nil, kept, behind, filterMap_id_cons]
    rw [bucket .type rfl, bucket .data rfl, bucket .vers rfl, bucket .sepo rfl, bucket .bord rfl,
      bucket .kbag rfl, bucket .unkn rfl, getLast?_toList_of_le_one (few .type rfl),
      getLast?_toList_of_le_one (few .data rfl), getLast?_toList_of_le_one (few .vers rfl),
      getLast?_toList_of_le_one (few .sepo rfl), getLast?_toList_of_le_one (few .bord rfl),
      getLast?_toList_of_le_one (few .unkn rfl)]
    have kbags := head?_append_getLast? (few .kbag rfl)
    simp only [List.filterMap_nil, List.append_nil, List.append_assoc]
    rw [← List.append_assoc (ofKind .kbag es).head?.toList, kbags]
  rw [pieces, whole]

/-! ## What is kept, whatever the image -/

theorem mem_ofKind {kind : Slot} {es : List Element} {e : Element} (member : e ∈ ofKind kind es) :
    e.kind = some kind :=
  of_decide_eq_true (List.mem_filter.mp member).2

/-- The kinds of optional elements are among the names they stand under. -/
theorem kinds_sublist : ∀ {found : List (Option Element)} {names : List Slot},
    List.Forall₂ (fun e kind => ∀ a ∈ e, a.kind = some kind) found names →
      ((found.filterMap id).map Element.kind).Sublist (names.map some)
  | [], [], .nil => List.Sublist.slnil
  | none :: _, _ :: _, .cons _ rest => (kinds_sublist rest).cons _
  | some a :: _, kind :: _, .cons here rest => by
      have named := here a rfl
      simp only [List.filterMap_cons, id_eq, List.map_cons, named]
      exact (kinds_sublist rest).cons_cons _

theorem mem_getLast? {kind : Slot} {es : List Element} :
    ∀ a ∈ (ofKind kind es).getLast?, a.kind = some kind :=
  fun _ found => mem_ofKind (List.mem_of_getLast? found)

theorem kept_kinds (es : List Element) : ((kept es).map Element.kind).Sublist
    ([.type, .data, .vers, .sepo, .bord, .kbag, .kbag].map some) := by
  refine kinds_sublist (.cons mem_getLast? (.cons mem_getLast? (.cons mem_getLast?
    (.cons mem_getLast? (.cons mem_getLast? (.cons ?_ (.cons ?_ .nil)))))))
  · exact fun a found => mem_ofKind (List.mem_of_head? found)
  · exact fun a found => mem_ofKind (List.mem_of_mem_tail (List.mem_of_getLast? found))

theorem behind_kinds (es : List Element) :
    ((behind es).map Element.kind).Sublist [some .unkn] := by
  have named := @kinds_sublist _ [.unkn] (.cons (@mem_getLast? .unkn es) .nil)
  rw [filterMap_id_cons, List.filterMap_nil, List.append_nil] at named
  exact named

theorem kind_of_mem_kept {es : List Element} {e : Element} (member : e ∈ kept es) :
    ∃ kind, e.kind = some kind ∧ kind.signs = false ∧ kind ≠ .unkn := by
  have named := (kept_kinds es).subset (List.mem_map_of_mem member)
  obtain ⟨kind, within, isKind⟩ := List.mem_map.mp named
  have all : ∀ kind ∈ [Slot.type, .data, .vers, .sepo, .bord, .kbag, .kbag],
      kind.signs = false ∧ kind ≠ .unkn := by decide
  exact ⟨kind, isKind.symm, all kind within⟩

theorem kind_of_mem_behind {es : List Element} {e : Element} (member : e ∈ behind es) :
    e.kind = some .unkn := by
  simpa using (behind_kinds es).subset (List.mem_map_of_mem member)

theorem others_eq_self {es : List Element} (other : ∀ e ∈ es, e.isSignature = false) :
    others es = es :=
  List.filter_eq_self.mpr fun e member => by rw [other e member, Bool.not_false]

theorem kept_not_signature {es : List Element} : ∀ e ∈ kept es, e.isSignature = false := by
  intro e member
  obtain ⟨kind, isKind, other, -⟩ := kind_of_mem_kept member
  rw [isSignature_eq, isKind, Option.any_some, other]

theorem behind_not_signature {es : List Element} : ∀ e ∈ behind es, e.isSignature = false := by
  intro e member
  rw [isSignature_eq, kind_of_mem_behind member]
  rfl

namespace Blob

variable (blob : Blob)

theorem ecid_kind : blob.ecid.kind = some .ecid := by
  rw [Element.kind, blob.ecid_signature]
  rfl

theorem shsh_kind : blob.shsh.kind = some .shsh := by
  rw [Element.kind, blob.shsh_signature]
  rfl

theorem cert_kind : blob.cert.kind = some .cert := by
  rw [Element.kind, blob.cert_signature]
  rfl

theorem isSignature : ∀ e ∈ blob.elements, e.isSignature = true := by
  intro e member
  simp only [elements, List.mem_cons, List.not_mem_nil, or_false] at member
  rw [isSignature_eq]
  rcases member with rfl | rfl | rfl
  · rw [blob.ecid_kind]
    rfl
  · rw [blob.shsh_kind]
    rfl
  · rw [blob.cert_kind]
    rfl

end Blob

theorem others_signed (es : List Element) (blob : Blob) :
    others (signed es blob) = kept es ++ behind es := by
  have sign := blob.isSignature
  simp only [Blob.elements, List.mem_cons, List.not_mem_nil, or_false, forall_eq_or_imp,
    forall_eq] at sign
  obtain ⟨ecid, shsh, cert⟩ := sign
  rw [signed, others_append, others_append, others_append, others_eq_self kept_not_signature,
    others_eq_self behind_not_signature]
  simp [others, ecid, shsh, cert]

theorem signatures_signed (es : List Element) (blob : Blob) :
    (signed es blob).filter Element.isSignature = blob.elements := by
  have none {es : List Element} (other : ∀ e ∈ es, e.isSignature = false) :
      es.filter Element.isSignature = [] :=
    List.filter_eq_nil_iff.mpr fun e member => by simp [other e member]
  have sign := blob.isSignature
  simp only [Blob.elements, List.mem_cons, List.not_mem_nil, or_false, forall_eq_or_imp,
    forall_eq] at sign
  obtain ⟨ecid, shsh, cert⟩ := sign
  rw [signed, List.filter_append, List.filter_append, List.filter_append, none kept_not_signature,
    none behind_not_signature]
  simp [Blob.elements, ecid, shsh, cert]

/-! ## Signing preserves an image -/

/-- The bytes are those of an image with the other elements in their order, none of
them moved behind the SHSH, and with exactly the elements of the blob. -/
def Preserves (image : Image) (blob : Blob) (out : List UInt8) : Prop :=
  ∃ front back : List Element,
    out.drop 20 = (front ++ blob.shsh :: back).flatMap Element.bytes ∧
    others (front ++ blob.shsh :: back) = others image.elements ∧
    ((front ++ blob.shsh :: back).filter Element.isSignature).Perm blob.elements ∧
    ∀ before shsh after, image.elements = before ++ shsh :: after → shsh.kind = some .shsh →
      others before <+: others front

/-- The other elements stand in the order of the slots, and no more than there are. -/
def Ordered (image : Image) : Prop :=
  ((others image.elements).map Element.kind).Sublist (slotOrder.map some)

/-- No unknown (SALT) element before an SHSH. -/
def SaltBehind (image : Image) : Prop :=
  ∀ before shsh after, image.elements = before ++ shsh :: after → shsh.kind = some .shsh →
    ∀ e ∈ before, e.kind ≠ some .unkn

/-- The signed elements split at the SHSH in one way only. -/
theorem signed_split {es front back : List Element} {blob : Blob}
    (same : front ++ blob.shsh :: back = signed es blob) :
    front = kept es ++ [blob.ecid] ∧ back = blob.cert :: behind es := by
  have differ : ∀ e ∈ kept es ++ [blob.ecid], e ≠ blob.shsh := by
    rintro e member rfl
    rcases List.mem_append.mp member with inside | isEcid
    · have other := kept_not_signature _ inside
      rw [blob.isSignature _ (by simp [Blob.elements])] at other
      cases other
    · have kinds := blob.ecid_kind
      rw [← List.mem_singleton.mp isEcid, blob.shsh_kind] at kinds
      cases kinds
  have differ' : ∀ e ∈ blob.cert :: behind es, e ≠ blob.shsh := by
    rintro e member rfl
    rcases List.mem_cons.mp member with isCert | inside
    · have kinds := blob.cert_kind
      rw [← isCert, blob.shsh_kind] at kinds
      cases kinds
    · have kinds := kind_of_mem_behind inside
      rw [blob.shsh_kind] at kinds
      cases kinds
  obtain ⟨fronts, -, backs⟩ := (List.append_cons_inj_of_notMem
    (fun member => differ _ member rfl) fun member => differ' _ member rfl).mp same.symm
  exact ⟨fronts.symm, backs.symm⟩

/-- What signing preserves is in order, and no SALT stands before its SHSH. -/
theorem ordered_of_preserves {image : Image} {blob : Blob} {out : List UInt8}
    (written : out.drop 20 = (signed image.elements blob).flatMap Element.bytes)
    (preserves : Preserves image blob out) : Ordered image ∧ SaltBehind image := by
  obtain ⟨front, back, bytes, same, -, sides⟩ := preserves
  have split := elements_injective (bytes.symm.trans written)
  rw [split, others_signed] at same
  refine ⟨?_, fun before shsh after input isShsh e member isSalt => ?_⟩
  · rw [Ordered, ← same, List.map_append]
    exact (kept_kinds image.elements).append (behind_kinds image.elements)
  · have within : e ∈ others before := by
      refine List.mem_filter.mpr ⟨member, ?_⟩
      rw [isSignature_eq, isSalt]
      rfl
    have here := (sides before shsh after input isShsh).subset within
    rw [(signed_split split).1] at here
    rcases List.mem_append.mp (List.mem_filter.mp here).1 with inside | isEcid
    · obtain ⟨kind, isKind, -, known⟩ := kind_of_mem_kept inside
      rw [isKind] at isSalt
      exact known (Option.some.inj isSalt)
    · rw [List.mem_singleton.mp isEcid, blob.ecid_kind] at isSalt
      cases isSalt

/-- Of what is kept, a beginning without unknown elements stands before the SHSH. -/
theorem prefix_kept {es before : List Element} (start : before <+: kept es ++ behind es)
    (known : ∀ e ∈ before, e.kind ≠ some .unkn) : before <+: kept es := by
  obtain ⟨rest, whole⟩ := start
  rcases List.append_eq_append_iff.mp whole with ⟨middle, inside, -⟩ | ⟨middle, longer, tail⟩
  · exact ⟨middle, inside.symm⟩
  · cases middle with
    | nil => exact ⟨[], by rw [longer]; simp⟩
    | cons e middle =>
      refine absurd (@kind_of_mem_behind es e ?_) (known e ?_)
      · rw [tail]
        simp
      · rw [longer]
        simp

theorem preserves_of_ordered {image : Image} {blob : Blob} {out : List UInt8}
    (written : out.drop 20 = (signed image.elements blob).flatMap Element.bytes)
    (ordered : Ordered image) (saltBehind : SaltBehind image) : Preserves image blob out := by
  have all := kept_append_behind ordered
  have split : kept image.elements ++ [blob.ecid] ++
      blob.shsh :: (blob.cert :: behind image.elements) = signed image.elements blob := rfl
  refine ⟨kept image.elements ++ [blob.ecid], blob.cert :: behind image.elements, ?_, ?_, ?_, ?_⟩
  · rw [split, written]
  · rw [split, others_signed, all]
  · rw [split, signatures_signed]
  · intro before shsh after input isShsh
    have start : others before <+: kept image.elements ++ behind image.elements := by
      rw [all, input, others_append]
      exact List.prefix_append _ _
    have inside := prefix_kept start fun e member =>
      saltBehind before shsh after input isShsh e (List.mem_filter.mp member).1
    rw [others_append, others_eq_self kept_not_signature]
    exact inside.trans (List.prefix_append _ _)

/-- **Signing an image preserves its other elements exactly when they are in the
order of the slots, no SALT stands before an SHSH and the result is below `2^31` bytes.** -/
theorem preserves_iff (image : Image) (blob : Blob) (unset : Nat) :
    (∃ out, img3Sign image.bytes blob.bytes unset = .ok (some out) ∧ Preserves image blob out) ↔
      Ordered image ∧ SaltBehind image ∧
        20 + sizeOfElements (others image.elements ++ blob.elements) < 2 ^ 31 := by
  have size (ordered : Ordered image) : sizeOfElements (signed image.elements blob) =
      sizeOfElements (others image.elements ++ blob.elements) := by
    rw [← kept_append_behind ordered]
    simp only [signed, Blob.elements, sizeOfElements_append, sizeOfElements_cons,
      sizeOfElements_nil]
    omega
  constructor
  · rintro ⟨out, written, preserves⟩
    obtain ⟨small, rfl⟩ := img3Sign_eq_some.mp written
    obtain ⟨ordered, saltBehind⟩ := ordered_of_preserves (imageBytes_drop ..) preserves
    exact ⟨ordered, saltBehind, size ordered ▸ small⟩
  · rintro ⟨ordered, saltBehind, small⟩
    exact ⟨_, img3Sign_eq_some.mpr ⟨size ordered ▸ small, rfl⟩,
      preserves_of_ordered (imageBytes_drop ..) ordered saltBehind⟩

/-! ## A recorded image -/

/-- The bytes of an element around its data. -/
def elementBytes (signature : Nat) (data : List UInt8) : List UInt8 :=
  le 4 signature ++ (le 4 (12 + data.length) ++ (le 4 data.length ++ data))

theorem length_elementBytes (signature : Nat) (data : List UInt8) :
    (elementBytes signature data).length = 12 + data.length := by
  simp only [elementBytes, List.length_append, length_le]
  omega

theorem header_le_elementBytes (signature : Nat) (data : List UInt8) :
    12 ≤ (elementBytes signature data).length := by
  rw [length_elementBytes]
  omega

theorem field_elementBytes (signature : Nat) {data : List UInt8}
    (small : 12 + data.length < 2 ^ 32) :
    field (elementBytes signature data) 4 = (elementBytes signature data).length := by
  have size : (elementBytes signature data).drop 4 =
      le 4 (12 + data.length) ++ (le 4 data.length ++ data) := by
    rw [elementBytes, List.drop_left' (length_le ..)]
  have taken := slice_of_drop size
  rw [length_le] at taken
  rw [field, taken, ofLE_le (by simpa using small), length_elementBytes]

/-- An element around its data. -/
def Element.ofData (signature : Nat) (data : List UInt8) (small : 12 + data.length < 2 ^ 32) :
    Element where
  bytes := elementBytes signature data
  header_le := header_le_elementBytes signature data
  delimited := field_elementBytes signature small

theorem no_data_small : 12 + ([] : List UInt8).length < 2 ^ 32 := by
  decide

/-- A blob with one byte of each signature and a 16-byte certificate. -/
def sampleBlob : Blob where
  ecid := .ofData kEcidElement [1] (by decide)
  shsh := .ofData kShshElement [2] (by decide)
  cert := .ofData kCertElement (List.replicate 16 3) (by decide)
  ecid_signature := by decide
  shsh_signature := by decide
  cert_signature := by decide

/-- An image with the elements of `batterycharging0.s5l8920x.img3`, in their order. -/
def batterycharging0 : Image where
  header := le 4 kImg3Container ++ (le 4 116 ++ List.replicate 12 0)
  elements :=
    [.ofData kTypeElement [] no_data_small, .ofData kDataElement [] no_data_small,
      .ofData kVersElement [] no_data_small, .ofData kSepoElement [] no_data_small,
      .ofData kKbagElement [] no_data_small, .ofData kUnknElement [] no_data_small,
      .ofData kShshElement [] no_data_small, .ofData kCertElement [] no_data_small]
  header_length := by decide
  container := by decide
  known := by decide
  small := by decide

theorem batterycharging0_salt : ¬ SaltBehind batterycharging0 := fun saltBehind =>
  saltBehind (batterycharging0.elements.take 6) _ (batterycharging0.elements.drop 7) rfl (by decide)
    (.ofData kUnknElement [] no_data_small) (by simp [batterycharging0]) (by decide)

/-- Its SALT element is moved behind the signature. -/
theorem batterycharging0_not_preserved :
    ¬ ∃ out, img3Sign batterycharging0.bytes sampleBlob.bytes 0 = .ok (some out) ∧
      Preserves batterycharging0 sampleBlob out := by
  rintro ⟨out, written, preserves⟩
  obtain ⟨-, rfl⟩ := img3Sign_eq_some.mp written
  exact batterycharging0_salt (ordered_of_preserves (imageBytes_drop ..) preserves).2

end Irestore.Img3
