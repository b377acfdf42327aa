/-
# Service.Exchange — binary messages from one end of a connection to the other

`internal_plist_send` sends the length of a message and the message, in two sends; it does
not look at their codes, but at how much they accepted.  `internal_plist_receive_timeout`
reads the stream of them.

* `send_success_iff` — a send succeeds exactly with its whole frame on the connection, of a
  length an `int` holds.
* `receivePlists_frames` — what is received of a row of frames, one after another.
* `exchange_iff` — which messages come back at the other end.
-/
import Irestore.Plist.BinaryRoundTrip
import Irestore.Service.PropertyList

namespace Irestore.Service

open Irestore.Library Irestore.Library.Bytes Irestore.Library.CMemory Irestore.Plist

set_option autoImplicit false

/-! ## Sending -/

/-- The sending end: what is on the connection, and how much each send to come accepts; a
send that fails accepts nothing. -/
structure Wire where
  sent : List UInt8
  accepts : Nat → Nat

/-- `idevice_connection_send`: `*sent_bytes`, and the connection after it. -/
def Wire.send (wire : Wire) (data : List UInt8) : Nat × Wire :=
  let accepted := min data.length (wire.accepts 0)
  (accepted, ⟨wire.sent ++ data.take accepted, fun k => wire.accepts (k + 1)⟩)

/-- `internal_plist_send` for a message that is `content` when written. -/
def internalPlistSend (content : List UInt8) (connection : Option Wire) :
    PropertyListServiceError × Option Wire :=
  match connection with
  | none => (.invalidArg, none)
  | some wire =>
      if content.length = 0 then (.plistError, some wire)
      else
        let (bytes, wire) := wire.send (be 4 content.length)
        if bytes = 4 then
          let (bytes, wire) := wire.send content
          -- `bytes` is an `int`
          if 0 < bytes ∧ bytes < 2 ^ 31 ∧ bytes = content.length then (.success, some wire)
          else (.unknownError, some wire)
        else (.unknownError, some wire)

/-- The length of a message and the message. -/
def frame (content : List UInt8) : List UInt8 := be 4 content.length ++ content

@[simp] theorem length_frame (content : List UInt8) :
    (frame content).length = 4 + content.length := by
  rw [frame, List.length_append, length_be]

theorem sent_send (wire : Wire) (data : List UInt8) :
    ∃ part, part <+: data ∧ (wire.send data).2.sent = wire.sent ++ part ∧
      (wire.send data).1 = part.length := by
  refine ⟨data.take (min data.length (wire.accepts 0)), List.take_prefix _ _, rfl, ?_⟩
  rw [List.length_take]
  show min data.length (wire.accepts 0) = _
  omega

/-- **A send puts a front of its frame on the connection, and succeeds exactly with all of
one whose length an `int` holds.** -/
theorem send_success_iff {content : List UInt8} (filled : content ≠ []) (wire : Wire) :
    ∃ code part after, internalPlistSend content (some wire) = (code, some after) ∧
      after.sent = wire.sent ++ part ∧ part <+: frame content ∧
        (code = .success ↔ part = frame content ∧ content.length < 2 ^ 31) := by
  obtain ⟨head, headFront, headSent, headCount⟩ := sent_send wire (be 4 content.length)
  obtain ⟨body, bodyFront, bodySent, bodyCount⟩ :=
    sent_send (wire.send (be 4 content.length)).2 content
  have longHead := headFront.length_le
  rw [length_be] at longHead
  have positive : 0 < content.length := List.length_pos_iff.mpr filled
  rw [internalPlistSend]
  dsimp only
  rw [if_neg positive.ne']
  by_cases whole : (wire.send (be 4 content.length)).1 = 4
  · rw [if_pos whole]
    have isHead : head = be 4 content.length :=
      headFront.eq_of_length (by rw [← headCount, whole, length_be])
    have split : frame content = head ++ content := by rw [isHead, frame]
    refine ⟨_, head ++ body, _, (apply_ite (fun code => (code, some _)) _ _ _).symm, ?_, ?_, ?_⟩
    · rw [bodySent, headSent, List.append_assoc]
    · rw [split]
      exact (List.prefix_append_right_inj head).mpr bodyFront
    · rw [split, List.append_right_inj, bodyCount]
      constructor
      · intro success
        split_ifs at success with all
        exact ⟨bodyFront.eq_of_length all.2.2, all.2.2 ▸ all.2.1⟩
      · rintro ⟨rfl, small⟩
        rw [if_pos ⟨positive, small, rfl⟩]
  · rw [if_neg whole]
    refine ⟨_, head, _, rfl, headSent, headFront.trans (List.prefix_append _ _), ?_⟩
    refine iff_of_false PropertyListServiceError.noConfusion ?_
    rintro ⟨rfl, -⟩
    rw [length_frame] at longHead
    omega

/-! ## Receiving one message after another -/

variable {α : Type}

/-- Where `receiveContent` leaves the connection. -/
def contentRest (transport : Transport) (wanted : Nat) : Transport :=
  if wanted = 0 then transport
  else
    let (data, rest) := transport.receive wanted
    if data.length = 0 then rest else contentRest rest (wanted - data.length)
termination_by wanted

/-- Where `internal_plist_receive_timeout` leaves the connection. -/
def connectionAfter (transport : Transport) : Transport :=
  let (header, rest) := transport.receive 4
  if header.length < 4 then rest
  else if ofBE header < 2 ^ 24 then contentRest rest (ofBE header)
  else rest

/-- So many receives, one after another. -/
def receivePlists (decoders : Decoders α) (garbage : Nat → UInt8) :
    Nat → Transport → Checked (List (Received α))
  | 0, _ => return []
  | n + 1, transport => do
      let received ← internalPlistReceiveTimeout decoders garbage (some transport)
      let others ← receivePlists decoders garbage n (connectionAfter transport)
      return received :: others

/-- No receive hands out fewer than four bytes when there are as many. -/
def Wide (transport : Transport) : Prop := ∀ k, 3 ≤ transport.sizes k

theorem wide_receive {transport : Transport} (wide : Wide transport) (len : Nat) :
    Wide (transport.receive len).2 := fun k => wide (k + 1)

theorem contentRest_wide (wanted : Nat) : ∀ {transport : Transport},
    Wide transport → Wide (contentRest transport wanted) := by
  induction wanted using Nat.strong_induction_on with
  | h wanted ih =>
    intro transport wide
    rw [contentRest]
    split
    · exact wide
    rename_i nonzero
    show Wide (if (transport.receive wanted).1.length = 0 then
      (transport.receive wanted).2 else contentRest (transport.receive wanted).2
        (wanted - (transport.receive wanted).1.length))
    split
    · exact wide_receive wide wanted
    · rename_i some'
      exact ih _ (by omega) (wide_receive wide wanted)

theorem contentRest_stream (wanted : Nat) : ∀ transport : Transport,
    (contentRest transport wanted).stream = transport.stream.drop wanted := by
  induction wanted using Nat.strong_induction_on with
  | h wanted ih =>
    intro transport
    rw [contentRest]
    split
    · rename_i zero
      rw [zero, List.drop_zero]
    rename_i nonzero
    have asked : 0 < wanted := Nat.pos_of_ne_zero nonzero
    have length := transport.length_receive wanted
    show (if (transport.receive wanted).1.length = 0 then (transport.receive wanted).2 else
      contentRest (transport.receive wanted).2
        (wanted - (transport.receive wanted).1.length)).stream = _
    have rest : (transport.receive wanted).2.stream =
      transport.stream.drop (transport.receive wanted).1.length := rfl
    split
    · rename_i empty
      have ended := (Transport.receive_eq_nil_iff asked).mp (List.length_eq_zero_iff.mp empty)
      rw [rest, ended, List.drop_nil, List.drop_nil]
    · have short : (transport.receive wanted).1.length ≤ wanted := by
        rw [length]
        omega
      rw [ih _ (by omega), rest, List.drop_drop, Nat.add_sub_cancel' short]

theorem connectionAfter_wide {transport : Transport} (wide : Wide transport) :
    Wide (connectionAfter transport) := by
  show Wide (if (transport.receive 4).1.length < 4 then (transport.receive 4).2
    else if ofBE (transport.receive 4).1 < 2 ^ 24 then _ else (transport.receive 4).2)
  split
  · exact wide_receive wide 4
  · split
    · exact contentRest_wide _ (wide_receive wide 4)
    · exact wide_receive wide 4

/-- Each of so many receives is handed the four bytes of its header at once, when there are
as many; what comes behind a header may come in any pieces. -/
def HeadersWhole : Nat → Transport → Prop
  | 0, _ => True
  | n + 1, transport => 3 ≤ transport.sizes 0 ∧ HeadersWhole n (connectionAfter transport)

theorem Wide.headersWhole {transport : Transport} (wide : Wide transport) (n : Nat) :
    HeadersWhole n transport := by
  induction n generalizing transport with
  | zero => trivial
  | succ n ih => exact ⟨wide 0, ih (connectionAfter_wide wide)⟩

section Frame

variable {decoders : Decoders α} {garbage : Nat → UInt8} {transport : Transport}
  {content rest : List UInt8}

/-- The header of a frame that comes first. -/
theorem receive_frame (whole : 3 ≤ transport.sizes 0)
    (stream : transport.stream = frame content ++ rest) :
    (transport.receive 4).1 = be 4 content.length ∧
      (transport.receive 4).2.stream = content ++ rest := by
  have header : (transport.receive 4).1 = be 4 content.length := by
    rw [Transport.receive_of_le (by omega), stream, frame, List.append_assoc,
      List.take_left' (length_be _ _)]
  refine ⟨header, ?_⟩
  show transport.stream.drop (transport.receive 4).1.length = _
  rw [header, stream, frame, List.append_assoc, List.drop_left]

/-- A frame of less than 16 MiB is taken off the stream, and decoded. -/
theorem receive_small (whole : 3 ≤ transport.sizes 0)
    (stream : transport.stream = frame content ++ rest)
    (small : content.length < 2 ^ 24) :
    internalPlistReceiveTimeout decoders garbage (some transport) = decodeContent decoders content ∧
      (connectionAfter transport).stream = rest := by
  obtain ⟨header, after⟩ := receive_frame whole stream
  have announced : ofBE (be 4 content.length) = content.length :=
    ofBE_be (Nat.lt_trans small (by decide))
  constructor
  · show (if (transport.receive 4).1.length < 4 then _ else
      if ofBE (transport.receive 4).1 < 2 ^ 24 then decodeContent decoders (contentOf
        (receiveContent (transport.receive 4).2 (ofBE (transport.receive 4).1)) garbage
          (ofBE (transport.receive 4).1)) else _) = _
    rw [header, length_be, if_neg (lt_irrefl 4), announced, if_pos small, receiveContent_eq, after,
      List.take_left, contentOf_whole garbage rfl]
  · show (if (transport.receive 4).1.length < 4 then _ else
      if ofBE (transport.receive 4).1 < 2 ^ 24 then
        contentRest (transport.receive 4).2 (ofBE (transport.receive 4).1)
      else _ : Transport).stream = _
    rw [header, length_be, if_neg (lt_irrefl 4), announced, if_pos small, contentRest_stream, after,
      List.drop_left]

/-- A longer frame is refused. -/
theorem receive_huge (whole : 3 ≤ transport.sizes 0)
    (stream : transport.stream = frame content ++ rest)
    (huge : 2 ^ 24 ≤ content.length) (fits : content.length < 2 ^ 32) :
    internalPlistReceiveTimeout decoders garbage (some transport) = .ok ⟨.unknownError, none⟩ := by
  obtain ⟨header, -⟩ := receive_frame whole stream
  have announced : ofBE (be 4 content.length) = content.length := ofBE_be fits
  show (if (transport.receive 4).1.length < 4 then _ else
    if ofBE (transport.receive 4).1 < 2 ^ 24 then _ else _) = _
  rw [header, length_be, if_neg (lt_irrefl 4), announced, if_neg (not_lt.mpr huge)]
  rfl

end Frame

/-! ## Property lists, sent and received -/

/-- A property list in memory: its root and the nodes below it. -/
abbrev Message : Type := HeapNode × Siblings HeapNode

/-- The messages sent in binary, one after another. -/
def sendPlists (platform : Platform) (probing : RefProbing) : List Message → Option Wire →
    Checked (List PropertyListServiceError × Option Wire)
  | [], connection => return ([], connection)
  | message :: messages, connection => do
      let content ← plistToBin platform probing message.1 message.2
      let (code, connection) := internalPlistSend content connection
      let (codes, connection) ← sendPlists platform probing messages connection
      return (code :: codes, connection)

/-- The message is received as it was sent. -/
def Arrives (message : Message) (received : Received PlistPtr) : Prop :=
  received.err = .success ∧ ∃ decoded tree, received.plist = some decoded ∧
    decoded.tree = some tree ∧ heapTree message.1 message.2 = some tree

/-- What is sent of a message. -/
def Written (platform : Platform) (probing : RefProbing) (message : Message)
    (content : List UInt8) : Prop :=
  plistToBin platform probing message.1 message.2 = .ok content ∧ content.length < 2 ^ 31

variable {platform : Platform} {probing : RefProbing}

theorem sendPlists_frames : ∀ {messages : List Message} {wire after : Wire}
    {codes : List PropertyListServiceError},
    (∀ message ∈ messages, ∀ content,
      plistToBin platform probing message.1 message.2 = .ok content → content ≠ []) →
    sendPlists platform probing messages (some wire) = .ok (codes, some after) →
    (∀ code ∈ codes, code = .success) →
      ∃ contents, List.Forall₂ (Written platform probing) messages contents ∧
        after.sent = wire.sent ++ contents.flatMap frame
  | [], wire, after, codes, _, run, _ => by
      cases run
      exact ⟨[], .nil, (List.append_nil _).symm⟩
  | message :: messages, wire, after, codes, filled, run, successes => by
      obtain ⟨content, written, run⟩ := bind_eq_ok.mp run
      obtain ⟨code, part, between, sent, partSent, -, success⟩ :=
        send_success_iff (filled message List.mem_cons_self content written) wire
      rw [sent] at run
      obtain ⟨⟨others, last⟩, run, same⟩ := bind_eq_ok.mp run
      cases same
      obtain ⟨rfl, small⟩ := success.mp (successes code List.mem_cons_self)
      obtain ⟨contents, each, afterSent⟩ := sendPlists_frames
        (fun message member => filled message (List.mem_cons_of_mem _ member)) run
        (fun code member => successes code (List.mem_cons_of_mem _ member))
      refine ⟨content :: contents, .cons ⟨written, small⟩ each, ?_⟩
      rw [afterSent, partSent, List.flatMap_cons, List.append_assoc]

theorem magic_file (platform : Platform) (probing : RefProbing) (ser : Serialize) :
    magic <+: ser.file platform probing := by
  rw [Serialize.file, binaryFile]
  simp only [List.append_assoc]
  exact List.prefix_append _ _

/-- **A message of less than 16 MiB is received as it was sent exactly when its blobs are
told apart.** -/
theorem arrives_iff (documented : platform.Documented) {message : Message}
    (isPlist : IsPlist (rooted message.1 message.2)) (root : isKey message.1 = false)
    {content : List UInt8} (written : Written platform probing message content)
    (fromXml : List UInt8 → Checked (Option PlistPtr)) :
    (∃ received, decodeContent ⟨plistFromBin platform, fromXml⟩ content = .ok received ∧
      Arrives message received) ↔ Distinguished (rooted message.1 message.2) := by
  obtain ⟨ser, -, serialized, rfl⟩ := serialized_of_written documented isPlist written.1
  have small : (ser.file platform probing).length < 2 ^ 32 :=
    Nat.lt_trans written.2 (by decide)
  have front := magic_file platform probing ser
  have decoded : decode ⟨plistFromBin platform, fromXml⟩ (ser.file platform probing) =
      plistFromBin platform (ser.file platform probing) := if_pos front
  rw [← serialized.shared_iff, ← serialized.decode_iff small root,
    decodeContent_eq front.length_le, decoded]
  constructor
  · rintro ⟨received, run, success, plist, tree, isPlist, shown, same⟩
    obtain ⟨back, read, run⟩ := bind_eq_ok.mp run
    cases back with
    | none =>
      cases run
      cases success
    | some back =>
      cases run
      cases isPlist
      exact ⟨_, tree, read, shown, same⟩
  · rintro ⟨back, tree, read, shown, same⟩
    exact ⟨_, bind_eq_ok.mpr ⟨some back, read, rfl⟩, rfl, back, tree, rfl, shown, same⟩

/-- What is received of a row of frames. -/
theorem receivePlists_frames (documented : platform.Documented)
    (fromXml : List UInt8 → Checked (Option PlistPtr)) (garbage : Nat → UInt8)
    {messages : List Message} {contents : List (List UInt8)}
    (each : List.Forall₂ (Written platform probing) messages contents) :
    (∀ message ∈ messages, IsPlist (rooted message.1 message.2) ∧ isKey message.1 = false) →
    ∀ {transport : Transport} {rest : List UInt8}, HeadersWhole messages.length transport →
      transport.stream = contents.flatMap frame ++ rest →
        ((∃ received, receivePlists ⟨plistFromBin platform, fromXml⟩ garbage messages.length
            transport = .ok received ∧ List.Forall₂ Arrives messages received) ↔
          List.Forall₂ (fun message content => Distinguished (rooted message.1 message.2) ∧
            content.length < 2 ^ 24) messages contents) := by
  induction each with
  | nil =>
    intro _ transport rest _ _
    exact iff_of_true ⟨[], rfl, .nil⟩ .nil
  | @cons message content messages contents written _ ih =>
    intro lists transport rest whole stream
    rw [List.flatMap_cons, List.append_assoc] at stream
    obtain ⟨isPlist, root⟩ := lists message List.mem_cons_self
    have arrives := arrives_iff documented isPlist root written fromXml
    have others := @ih (fun message member => lists message (List.mem_cons_of_mem _ member))
      (connectionAfter transport) rest whole.2
    rw [List.forall₂_cons, List.length_cons, receivePlists]
    constructor
    · rintro ⟨received, run, all⟩
      obtain ⟨first, here, run⟩ := bind_eq_ok.mp run
      obtain ⟨later, there, same⟩ := bind_eq_ok.mp run
      cases same
      obtain ⟨isFirst, areLater⟩ := List.forall₂_cons.mp all
      -- a frame that is too long is not a success
      have small : content.length < 2 ^ 24 := by
        by_contra huge
        rw [receive_huge whole.1 stream (not_lt.mp huge)
          (Nat.lt_trans written.2 (by decide))] at here
        cases here
        cases isFirst.1
      obtain ⟨decodes, after⟩ := @receive_small _ ⟨plistFromBin platform, fromXml⟩ garbage _ _ _
        whole.1 stream small
      rw [decodes] at here
      exact ⟨⟨arrives.mp ⟨first, here, isFirst⟩, small⟩, (others after).mp ⟨later, there, areLater⟩⟩
    · rintro ⟨⟨distinguished, small⟩, areLater⟩
      obtain ⟨decodes, after⟩ := @receive_small _ ⟨plistFromBin platform, fromXml⟩ garbage _ _ _
        whole.1 stream small
      obtain ⟨first, here, isFirst⟩ := arrives.mpr distinguished
      obtain ⟨later, there, areLater⟩ := (others after).mpr areLater
      refine ⟨first :: later, ?_, .cons isFirst areLater⟩
      rw [decodes, here, ok_bind, there, ok_bind]
      rfl

/-- Which messages a row of them survives: its blobs are told apart, and it is short. -/
def Survives (platform : Platform) (probing : RefProbing) (message : Message) : Prop :=
  Distinguished (rooted message.1 message.2) ∧
    ∀ content, plistToBin platform probing message.1 message.2 = .ok content →
      content.length < 2 ^ 24

theorem survive_iff {messages : List Message} {contents : List (List UInt8)}
    (each : List.Forall₂ (Written platform probing) messages contents) :
    List.Forall₂ (fun message content => Distinguished (rooted message.1 message.2) ∧
        content.length < 2 ^ 24) messages contents ↔
      ∀ message ∈ messages, Survives platform probing message := by
  induction each with
  | nil => simp
  | @cons message content messages contents written _ ih =>
    rw [List.forall₂_cons, ih, List.forall_mem_cons]
    refine and_congr_left' (and_congr_right' ⟨fun small content' written' => ?_, fun small => ?_⟩)
    · cases written.1.symm.trans written'
      exact small
    · exact small content written.1

/-- **Messages whose sends all succeed come back in order at the other end, however the
stream is cut behind the headers, exactly when each has its blobs told apart and less than
16 MiB.** -/
theorem exchange_iff (documented : platform.Documented)
    (fromXml : List UInt8 → Checked (Option PlistPtr)) (garbage : Nat → UInt8)
    {messages : List Message}
    (lists : ∀ message ∈ messages, IsPlist (rooted message.1 message.2) ∧ isKey message.1 = false)
    {wire after : Wire} {codes : List PropertyListServiceError} (fresh : wire.sent = [])
    (run : sendPlists platform probing messages (some wire) = .ok (codes, some after))
    (successes : ∀ code ∈ codes, code = .success) {transport : Transport} {rest : List UInt8}
    (whole : HeadersWhole messages.length transport)
    (stream : transport.stream = after.sent ++ rest) :
    (∃ received, receivePlists ⟨plistFromBin platform, fromXml⟩ garbage messages.length
        transport = .ok received ∧ List.Forall₂ Arrives messages received) ↔
      ∀ message ∈ messages, Survives platform probing message := by
  have filled : ∀ message ∈ messages, ∀ content,
      plistToBin platform probing message.1 message.2 = .ok content → content ≠ [] := by
    rintro message member content written rfl
    obtain ⟨ser, -, -, file⟩ := serialized_of_written documented (lists message member).1 written
    have front := magic_file platform probing ser
    rw [← file] at front
    exact absurd front.length_le (by decide)
  obtain ⟨contents, each, sent⟩ := sendPlists_frames filled run successes
  rw [fresh, List.nil_append] at sent
  rw [sent] at stream
  rw [receivePlists_frames documented fromXml garbage each lists whole stream, survive_iff each]

/-- Two lists with blobs, sent over a connection that accepts all and received in pieces of
eight bytes. -/
def twoMessages : List Message :=
  [(blobDict, blobDictBelow [0x41] [0x42]), (blobDict, blobDictBelow [0x43] [0x44])]

def ample : Wire := ⟨[], fun _ => 2 ^ 24⟩

/-- The file of the list `{"k": [[u], [v]]}`. -/
def twoBlobs (u v : UInt8) : List UInt8 :=
  smallList [0xD1, 1, 2, 0x51, 0x6B, 0xA2, 3, 4, 0x41, u, 0xA0, 0x41, v, 0xA0] [8, 11, 13, 16, 19]

theorem twoMessages_written :
    plistToBin largePlatform (.insertion _ _ _) blobDict (blobDictBelow [0x41] [0x42]) =
        .ok (twoBlobs 0x41 0x42) ∧
      plistToBin largePlatform (.insertion _ _ _) blobDict (blobDictBelow [0x43] [0x44]) =
        .ok (twoBlobs 0x43 0x44) := by
  constructor <;> decide +kernel

theorem twoMessages_sent :
    sendPlists largePlatform (.insertion _ _ _) twoMessages (some ample) =
      .ok ([.success, .success],
        some ⟨frame (twoBlobs 0x41 0x42) ++ frame (twoBlobs 0x43 0x44), fun _ => 2 ^ 24⟩) := by
  obtain ⟨first, second⟩ := twoMessages_written
  refine bind_eq_ok.mpr ⟨_, first, bind_eq_ok.mpr ⟨([.success], _), ?_, rfl⟩⟩
  exact bind_eq_ok.mpr ⟨_, second, rfl⟩

theorem twoMessages_exchanged :
    ∃ received, receivePlists ⟨plistFromBin largePlatform, fun _ => .ok none⟩ (fun _ => 0) 2
        ⟨frame (twoBlobs 0x41 0x42) ++ frame (twoBlobs 0x43 0x44), fun _ => 7⟩ = .ok received ∧
      List.Forall₂ Arrives twoMessages received := by
  have lists : ∀ message ∈ twoMessages,
      IsPlist (rooted message.1 message.2) ∧ isKey message.1 = false := by
    intro message member
    simp only [twoMessages, List.mem_cons, List.not_mem_nil, or_false] at member
    rcases member with rfl | rfl <;> exact ⟨blobDict_isPlist _ _, rfl⟩
  have wide : Wide ⟨frame (twoBlobs 0x41 0x42) ++ frame (twoBlobs 0x43 0x44), fun _ => 7⟩ :=
    fun _ => by simp
  refine (exchange_iff largePlatform_documented _ _ lists rfl twoMessages_sent (by simp)
    (wide.headersWhole 2)
    (List.append_nil _).symm).mpr ?_
  obtain ⟨first, second⟩ := twoMessages_written
  intro message member
  simp only [twoMessages, List.mem_cons, List.not_mem_nil, or_false] at member
  rcases member with rfl | rfl
  · refine ⟨(@blobDict_toldApart [0x41] [0x42] rfl (by decide)).distinguished,
      fun content written => ?_⟩
    cases first.symm.trans written
    decide
  · refine ⟨(@blobDict_toldApart [0x43] [0x44] rfl (by decide)).distinguished,
      fun content written => ?_⟩
    cases second.symm.trans written
    decide

end Irestore.Service
