/-
# MobileBackup.Conversation — one answer for each request

The device waits for a status response behind most of its messages.  Which of them get one
depends on their shape alone; the data of files goes in front of it.

* `Answered` — the messages with a response, by name and items.
* `Quiet`, `Replies` — what a handler adds to the traffic.
* `serve_turn` — one message of each kind.
* `session_conversation` — the loop, over any connection and any files: each message is
  followed by its one response or by nothing, and the ending is that of the last one.
-/
import Irestore.MobileBackup.Session

namespace Irestore.MobileBackup

open Irestore.Library Irestore.Library.Program Irestore.Library.Bytes Irestore.Library.CMemory
  Irestore.Plist Irestore.DeviceLink

set_option autoImplicit false

/-! ## Conversations -/

/-- What the host takes a plist for. -/
def kindOf (message : PlistNode) : Option DlMessage :=
  match getMessage message with
  | .ok (some dlmsg) => dlMessage dlmsg
  | _ => none

/-- A message of this kind, with the items it takes to be answered. -/
def Answers (message : PlistNode) : DlMessage → Prop
  | .downloadFiles => 2 ≤ plistArrayGetSize message ∧ 0 < countOf (plistArrayGetItem message 1)
  | .uploadFiles => 4 ≤ plistArrayGetSize message
  | .contentsOfDirectory =>
      2 ≤ plistArrayGetSize message ∧ plistGetNodeType (plistArrayGetItem message 1) = .string
  | .createDirectory => 2 ≤ plistArrayGetSize message
  | .moveFiles | .removeFiles | .copyItem => True
  | .disconnect | .processMessage => False

def Answered (message : PlistNode) : Prop :=
  ∃ kind, kindOf message = some kind ∧ Answers message kind

/-- File data, then one status response. -/
def Reply (replies : List Traffic) : Prop :=
  ∃ (raws : List (List UInt8)) (plist : PlistNode), replies = raws.map .raw ++ [.response plist]

/-- A message and what is said behind it. -/
structure Turn (message : PlistNode) (replies : List Traffic) : Prop where
  answered : Answered message → Reply replies
  ignored : ¬ Answered message → replies = []

/-- Turn after turn. -/
inductive Conversation : List Traffic → Prop where
  | nil : Conversation []
  | turn {traffic replies : List Traffic} {message : PlistNode} (before : Conversation traffic)
      (turn : Turn message replies) : Conversation (traffic ++ .received message :: replies)

/-- A conversation that stops within a turn. -/
def Interrupted (traffic : List Traffic) : Prop :=
  ∃ before message, Conversation before ∧
    ∃ raws : List (List UInt8), traffic = before ++ .received message :: raws.map .raw

/-- The message makes the host leave the loop. -/
def Concludes (message : PlistNode) : Prop :=
  kindOf message = some .disconnect ∨ kindOf message = some .processMessage

/-- How it leaves it. -/
def Leaves (message : PlistNode) (ending : Ending) : Prop :=
  (kindOf message = some .disconnect ∧ ending = .disconnected) ∨
    (kindOf message = some .processMessage ∧ processed message = .ok ending)

/-- No message so far does. -/
def Open (traffic : List Traffic) : Prop :=
  ∀ message, .received message ∈ traffic → ¬ Concludes message

/-- The loop goes on or was left by a signal with no such message, and otherwise by the last
message, the only final one. -/
def Ended (traffic : List Traffic) : Option Ending → Prop
  | none | some .quit => Open traffic
  | some ending => ∃ before message, traffic = before ++ [.received message] ∧ Open before ∧
      Leaves message ending

theorem Leaves.ne_quit {message : PlistNode} {ending : Ending} (leaves : Leaves message ending) :
    ending ≠ .quit := by
  rintro rfl
  rcases leaves with ⟨-, other⟩ | ⟨-, read⟩
  · cases other
  · obtain ⟨code, -, read⟩ := bind_eq_ok.mp read
    obtain ⟨description, -, read⟩ := bind_eq_ok.mp read
    obtain ⟨content, -, read⟩ := bind_eq_ok.mp read
    cases read

/-! ## What handlers add -/

section Handlers

variable {Disk α β : Type} {system : System Disk} {traffic : List Traffic}

/-- Nothing but file data was added to this traffic. -/
def AddedRaw (traffic : List Traffic) (host : Host Disk) : Prop :=
  ∃ raws : List (List UInt8), host.traffic = traffic ++ raws.map .raw

/-- A reply was added to it. -/
def AddedReply (traffic : List Traffic) (host : Host Disk) : Prop :=
  ∃ replies, Reply replies ∧ host.traffic = traffic ++ replies

/-- No response is sent. -/
def Quiet (program : Program (Host Disk) α) : Prop := ∀ traffic, Keeps (AddedRaw traffic) program

/-- A response is sent, behind whatever else. -/
def Replies (program : Program (Host Disk) α) : Prop :=
  ∀ traffic, Ensures (AddedRaw traffic) program (fun _ => AddedReply traffic) (AddedRaw traffic)

theorem quiet_pure (a : α) : Quiet (pure a : Program (Host Disk) α) := fun _ => keeps_pure a

theorem quiet_lift (run : Checked α) : Quiet (Program.lift run : Program (Host Disk) α) :=
  fun _ => keeps_lift run

theorem quiet_bind {first : Program (Host Disk) α} {next : α → Program (Host Disk) β}
    (run : Quiet first) (rest : ∀ a, Quiet (next a)) : Quiet (first >>= next) :=
  fun traffic => keeps_bind (run traffic) fun a => rest a traffic

theorem quiet_ite {condition : Prop} [Decidable condition] {yes no : Program (Host Disk) α}
    (left : Quiet yes) (right : Quiet no) : Quiet (if condition then yes else no) :=
  fun traffic => keeps_ite (left traffic) (right traffic)

theorem quiet_modify {change : Host Disk → Host Disk}
    (same : ∀ host, (change host).traffic = host.traffic) : Quiet (Program.modify change) :=
  fun traffic => ensures_modify fun host added => by rwa [AddedRaw, same]

theorem quiet_onDisk (call : Disk → Option Errno × Disk) : Quiet (onDisk call) :=
  fun _ => keeps_bind keeps_get fun _ =>
    keeps_bind (ensures_modify fun _ added => added) fun _ => keeps_pure _

theorem replies_bind {first : Program (Host Disk) α} {next : α → Program (Host Disk) β}
    (run : Quiet first) (rest : ∀ a, Replies (next a)) : Replies (first >>= next) :=
  fun traffic => ensures_bind (run traffic) fun a => rest a traffic

/-- What follows a response neither sends nor fails. -/
theorem replies_then {first : Program (Host Disk) α} {next : α → Program (Host Disk) β}
    (run : Replies first)
    (rest : ∀ a host, ∃ b host', (next a).run host = (.ok b, host') ∧
      host'.traffic = host.traffic) : Replies (first >>= next) :=
  fun traffic => ensures_bind (run traffic) fun a => ensures_of_run fun host replied => by
    obtain ⟨b, host', ran, same⟩ := rest a host
    exact ⟨b, host', ran, by rwa [AddedReply, same]⟩

theorem replies_send (statusCode : Int) (status1 : Option CText) (status2 : Option PlistNode) :
    Replies (mobilebackup2SendStatusResponse statusCode status1 status2 :
      Program (Host Disk) Unit) :=
  replies_bind (quiet_lift _) fun plist traffic => ensures_modify fun host added => by
    obtain ⟨raws, added⟩ := added
    refine ⟨_, ⟨raws, plist, rfl⟩, ?_⟩
    dsimp only
    rw [added, List.append_assoc]

/-! ## The handlers -/

theorem replies_sendFiles {message : PlistNode} (isArray : message.1.type = .array)
    (answers : Answers message .downloadFiles) : Replies (mb2HandleSendFiles system message) := by
  obtain ⟨long, files⟩ := answers
  have shape : ¬ (plistGetNodeType (some message) ≠ .array ∨ plistArrayGetSize message < 2) :=
    not_or.mpr ⟨not_not.mpr isArray, by omega⟩
  rw [mb2HandleSendFiles, if_neg shape]
  cases item : plistArrayGetItem message 1 with
  | none =>
    rw [item] at files
    exact absurd files (Nat.lt_irrefl 0)
  | some node =>
    rw [item] at files
    have counted : 0 < plistArrayGetSize node := files
    dsimp only
    rw [if_neg (by omega)]
    refine replies_bind ?_ fun errplist => ?_
    · refine fun traffic => keeps_of_state fun host added => ?_
      obtain ⟨raws, added⟩ := added
      obtain ⟨data, sent⟩ : ∃ data, ((sendRaw system node (plistArrayGetSize node)).state
        host).traffic = host.traffic ++ [.raw data] := ⟨_, rfl⟩
      exact ⟨raws ++ [data], by rw [sent, added, List.map_append, List.append_assoc]; rfl⟩
    · cases errplist with
      | none => exact replies_send _ _ _
      | some errplist => exact replies_send _ _ _

theorem sendFiles_ignored {message : PlistNode} (ignored : ¬ Answers message .downloadFiles) :
    mb2HandleSendFiles system message = pure () := by
  rw [mb2HandleSendFiles]
  split
  · rfl
  · rename_i shape
    obtain ⟨-, long⟩ := not_or.mp shape
    cases item : plistArrayGetItem message 1 with
    | none => rfl
    | some node =>
      dsimp only
      refine if_pos (Nat.eq_zero_of_not_pos fun counted => ignored ⟨Nat.le_of_not_lt long, ?_⟩)
      rw [item]
      exact counted

theorem replies_listDirectory {message : PlistNode} (isArray : message.1.type = .array)
    (answers : Answers message .contentsOfDirectory) :
    Replies (mb2HandleListDirectory system message) := by
  have shape : ¬ (plistGetNodeType (some message) ≠ .array ∨ plistArrayGetSize message < 2) :=
    not_or.mpr ⟨not_not.mpr isArray, Nat.not_lt.mpr answers.1⟩
  rw [mb2HandleListDirectory, if_neg shape, if_neg (not_not.mpr answers.2)]
  refine replies_bind (quiet_lift _) fun str => ?_
  exact replies_bind (fun _ => keeps_get) fun host => replies_send _ _ _

theorem listDirectory_ignored {message : PlistNode}
    (ignored : ¬ Answers message .contentsOfDirectory) :
    mb2HandleListDirectory system message = pure () := by
  rw [mb2HandleListDirectory]
  split
  · rfl
  · rename_i shape
    obtain ⟨-, long⟩ := not_or.mp shape
    exact if_pos fun isString => ignored ⟨Nat.le_of_not_lt long, isString⟩

theorem replies_makeDirectory {message : PlistNode} (isArray : message.1.type = .array)
    (answers : Answers message .createDirectory) :
    Replies (mb2HandleMakeDirectory system message) := by
  have shape : ¬ (plistGetNodeType (some message) ≠ .array ∨ plistArrayGetSize message < 2) :=
    not_or.mpr ⟨not_not.mpr isArray, Nat.not_lt.mpr answers⟩
  rw [mb2HandleMakeDirectory, if_neg shape]
  refine replies_bind (quiet_lift _) fun str => ?_
  exact replies_bind (quiet_onDisk _) fun failed => replies_send _ _ _

theorem makeDirectory_ignored {message : PlistNode} (ignored : ¬ Answers message .createDirectory) :
    mb2HandleMakeDirectory system message = pure () := by
  rw [mb2HandleMakeDirectory]
  exact if_pos (.inr (Nat.lt_of_not_le ignored))

theorem quiet_moveFiles (moves : Option PlistNode) :
    ∀ rounds iter, Quiet (moveFiles system moves rounds iter)
  | 0, _ => quiet_lift _
  | rounds + 1, iter => by
      refine quiet_bind (quiet_lift _) fun next => ?_
      refine quiet_bind ?_ fun failed => ?_
      · unfold moveEntry
        split
        · exact quiet_pure _
        · refine quiet_ite (quiet_bind (quiet_lift _) fun str => ?_) (quiet_pure _)
          exact quiet_bind (quiet_onDisk _) fun _ => quiet_onDisk _
      · cases failed with
        | none => exact quiet_ite (quiet_moveFiles moves rounds _) (quiet_pure _)
        | some errno => exact quiet_pure _

theorem quiet_removeFiles (removes : Option PlistNode) :
    ∀ rounds ii failed, Quiet (removeFiles system removes rounds ii failed)
  | 0, _, _ => quiet_pure _
  | rounds + 1, ii, failed => by
      refine quiet_ite (quiet_removeFiles removes rounds _ _) ?_
      refine quiet_bind (quiet_lift _) fun str => ?_
      exact quiet_bind (quiet_onDisk _) fun failure => quiet_removeFiles removes rounds _ _

/-- `mb2_handle_receive_files` responds exactly to messages of four items. -/
theorem receiveFiles_responds {message : PlistNode} (isArray : message.1.type = .array)
    {receiving receiving' : Receiving Disk} {count : Int}
    (ran : (mb2HandleReceiveFiles system.toFileCalls system.buildPath (some message)).run
      receiving = (.ok count, receiving')) :
    receiving'.responded = (decide (4 ≤ plistArrayGetSize message) || receiving.responded) := by
  rw [mb2HandleReceiveFiles] at ran
  by_cases long : 4 ≤ plistArrayGetSize message
  · have shape : ¬ (plistGetNodeType (some message) ≠ .array ∨ plistArrayGetSize message < 4) :=
      not_or.mpr ⟨not_not.mpr isArray, Nat.not_lt.mpr long⟩
    rw [if_neg shape] at ran
    obtain ⟨_, -, ran⟩ := run_lift_bind_eq_ok.mp ran
    rw [run_get_bind] at ran
    obtain ⟨locals, _, -, ran⟩ := run_bind_eq_ok.mp ran
    obtain ⟨_, _, -, ran⟩ := run_bind_eq_ok.mp ran
    rw [run_modify_bind] at ran
    cases ran
    simp [long]
  · rw [if_pos (.inr (Nat.lt_of_not_le long))] at ran
    cases ran
    simp [long]

/-- The traffic of an upload; its data comes from the device. -/
theorem ensures_receiveUpload {message : PlistNode} (isArray : message.1.type = .array)
    (traffic : List Traffic) :
    Ensures (fun host : Host Disk => host.traffic = traffic) (receiveUpload system message)
      (fun _ host => (Answers message .uploadFiles → AddedReply traffic host) ∧
        (¬ Answers message .uploadFiles → host.traffic = traffic)) (AddedRaw traffic) := by
  have bare {host : Host Disk} (same : host.traffic = traffic) : AddedRaw traffic host :=
    ⟨[], by rw [same]; simp⟩
  refine ensures_between (fun result host => host.traffic = traffic ∧
    result.2 = decide (4 ≤ plistArrayGetSize message)) ?_ fun result => ?_
  · constructor
    · rintro host host' ⟨count, responded⟩ same ran
      obtain ⟨inner, rfl⟩ := Prod.mk.inj ran
      refine ⟨same, ?_⟩
      obtain ⟨_, receiving, received, rest⟩ := run_bind_eq_ok.mp (Prod.ext inner rfl)
      have responds := receiveFiles_responds isArray received
      rw [run_get_bind] at rest
      cases rest
      rwa [Bool.or_false] at responds
    · rintro host host' fault same ran
      obtain ⟨-, rfl⟩ := Prod.mk.inj ran
      exact bare same
  · obtain ⟨count, responded⟩ := result
    refine ensures_each fun host bare' => ?_
    obtain ⟨same, responds⟩ := bare'
    by_cases long : 4 ≤ plistArrayGetSize message
    · rw [decide_eq_true long] at responds
      subst responds
      have replies : Replies (mobilebackup2SendStatusResponse 0 none (some (leaf plistNewDict)) >>=
          fun _ => Program.modify fun host : Host Disk =>
            { host with fileCount := host.fileCount + count }) :=
        replies_then (replies_send _ _ _) fun _ host => ⟨(), _, rfl, rfl⟩
      exact ensures_mono (replies traffic) (fun _ same' => same' ▸ bare same) fun _ _ replied =>
        ⟨fun _ => replied, fun ignored => absurd long ignored⟩
    · rw [decide_eq_false long] at responds
      subst responds
      exact ensures_modify fun _ same' =>
        ⟨fun answers => absurd answers long, fun _ => same' ▸ same⟩

/-- What one message of a kind adds, and when it makes the host leave the loop. -/
structure Served (message : PlistNode) (kind : DlMessage) (traffic : List Traffic)
    (ending : Option Ending) (host : Host Disk) : Prop where
  answered : Answers message kind → AddedReply traffic host
  ignored : ¬ Answers message kind → host.traffic = traffic
  goesOn : ending = none → kind ≠ .disconnect ∧ kind ≠ .processMessage
  leaves : ∀ e, ending = some e → (kind = .disconnect ∧ e = .disconnected) ∨
    (kind = .processMessage ∧ processed message = .ok e)

theorem Served.none' {message : PlistNode} {kind : DlMessage} {traffic : List Traffic}
    {host : Host Disk} (stays : kind ≠ .disconnect ∧ kind ≠ .processMessage)
    (answered : Answers message kind → AddedReply traffic host)
    (ignored : ¬ Answers message kind → host.traffic = traffic) :
    Served message kind traffic none host :=
  ⟨answered, ignored, fun _ => stays, fun _ other => by cases other⟩

theorem served_answered {message : PlistNode} {kind : DlMessage}
    {program : Program (Host Disk) Unit} (stays : kind ≠ .disconnect ∧ kind ≠ .processMessage)
    (answers : Answers message kind) (replies : Replies program) (traffic : List Traffic) :
    Ensures (fun host => host.traffic = traffic) (program >>= fun _ => pure none)
      (Served message kind traffic) (AddedRaw traffic) := by
  refine ensures_bind (ensures_mono (replies traffic) (fun _ same => ?_) fun _ _ replied => replied)
    fun _ => ensures_pure fun host replied => ?_
  · exact ⟨[], by rw [same]; simp⟩
  · exact .none' stays (fun _ => replied) fun ignored => absurd answers ignored

theorem served_ignored {message : PlistNode} {kind : DlMessage}
    {program : Program (Host Disk) Unit} (stays : kind ≠ .disconnect ∧ kind ≠ .processMessage)
    (ignored : ¬ Answers message kind) (nothing : program = pure ()) (traffic : List Traffic) :
    Ensures (fun host => host.traffic = traffic) (program >>= fun _ => pure none)
      (Served message kind traffic) (AddedRaw traffic) := by
  subst nothing
  exact ensures_pure fun _ same =>
    .none' stays (fun answers => absurd answers ignored) fun _ => same

/-- **One message of each kind.** -/
theorem serve_turn {message : PlistNode} (isArray : message.1.type = .array) (kind : DlMessage)
    (traffic : List Traffic) :
    Ensures (fun host => host.traffic = traffic) (serve system message kind)
      (Served message kind traffic) (AddedRaw traffic) := by
  cases kind with
  | downloadFiles =>
    by_cases answers : Answers message .downloadFiles
    · exact served_answered (by decide) answers (replies_sendFiles isArray answers) traffic
    · exact served_ignored (by decide) answers (sendFiles_ignored answers) traffic
  | uploadFiles =>
    exact ensures_bind (ensures_receiveUpload isArray traffic) fun _ => ensures_pure
      fun _ uploaded => .none' (by decide) uploaded.1 uploaded.2
  | contentsOfDirectory =>
    by_cases answers : Answers message .contentsOfDirectory
    · exact served_answered (by decide) answers (replies_listDirectory isArray answers) traffic
    · exact served_ignored (by decide) answers (listDirectory_ignored answers) traffic
  | createDirectory =>
    by_cases answers : Answers message .createDirectory
    · exact served_answered (by decide) answers (replies_makeDirectory isArray answers) traffic
    · exact served_ignored (by decide) answers (makeDirectory_ignored answers) traffic
  | moveFiles =>
    have answers : Answers message .moveFiles := trivial
    exact served_answered (by decide) answers
      (replies_bind (quiet_moveFiles _ _ _) fun failed => replies_send _ _ _) traffic
  | removeFiles =>
    have answers : Answers message .removeFiles := trivial
    exact served_answered (by decide) answers
      (replies_bind (quiet_removeFiles _ _ _ _) fun failed => replies_send _ _ _) traffic
  | copyItem =>
    have answers : Answers message .copyItem := trivial
    refine served_answered (by decide) answers (replies_bind ?_ fun _ => replies_send _ _ _) traffic
    refine quiet_ite (quiet_bind (quiet_lift _) fun src => ?_) (quiet_pure _)
    exact quiet_bind (quiet_lift _) fun dst => quiet_modify fun _ => rfl
  | disconnect =>
    refine ensures_pure fun host same => ⟨fun answers => answers.elim, fun _ => same, ?_, ?_⟩
    · exact fun none' => by cases none'
    · exact fun e leaves => .inl ⟨rfl, (Option.some.inj leaves).symm⟩
  | processMessage =>
    refine ensures_between (fun ending host => processed message = .ok ending ∧
      host.traffic = traffic) (ensures_lift (fun ending ran _ same => ⟨ran, same⟩) fun _ same =>
        ⟨[], by rw [same]; simp⟩) fun ending => ensures_pure fun host read =>
          ⟨fun answers => answers.elim, fun _ => read.2, ?_, ?_⟩
    · exact fun none' => by cases none'
    · exact fun e leaves => .inr ⟨rfl, Option.some.inj leaves ▸ read.1⟩

end Handlers

/-! ## The loop -/

section Loop

variable {Disk : Type} {system : System Disk} {traffic : List Traffic}

theorem kindOf_array {message : PlistNode} {kind : DlMessage} (found : kindOf message = some kind) :
    message.1.type = .array := by
  by_contra other
  have none' : getMessage message = .ok none := if_pos (.inl other)
  rw [kindOf, none'] at found
  cases found

theorem Open.append {message : PlistNode} (isOpen : Open traffic) (stays : ¬ Concludes message)
    {replies : List Traffic} (said : ∀ m, .received m ∉ replies) :
    Open (traffic ++ .received message :: replies) := by
  intro m member
  rcases List.mem_append.mp member with earlier | now
  · exact isOpen m earlier
  · rcases List.mem_cons.mp now with same | reply
    · cases same
      exact stays
    · exact absurd reply (said m)

theorem Reply.no_message {replies : List Traffic} (reply : Reply replies) (m : PlistNode) :
    .received m ∉ replies := by
  obtain ⟨raws, plist, rfl⟩ := reply
  simp

theorem Turn.no_message {message : PlistNode} {replies : List Traffic} (turn : Turn message replies)
    (m : PlistNode) : .received m ∉ replies := by
  by_cases answered : Answered message
  · exact (turn.answered answered).no_message m
  · rw [turn.ignored answered]
    exact List.not_mem_nil

theorem answered_iff {message : PlistNode} {kind : DlMessage} (found : kindOf message = some kind) :
    Answered message ↔ Answers message kind := by
  constructor
  · rintro ⟨kind', found', answers⟩
    cases found.symm.trans found'
    exact answers
  · exact fun answers => ⟨kind, found, answers⟩

/-- A message that was served is followed by its turn. -/
theorem Served.turn {message : PlistNode} {kind : DlMessage} {ending : Option Ending}
    {host : Host Disk} (found : kindOf message = some kind)
    (served : Served message kind (traffic ++ [.received message]) ending host) :
    ∃ replies, host.traffic = traffic ++ .received message :: replies ∧ Turn message replies := by
  by_cases answers : Answers message kind
  · obtain ⟨replies, reply, added⟩ := served.answered answers
    refine ⟨replies, by rw [added, List.append_assoc]; rfl, fun _ => reply, fun ignored => ?_⟩
    exact absurd ((answered_iff found).mpr answers) ignored
  · refine ⟨[], served.ignored answers, fun answered => ?_, fun _ => rfl⟩
    exact absurd ((answered_iff found).mp answered) answers

/-- How a message that was served leaves the conversation. -/
theorem Served.ended {message : PlistNode} {kind : DlMessage} {ending : Option Ending}
    {host : Host Disk} (found : kindOf message = some kind) (isOpen : Open traffic)
    (served : Served message kind (traffic ++ [.received message]) ending host) :
    Ended host.traffic ending := by
  obtain ⟨replies, added, turn⟩ := served.turn found
  cases ending with
  | none =>
    obtain ⟨notDisconnect, notProcess⟩ := served.goesOn rfl
    rw [added]
    refine isOpen.append ?_ turn.no_message
    rintro (disconnect | process)
    · exact notDisconnect (Option.some.inj (found.symm.trans disconnect))
    · exact notProcess (Option.some.inj (found.symm.trans process))
  | some ending =>
    have leaves : Leaves message ending := by
      rcases served.leaves ending rfl with ⟨same, how⟩ | ⟨same, how⟩
      · exact .inl ⟨same ▸ found, how⟩
      · exact .inr ⟨same ▸ found, how⟩
    have unanswered : ¬ Answers message kind := by
      intro answers
      rcases served.leaves ending rfl with ⟨same, -⟩ | ⟨same, -⟩ <;> subst same <;> exact answers
    have last : ∃ before message', host.traffic = before ++ [.received message'] ∧ Open before ∧
        Leaves message' ending := ⟨traffic, message, served.ignored unanswered, isOpen, leaves⟩
    cases ending with
    | quit => exact absurd rfl leaves.ne_quit
    | disconnected => exact last
    | processed => exact last

/-- What a receive leaves. -/
def Received (traffic : List Traffic) :
    Option (PlistNode × List UInt8) → Host Disk → Prop
  | none, host => host.traffic = traffic ∨
      ∃ message, kindOf message = none ∧ host.traffic = traffic ++ [.received message]
  | some (message, dlmsg), host => getMessage message = .ok (some dlmsg) ∧
      host.traffic = traffic ++ [.received message]

theorem ensures_receiveMessage (conversation : Conversation traffic) :
    Ensures (fun host => host.traffic = traffic) (mobilebackup2ReceiveMessage system)
      (Received traffic) (fun host => Interrupted host.traffic) := by
  refine ensures_between (fun _ host => host.traffic = traffic)
    (ensures_of_run fun host same => ⟨_, _, rfl, same⟩) fun message => ?_
  cases message with
  | none => exact ensures_pure fun _ same => .inl same
  | some message =>
    refine ensures_between (fun _ host => host.traffic = traffic ++ [.received message])
      (ensures_modify ?_) fun _ => ensures_between (fun dlmsg host =>
        getMessage message = .ok dlmsg ∧ host.traffic = traffic ++ [.received message])
          (ensures_lift (fun _ read _ added => ⟨read, added⟩) ?_) fun dlmsg => ensures_pure ?_
    · rintro host same
      dsimp only
      rw [same]
    · exact fun _ added => ⟨traffic, message, conversation, [], added⟩
    · rintro host' ⟨read, added⟩
      cases dlmsg with
      | none => exact .inr ⟨message, by rw [kindOf, read], added⟩
      | some dlmsg => exact ⟨read, added⟩

/-- The invariant of the loop. -/
def Spoken (ending : Option Ending) (host : Host Disk) : Prop :=
  Conversation host.traffic ∧ Ended host.traffic ending

theorem unknown_turn {message : PlistNode} (unknown : kindOf message = none) : Turn message [] where
  answered answered := by
    obtain ⟨kind, found, -⟩ := answered
    cases unknown.symm.trans found
  ignored _ := rfl

theorem Spoken.unknown {message : PlistNode} {host : Host Disk}
    (conversation : Conversation traffic) (isOpen : Open traffic) (unknown : kindOf message = none)
    (added : host.traffic = traffic ++ [.received message]) : Spoken none host := by
  rw [Spoken, added]
  refine ⟨conversation.turn (unknown_turn unknown), isOpen.append ?_ fun _ => List.not_mem_nil⟩
  rintro (disconnect | process)
  · cases unknown.symm.trans disconnect
  · cases unknown.symm.trans process

theorem ensures_serveMessage (conversation : Conversation traffic) (isOpen : Open traffic)
    (message : Option (PlistNode × List UInt8)) :
    Ensures (Received traffic message) (serveMessage system message) Spoken
      (fun host => Interrupted host.traffic) := by
  cases message with
  | none =>
    refine ensures_pure fun host received => ?_
    rcases received with same | ⟨message, unknown, added⟩
    · rw [Spoken, same]
      exact ⟨conversation, isOpen⟩
    · exact .unknown conversation isOpen unknown added
  | some message =>
    obtain ⟨message, dlmsg⟩ := message
    have kind (host : Host Disk) (received : Received traffic (some (message, dlmsg)) host) :
        kindOf message = dlMessage dlmsg := by rw [kindOf, received.1]
    rw [serveMessage]
    cases known : dlMessage dlmsg with
    | none => exact ensures_pure fun host received =>
        .unknown conversation isOpen ((kind host received).trans known) received.2
    | some kind' =>
      refine ensures_each fun host received => ?_
      have found := (kind host received).trans known
      have served := @serve_turn Disk system message (kindOf_array found) kind'
        (traffic ++ [.received message])
      refine ⟨?_, ?_⟩
      · rintro _ host' ending rfl ran
        have served := served.ok received.2 ran
        obtain ⟨replies, added, turn⟩ := served.turn found
        exact ⟨added ▸ conversation.turn turn, served.ended found isOpen⟩
      · rintro _ host' fault rfl ran
        obtain ⟨raws, added⟩ := served.fault received.2 ran
        exact ⟨traffic, message, conversation, raws, by rw [added, List.append_assoc]; rfl⟩

/-- **Once around the loop.** -/
theorem ensures_sessionRound :
    Ensures (Spoken none) (sessionRound system) Spoken
      (fun host : Host Disk => Interrupted host.traffic) := by
  refine ensures_each fun host spoken => ?_
  obtain ⟨conversation, isOpen⟩ := spoken
  refine ensures_bind (ensures_mono (ensures_receiveMessage conversation)
    (fun _ same => same ▸ rfl) fun _ _ received => received) fun message => ?_
  refine ensures_bind (ensures_serveMessage conversation isOpen message) fun ending => ?_
  cases ending with
  | some ending => exact ensures_pure fun _ spoken => spoken
  | none =>
    refine ensures_between (fun _ => Spoken none) (ensures_of_run fun host spoken =>
      ⟨_, _, rfl, spoken⟩) fun quit => ensures_pure fun host spoken => ?_
    cases quit with
    | false => exact spoken
    | true => exact spoken

/-- **Over any connection the loop holds a conversation**: each message is followed by one
status response, or by nothing, as its shape says, and the loop is left by the last message. -/
theorem session_conversation : ∀ rounds : Nat,
    Ensures (fun host => host.traffic = []) (session system rounds)
      (fun ending host => Conversation host.traffic ∧ Ended host.traffic ending)
      (fun host => Interrupted host.traffic) := by
  have from' : ∀ rounds : Nat, Ensures (Spoken none) (session system rounds) Spoken
      (fun host : Host Disk => Interrupted host.traffic) := by
    intro rounds
    induction rounds with
    | zero => exact ensures_pure fun _ spoken => spoken
    | succ rounds ih =>
      refine ensures_bind ensures_sessionRound fun ending => ?_
      cases ending with
      | none => exact ih
      | some ending => exact ensures_pure fun _ spoken => spoken
  intro rounds
  refine ensures_mono (from' rounds) (fun host fresh => ?_) fun _ _ spoken => spoken
  rw [Spoken, fresh]
  exact ⟨.nil, fun _ member => absurd member List.not_mem_nil⟩

end Loop

/-! ## A device that asks once -/

/-- The reads of a file that holds these bytes. -/
def readsOf : Nat → List UInt8 → List Read
  | 0, _ => []
  | fuel + 1, contents =>
      ⟨contents.take bufSize, List.length_take_le _ _, 0⟩ :: readsOf fuel (contents.drop bufSize)

/-- Regular files under their paths. -/
def filesOnly (receivePlist : Transport → Option PlistNode × Transport) :
    System (CText → Option (List UInt8)) where
  toFileCalls := filesAt id
  buildPath := id
  buildFilename _ name := name
  strerror _ := cText "No such file or directory"
  receivePlist := receivePlist
  localFile disk path :=
    match disk path with
    | none => ⟨.error ⟨ENOENT, by decide⟩, .error ⟨ENOENT, by decide⟩, [], 0⟩
    | some contents => ⟨.ok contents.length, .ok (), readsOf contents.length contents, 0⟩
  files disk := disk
  kind disk path := (disk path).map fun _ => .regular
  dirOpen _ _ := none
  rename disk old new :=
    match disk old with
    | none => (some ⟨ENOENT, by decide⟩, disk)
    | some contents =>
        (none, Function.update (Function.update disk old none) new (some contents))
  mkdirWithParents disk _ := (none, disk)
  opens disk path := (disk path).isSome

/-- A string. -/
def nameNode (name : String) : PlistNode := leaf (plistNewString (cText name).val)

/-- An array of these items. -/
def arrayOf (items : List PlistNode) : PlistNode :=
  items.foldl plistArrayAppendItem (leaf plistNewArray)

/-- A byte of the stream for each message: a directory that is to be made, or the end. -/
def asksOnce (transport : Transport) : Option PlistNode × Transport :=
  match transport.stream with
  | [] => (none, transport)
  | 0 :: rest =>
      (some (arrayOf [nameNode "DLMessageCreateDirectory", nameNode "Snapshot"]),
        { transport with stream := rest })
  | _ :: rest =>
      (some (arrayOf [nameNode "DLMessageDisconnect"]), { transport with stream := rest })

theorem directory_made : ∃ plist host, statusResponse 0 none none = .ok plist ∧
    (session (filesOnly asksOnce) 2).run ⟨.whole [0, 1], fun _ => none, [], 0, calm⟩ =
      (.ok (some .disconnected), host) ∧
    host.traffic =
      [.received (arrayOf [nameNode "DLMessageCreateDirectory", nameNode "Snapshot"]),
        .response plist, .received (arrayOf [nameNode "DLMessageDisconnect"])] ∧
    Conversation host.traffic ∧ Ended host.traffic (some .disconnected) := by
  obtain ⟨plist, host, built, ran, said⟩ : ∃ plist host, statusResponse 0 none none = .ok plist ∧
      (session (filesOnly asksOnce) 2).run ⟨.whole [0, 1], fun _ => none, [], 0, calm⟩ =
        (.ok (some .disconnected), host) ∧
      host.traffic =
        [.received (arrayOf [nameNode "DLMessageCreateDirectory", nameNode "Snapshot"]),
          .response plist, .received (arrayOf [nameNode "DLMessageDisconnect"])] :=
    ⟨_, _, rfl, rfl, rfl⟩
  exact ⟨plist, host, built, ran, said, (session_conversation 2).ok rfl ran⟩

end Irestore.MobileBackup
