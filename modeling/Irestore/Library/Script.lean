/-
# Library.Script — programs that follow a script

A state has said so many words.  A program follows a script when it says the script and
ends well, or says a beginning of it and ends otherwise; a fault counts as otherwise.

* `Follows` — from any state, with what was said before kept in front.
* The rules `follows_…`: programs that say nothing, single words, and one script behind
  another.
-/
import Irestore.Library.Program
import Mathlib.Data.List.Infix

namespace Irestore.Library.Program

set_option autoImplicit false

variable {S T W α β : Type}

/-- Some beginning of the script was said behind these words. -/
def Begun (said : S → List W) (before script : List W) (s : S) : Prop :=
  ∃ part, part <+: script ∧ said s = before ++ part

/-- The whole script is said when the value is `fine`, and a beginning of it in any case. -/
def Follows (said : S → List W) (program : Program S α) (fine : α → Prop) (script : List W) :
    Prop :=
  ∀ before, Ensures (fun s => said s = before) program
    (fun a s => (fine a → said s = before ++ script) ∧ Begun said before script s)
    (Begun said before script)

variable {said : S → List W} {before script more : List W} {fine : α → Prop} {fine' : β → Prop}

theorem begun_nil {s : S} (same : said s = before) (script : List W) :
    Begun said before script s :=
  ⟨[], List.nil_prefix, by rw [same, List.append_nil]⟩

theorem Begun.append {s : S} (begun : Begun said before script s) (more : List W) :
    Begun said before (script ++ more) s := by
  obtain ⟨part, isPrefix, same⟩ := begun
  exact ⟨part, isPrefix.trans (List.prefix_append _ _), same⟩

theorem Begun.behind {s : S} (begun : Begun said (before ++ script) more s) :
    Begun said before (script ++ more) s := by
  obtain ⟨part, isPrefix, same⟩ := begun
  exact ⟨script ++ part, (List.prefix_append_right_inj script).mpr isPrefix,
    same.trans (List.append_assoc _ _ _)⟩

/-- Nothing is said. -/
theorem follows_of_keeps {program : Program S α}
    (kept : ∀ before, Keeps (fun s => said s = before) program) (fine : α → Prop) :
    Follows said program fine [] := fun before =>
  ⟨fun same ran => by
    have same' := (kept before).ok same ran
    exact ⟨fun _ => same'.trans (List.append_nil _).symm, begun_nil same' _⟩,
    fun same ran => begun_nil ((kept before).fault same ran) _⟩

theorem follows_pure (a : α) : Follows said (pure a : Program S α) fine [] :=
  follows_of_keeps (fun _ => keeps_pure a) fine

/-- A value that is not fine ends any script. -/
theorem follows_pure_of_not {a : α} (failed : ¬ fine a) (script : List W) :
    Follows said (pure a : Program S α) fine script :=
  fun _ => ensures_pure fun _ same => ⟨fun holds => absurd holds failed, begun_nil same _⟩

/-- A program that follows a script leaves a beginning of it in any case. -/
theorem Follows.begun {program : Program S α} (follows : Follows said program fine script) {s : S}
    (same : said s = before) : Begun said before script (program.state s) := by
  refine Ensures.state (ensures_mono (follows before) (fun _ same => same) ?_) same
  exact fun _ _ held => held.2

/-- One script behind another, that is not reached when the first does not end well. -/
theorem follows_bind {first : Program S α} {next : α → Program S β}
    (run : Follows said first fine script)
    (rest : ∀ a, fine a → Follows said (next a) fine' more)
    (stops : ∀ a, ¬ fine a → ∃ b, next a = pure b ∧ ¬ fine' b) :
    Follows said (first >>= next) fine' (script ++ more) := by
  refine fun before => ensures_between
    (fun a s => (fine a → said s = before ++ script) ∧ Begun said before script s) ?_ fun a => ?_
  · refine ⟨fun same ran => (run before).ok same ran, fun same ran => ?_⟩
    exact ((run before).fault same ran).append more
  by_cases good : fine a
  · have followed := rest a good (before ++ script)
    refine ⟨fun held ran => ?_, fun held ran => (followed.fault (held.1 good) ran).behind⟩
    obtain ⟨whole, begun⟩ := followed.ok (held.1 good) ran
    exact ⟨fun fine => (whole fine).trans (List.append_assoc _ _ _), begun.behind⟩
  · obtain ⟨b, ended, failed⟩ := stops a good
    rw [ended]
    exact ensures_pure fun _ held => ⟨fun fine => absurd fine failed, held.2.append more⟩

/-- A script that the rest adds nothing to. -/
theorem follows_last {first : Program S α} {next : α → Program S β}
    (run : Follows said first fine script)
    (rest : ∀ a, fine a → Follows said (next a) fine' [])
    (stops : ∀ a, ¬ fine a → ∃ b, next a = pure b ∧ ¬ fine' b) :
    Follows said (first >>= next) fine' script := by
  simpa only [List.append_nil] using follows_bind run rest stops

/-- One script behind a program that always ends well. -/
theorem follows_behind {first : Program S α} {next : α → Program S β}
    (run : Follows said first (fun _ => True) script)
    (rest : ∀ a, Follows said (next a) fine' more) :
    Follows said (first >>= next) fine' (script ++ more) :=
  follows_bind run (fun a _ => rest a) fun _ untrue => absurd trivial untrue

/-- A program that says nothing, in front of a script. -/
theorem follows_quiet {first : Program S α} {next : α → Program S β} {mid : α → Prop}
    (quiet : ∀ before, Ensures (fun s => said s = before) first
      (fun a s => said s = before ∧ mid a) fun s => said s = before)
    (rest : ∀ a, mid a → Follows said (next a) fine' script) :
    Follows said (first >>= next) fine' script := by
  intro before
  constructor
  · intro s s'' b same ran
    obtain ⟨a, s', first, later⟩ := run_bind_eq_ok.mp ran
    obtain ⟨same', holds⟩ := (quiet before).ok same first
    exact (rest a holds before).ok same' later
  · intro s s'' fault same ran
    match result : first.run s with
    | (.ok a, s') =>
      obtain ⟨same', holds⟩ := (quiet before).ok same result
      exact (rest a holds before).fault same' ((run_bind result).symm.trans ran)
    | (.error fault', s') =>
      rw [run_bind_error result] at ran
      cases ran
      exact begun_nil ((quiet before).fault same result) _

theorem follows_keeps {first : Program S α} {next : α → Program S β}
    (kept : ∀ before, Keeps (fun s => said s = before) first)
    (rest : ∀ a, Follows said (next a) fine' script) :
    Follows said (first >>= next) fine' script := by
  refine @follows_quiet _ _ _ _ _ _ _ _ _ (fun _ => True) (fun before => ?_) fun a _ => rest a
  exact ensures_mono (kept before) (fun _ same => same) fun _ _ same => ⟨same, trivial⟩

theorem follows_lift {run : CMemory.Checked α} {next : α → Program S β}
    (rest : ∀ a, run = .ok a → Follows said (next a) fine' script) :
    Follows said (lift run >>= next) fine' script :=
  @follows_quiet _ _ _ _ _ _ _ _ _ (fun a => run = .ok a)
    (fun _ => ensures_lift (fun _ same _ said => ⟨said, same⟩) fun _ said => said) rest

/-- What is fine may be put in other words, as far as the values go. -/
theorem Follows.mono {program : Program S α} {good : α → Prop}
    (follows : Follows said program fine script)
    (values : ∀ s s' a, program.run s = (.ok a, s') → good a → fine a) :
    Follows said program good script := by
  refine fun before => ⟨fun same ran => ?_, (follows before).fault⟩
  obtain ⟨whole, begun⟩ := (follows before).ok same ran
  exact ⟨fun good => whole (values _ _ _ ran good), begun⟩

theorem follows_ite {condition : Prop} [Decidable condition] {yes no : Program S α}
    (left : condition → Follows said yes fine script)
    (right : ¬ condition → Follows said no fine script) :
    Follows said (if condition then yes else no) fine script := by
  split
  · exact left ‹_›
  · exact right ‹_›

/-- The words of a part of the state, that only the part has a say in. -/
theorem follows_zoom {part : S → T} {put : T → S → S} {program : Program T α} {said : T → List W}
    (put_part : ∀ t s, part (put t s) = t) (run : Follows said program fine script) :
    Follows (fun s => said (part s)) (zoom part put program) fine script := by
  refine fun before => ⟨fun same ran => ?_, fun same ran => ?_⟩
  · obtain ⟨result, rfl⟩ := Prod.mk.inj ran
    obtain ⟨whole, begun⟩ := (run before).ok same (Prod.ext result rfl)
    simp only [Begun, put_part]
    exact ⟨whole, begun⟩
  · obtain ⟨result, rfl⟩ := Prod.mk.inj ran
    simp only [Begun, put_part]
    exact (run before).fault same (Prod.ext result rfl)

end Irestore.Library.Program
