/-
# MobileBackup.LocalFiles — the files of the backup directory

The handlers name a local file by its path.  Several paths lead to one entry of a directory
(`a` and `./a`), and it is the entry that a file is kept under.

* `FileCalls` — `remove`, `fopen` to write, and `fwrite`, on any file system.
* `filesAt` — regular files that open, by the entry their path leads to.
-/
import Mathlib.Logic.Function.Basic
import Irestore.Library.CMemory

namespace Irestore.MobileBackup

open Irestore.Library.CMemory

set_option autoImplicit false

/-- What a failed call leaves in `errno`. -/
abbrev Errno := { number : Nat // 0 < number }

/-- The calls that store a file.  `fopen` to write may fail, and leaves an empty file
otherwise; `fwrite` goes to a file that was opened so. -/
structure FileCalls (Disk : Type) where
  remove : Disk → CText → Option Errno × Disk
  truncate : Disk → CText → Option Disk
  append : Disk → CText → List UInt8 → Disk

/-- Regular files by their entries; the directories are there, and every file opens. -/
def filesAt {F : Type} [DecidableEq F] (place : CText → F) :
    FileCalls (F → Option (List UInt8)) where
  remove disk path := (none, Function.update disk (place path) none)
  truncate disk path := some (Function.update disk (place path) (some []))
  append disk path data :=
    Function.update disk (place path) (some ((disk (place path)).getD [] ++ data))

section Files

variable {F : Type} [DecidableEq F] (place : CText → F) (disk : F → Option (List UInt8))

/-- The disk when a file holds this much. -/
def holding (file : F) (written : List UInt8) : F → Option (List UInt8) :=
  Function.update disk file (some written)

theorem filesAt_append (path : CText) (written data : List UInt8) :
    (filesAt place).append (holding disk (place path) written) path data =
      holding disk (place path) (written ++ data) := by
  simp only [filesAt, holding, Function.update_self, Function.update_idem, Option.getD_some]

/-- A file that was removed and opened is empty. -/
theorem filesAt_create (path : CText) :
    (filesAt place).truncate ((filesAt place).remove disk path).2 path =
      some (holding disk (place path) []) := by
  simp only [filesAt, holding, Function.update_idem]

end Files

end Irestore.MobileBackup
