/-
# MobileBackup.Frames — how files go over a backup connection

A file is its name behind a length, hunks of data, and an end marker.  A hunk and a marker are
frames: a length, a code which that length counts in, and the content.

* `frameHeader_inj` — the start of a frame tells its code and its length.
-/
import Irestore.Library.Bytes

namespace Irestore.MobileBackup

open Irestore.Library.Bytes

set_option autoImplicit false

def CODE_SUCCESS : UInt8 := 0x00

def CODE_ERROR_LOCAL : UInt8 := 0x06

def CODE_ERROR_REMOTE : UInt8 := 0x0b

def CODE_FILE_DATA : UInt8 := 0x0c

/-- The size of `buf`, in either direction. -/
def bufSize : Nat := 32768

/-- A length and the bytes. -/
def prefixed (bytes : List UInt8) : List UInt8 := be 4 bytes.length ++ bytes

/-- The start of a frame of so many bytes of content. -/
def frameHeader (code : UInt8) (length : Nat) : List UInt8 := be 4 (length + 1) ++ [code]

def frame (code : UInt8) (content : List UInt8) : List UInt8 :=
  frameHeader code content.length ++ content

@[simp] theorem length_frameHeader (code : UInt8) (length : Nat) :
    (frameHeader code length).length = 5 := by simp [frameHeader]

theorem frameHeader_inj {code code' : UInt8} {length length' : Nat} (small : length + 1 < 2 ^ 32)
    (small' : length' + 1 < 2 ^ 32) {rest rest' : List UInt8}
    (same : frameHeader code length ++ rest = frameHeader code' length' ++ rest') :
    code = code' ∧ length = length' ∧ rest = rest' := by
  obtain ⟨headers, rests⟩ := List.append_inj same (by simp)
  obtain ⟨lengths, codes⟩ := List.append_inj headers (by simp)
  have counts := congrArg ofBE lengths
  rw [ofBE_be (by omega), ofBE_be (by omega)] at counts
  exact ⟨List.cons.inj codes |>.1, by omega, rests⟩

end Irestore.MobileBackup
