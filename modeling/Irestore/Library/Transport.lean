/-
# Library.Transport — a byte stream that arrives in pieces

A `Transport` is the bytes that still arrive before the connection ends and, for every
receive to come, how much it hands out at most.  A receive is never empty while bytes
remain, and empty from then on.

* `receive_eq_nil_iff` — an empty receive is the end of the stream.
* `receive_append` — what a receive hands out, and what remains, are the stream.
* `receive_of_le` — a receive that is handed all it asks for.
* `receive_front` — a receive of bytes that are to come.
-/
import Mathlib.Data.List.TakeDrop

namespace Irestore.Library

set_option autoImplicit false

/-- The bytes to come, and the sizes of the receives: `sizes k + 1` is the most that the
`k`th hands out. -/
structure Transport where
  stream : List UInt8
  sizes : Nat → Nat

namespace Transport

variable (transport : Transport) (len : Nat)

/-- Receive up to `len` bytes. -/
def receive : List UInt8 × Transport :=
  let data := transport.stream.take (min len (transport.sizes 0 + 1))
  (data, ⟨transport.stream.drop data.length, fun k => transport.sizes (k + 1)⟩)

/-- The same stream, handed out as asked. -/
def whole (stream : List UInt8) : Transport := ⟨stream, fun _ => stream.length⟩

theorem receive_append :
    (transport.receive len).1 ++ (transport.receive len).2.stream = transport.stream := by
  simp only [receive]
  rw [List.length_take, ← List.drop_eq_drop_min, List.take_append_drop]

theorem length_receive :
    (transport.receive len).1.length =
      min (min len (transport.sizes 0 + 1)) transport.stream.length :=
  List.length_take

theorem receive_eq_nil_iff {transport : Transport} {len : Nat} (asked : 0 < len) :
    (transport.receive len).1 = [] ↔ transport.stream = [] := by
  rw [← List.length_eq_zero_iff, length_receive, ← List.length_eq_zero_iff]
  omega

/-- A receive that may be handed all it asks for. -/
theorem receive_of_le {transport : Transport} {len : Nat} (size : len ≤ transport.sizes 0 + 1) :
    (transport.receive len).1 = transport.stream.take len := by
  rw [receive, Nat.min_eq_left size]

/-- Whatever a receive hands out of the bytes asked for, the others come next. -/
theorem receive_front {transport : Transport} {data rest : List UInt8}
    (stream : transport.stream = data ++ rest) :
    transport.receive data.length = (data.take (transport.sizes 0 + 1),
      ⟨data.drop (transport.sizes 0 + 1) ++ rest, fun k => transport.sizes (k + 1)⟩) := by
  have front : (transport.stream.take (min data.length (transport.sizes 0 + 1))) =
      data.take (transport.sizes 0 + 1) := by
    rw [stream, List.take_append_of_le_length (Nat.min_le_left _ _), Nat.min_comm,
      ← List.take_eq_take_min]
  rw [receive, front]
  congr 2
  rw [stream, List.length_take, List.drop_append_of_le_length (Nat.min_le_right _ _),
    ← List.drop_eq_drop_min]

end Transport

end Irestore.Library
