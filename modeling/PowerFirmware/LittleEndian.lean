/-! Words as bytes and double words as words, the least significant part first. -/

namespace PowerFirmware.LittleEndian

/-- The four bytes of a word. -/
def bytes (w : UInt32) : List UInt8 :=
  [w.toUInt8, (w >>> 8).toUInt8, (w >>> 16).toUInt8, (w >>> 24).toUInt8]

/-- The word at the front of `bs`; bytes that are missing read as zero. -/
def word (bs : List UInt8) : UInt32 :=
  (bs.getD 0 0).toUInt32 ||| ((bs.getD 1 0).toUInt32 <<< 8) |||
    ((bs.getD 2 0).toUInt32 <<< 16) ||| ((bs.getD 3 0).toUInt32 <<< 24)

/-- The `i`-th word of `bs`. -/
def wordAt (bs : List UInt8) (i : Nat) : UInt32 := word (bs.drop (4 * i))

/-- The low and the high word of a double word, in this order. -/
def halves (w : UInt64) : List UInt32 := [w.toUInt32, (w >>> 32).toUInt32]

/-- The double word whose low and high words are given. -/
def ofHalves (low high : UInt32) : UInt64 := low.toUInt64 ||| (high.toUInt64 <<< 32)

end PowerFirmware.LittleEndian
