import PowerFirmware.LittleEndian

/-! The descriptor that the enclave writes about the chip: sixty-four words, least significant byte
first. -/

namespace PowerFirmware

/-- The identity of the chip, its life cycle and the hashes of what it runs. -/
structure SocInfo where
  header : UInt32
  soc : UInt32
  lifecycle : UInt32
  uid : Vector UInt32 4
  romPatchHash : Vector UInt32 8
  firmwareHash : Vector UInt32 8
  oemKeyHash : Vector UInt32 16
  state : UInt32
  oemPqcKeyHash : Vector UInt32 16
  reserved : Vector UInt32 8
  deriving DecidableEq, Repr

namespace SocInfo

/-- The size of a descriptor in bytes. -/
def size : Nat := 256

/-- The descriptor with the given words. -/
def ofWords (w : Nat → UInt32) : SocInfo where
  header := w 0
  soc := w 1
  lifecycle := w 2
  uid := Vector.ofFn fun i => w (3 + i)
  romPatchHash := Vector.ofFn fun i => w (7 + i)
  firmwareHash := Vector.ofFn fun i => w (15 + i)
  oemKeyHash := Vector.ofFn fun i => w (23 + i)
  state := w 39
  oemPqcKeyHash := Vector.ofFn fun i => w (40 + i)
  reserved := Vector.ofFn fun i => w (56 + i)

/-- Bytes after the descriptor are ignored, and missing ones read as zero. -/
def ofBytes (bytes : List UInt8) : SocInfo :=
  ofWords (LittleEndian.wordAt (bytes.take size))

/-- The words of the descriptor, field by field. -/
def words (i : SocInfo) : List UInt32 :=
  i.header :: i.soc :: i.lifecycle :: i.uid.toList ++ i.romPatchHash.toList ++
    i.firmwareHash.toList ++ i.oemKeyHash.toList ++ i.state :: i.oemPqcKeyHash.toList ++
    i.reserved.toList

/-- The bytes that the enclave writes for the descriptor. -/
def toBytes (i : SocInfo) : List UInt8 := i.words.flatMap LittleEndian.bytes

/-- The unique identifier as two double words, the more significant word of each half first. -/
def uidPair (i : SocInfo) : UInt64 × UInt64 :=
  let word k := i.uid.toList.getD k 0
  (LittleEndian.ofHalves (word 1) (word 0), LittleEndian.ofHalves (word 3) (word 2))

end SocInfo
end PowerFirmware
