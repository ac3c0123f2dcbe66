import PowerFirmware.Machine

/-! Memory that a device writes its bulk results into. -/

namespace PowerFirmware

/-- A region of memory shared with a device: the address the device reaches it by, its size, what
    hands it to the device and back, and its bytes as the processor sees them. -/
structure DmaRegion (σ : Type) where
  busAddress : UInt64
  size : Nat
  prepare : σ → σ
  complete : σ → σ
  bytes : σ → Vector UInt8 size

namespace DmaRegion
variable {σ : Type}

/-- The first `count` bytes, or all of them if there are fewer. -/
def front (region : DmaRegion σ) (count : Nat) : Run σ (List UInt8) :=
  Run.view fun s => ((region.bytes s).take count).toList

end DmaRegion

/-- A buffer in coherent memory: handing it over changes none of its bytes, which start as zero. -/
structure DmaBuffer (n : Nat) where
  bytes : Vector UInt8 n := Vector.replicate n 0
  deriving Repr

/-- Buffers start at multiples of a cache line. -/
def DmaBuffer.alignment : Nat := 64

/-- A buffer as the region it stands for, at a bus address. -/
def DmaBuffer.region (n : Nat) (busAddress : UInt64) : DmaRegion (DmaBuffer n) where
  busAddress := busAddress
  size := n
  prepare := id
  complete := id
  bytes := DmaBuffer.bytes

end PowerFirmware
