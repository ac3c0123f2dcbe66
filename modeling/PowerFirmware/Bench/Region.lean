import PowerFirmware.Bench.Journal
import PowerFirmware.Channel.Basic

/-! A region of memory that a scripted device writes into. -/

namespace PowerFirmware.Bench

/-- The number of elements of `width` bytes each, if there can be a buffer of them: no buffer takes half
    of all addresses. -/
def buffer? (width count : Nat) : Option Nat :=
  if width * count < 0x8000000000000000 then some count else none

/-- What the device writes: ascending words, the next values of a byte counter, or given bytes. -/
inductive Filling
  | words
  | count (next : UInt8)
  | given (fills : List (List UInt8))
  deriving DecidableEq, Repr

/-- The bytes of the region, the device's filling, and how often the region was handed over and
    back. -/
structure Region where
  bytes : Array UInt8 := #[]
  filling : Filling := .given []
  prepared : Tally := {}
  completed : Tally := {}
  deriving Repr

namespace Region

/-- `front` over the first bytes, as far as the region reaches. -/
def overwrite (bytes : Array UInt8) (front : List UInt8) : Array UInt8 :=
  front.zipIdx.foldl (fun bytes (b, i) => bytes.setIfInBounds i b) bytes

/-- The words that fit into `size` bytes, each holding its place. -/
def ascending (size : Nat) : List UInt8 :=
  (List.range (size / 4)).flatMap fun i => LittleEndian.bytes (UInt32.ofNat i)

/-- The next `count` values of a counter. -/
def counted (next : UInt8) (count : Nat) : List UInt8 :=
  (List.range count).map fun i => next + UInt8.ofNat i

def prepare (r : Region) : Region := { r with prepared := r.prepared.step }

/-- The device writes, at the latest when the region comes back. It writes ascending words once,
    because they would be the same again. -/
def complete (r : Region) : Region :=
  let r := { r with completed := r.completed.step }
  match r.filling with
  | .words =>
    { r with bytes := overwrite r.bytes (ascending r.bytes.size), filling := .given [] }
  | .count next =>
    let count := min 16 r.bytes.size
    { r with
      bytes := overwrite r.bytes (counted next count)
      filling := .count (next + UInt8.ofNat count) }
  | .given [] => r
  | .given (front :: rest) => { r with bytes := overwrite r.bytes front, filling := .given rest }

/-- The first `size` bytes, with zeros after the end of the region. -/
def window (r : Region) (size : Nat) : Vector UInt8 size :=
  if h : r.bytes.size = size then ⟨r.bytes, h⟩ else overlay r.bytes.toList (Vector.replicate size 0)

end Region
end PowerFirmware.Bench
