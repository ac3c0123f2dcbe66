import PowerFirmware.Bench.Journal

/-! A clock that plays a given course of time. -/

namespace PowerFirmware.Bench

/-- How a clock goes: on by a step with every read, or through a list of times and then to the last
    time that can be shown. A clock that would have to step past it is over. -/
inductive Course
  | stepping (time step : UInt64)
  | listed (times : List UInt64)
  | over
  deriving DecidableEq, Repr

/-- The last time that can be shown. -/
def lastTime : UInt64 := 0xffffffffffffffff

structure Clock where
  course : Course := .stepping 0 1000
  reads : Tally := {}
  deriving DecidableEq, Repr

namespace Clock

def tick (c : Clock) : UInt64 × Clock :=
  let reads := c.reads.step
  match c.course with
  | .stepping time step =>
    if time ≤ lastTime - step then (time + step, ⟨.stepping (time + step) step, reads⟩)
    else (lastTime, ⟨.over, reads⟩)
  | .listed (time :: rest) => (time, ⟨.listed rest, reads⟩)
  | .listed [] | .over => (lastTime, { c with reads })

def isOver (c : Clock) : Bool := c.course == .over

/-- After this many reads the clock stands still. -/
def readsLeft (c : Clock) : Nat :=
  match c.course with
  | .stepping time step => if step == 0 then 0 else (lastTime - time).toNat / step.toNat + 1
  | .listed times => times.length
  | .over => 0

end Clock
end PowerFirmware.Bench
