import PowerFirmware.Machine

/-! Waiting for hardware, with and without a limit of time. -/

namespace PowerFirmware

/-- How long a wait may last: until its condition holds, or a number of nanoseconds. -/
inductive PollBudget
  | unbounded
  | within (ns : Nat)
  deriving DecidableEq, Repr

namespace PollBudget

def millis (n : Nat) : PollBudget := within (n * 1000000)

/-- A limit in seconds and nanoseconds, if its whole seconds fit sixty-four bits. -/
def ofTime? (seconds nanos : Nat) : Option PollBudget :=
  if seconds + nanos / 1000000000 < UInt64.size then
    some (within (seconds * 1000000000 + nanos))
  else
    none

/-- The limit that waiting time is compared with, no larger than the clock can show. -/
def limit? : PollBudget → Option UInt64
  | unbounded => none
  | within ns => some (UInt64.ofNat (min ns (UInt64.size - 1)))

end PollBudget

/-- A wait that ran out of its budget, after this many nanoseconds. -/
structure PollTimeout where
  waited : UInt64
  deriving DecidableEq, Repr

/-- Messages show whole microseconds. -/
def PollTimeout.message (t : PollTimeout) : String :=
  s!"hardware poll timed out after {t.waited.toNat / 1000} us"

/-- The time from `start` to `present`, and none if the clock has gone back. -/
def elapsed (start present : UInt64) : UInt64 := if start ≤ present then present - start else 0

section Waiting
variable {σ : Type} [Machine σ]

/-- The rounds of `pollUntil` after its first look. Once the limit has passed, the condition gets a
    last look, so that it is not missed while the clock is read. -/
def pollRounds (limit : Option UInt64) (start : UInt64) (done : Run σ Bool) :
    Nat → Run σ (Except PollTimeout Unit)
  | 0 => throw .hung
  | rounds + 1 => do
    if ← done then return .ok ()
    match limit with
    | none => pollRounds limit start done rounds
    | some most =>
      let waited := elapsed start (← now)
      if most ≤ waited then
        if ← done then return .ok ()
        log .trace s!"poll gave up after {waited} ns"
        return .error ⟨waited⟩
      else pollRounds limit start done rounds

/-- Waits until `done` holds or the budget is used up. A condition that holds at once reads no
    clock. -/
def pollUntil (budget : PollBudget) (done : Run σ Bool) : Run σ (Except PollTimeout Unit) := do
  if ← done then return .ok ()
  let start ← now
  pollRounds budget.limit? start done (← patience)

/-- Waits until `done` holds, for at most `rounds` looks, and reads no clock. -/
def spinRounds (done : Run σ Bool) : Nat → Run σ Unit
  | 0 => throw .hung
  | rounds + 1 => do
    if ← done then return ()
    spinRounds done rounds

def spinUntil (done : Run σ Bool) : Run σ Unit := do
  spinRounds done (← patience)

end Waiting
end PowerFirmware
