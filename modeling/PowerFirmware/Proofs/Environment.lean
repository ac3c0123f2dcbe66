import PowerFirmware.Channel.MessagingUnit
import PowerFirmware.Channel.SharedMemory
import PowerFirmware.Power.Suspend
import PowerFirmware.Proofs.Cells

/-! What is around the firmware: the registers, the clock, the System Manager, the enclave and the
interrupt controller.

An environment says what every access yields, by all that has happened before. A history in it is a
`Machine`, and its parts are those of a `Platform`, so the operations of power management themselves run
in it and their histories say what they did. -/

namespace PowerFirmware

/-- A request, its outcome, and the words laid over the caller's buffer. -/
structure Exchange where
  request : Request
  outcome : Except ChannelError Response
  payload : List UInt32

/-- One access of the firmware, with what it yielded. -/
inductive Event (κ : Type)
  | read (a : Nat) (w : UInt32)
  | write (a : Nat) (w : UInt32)
  | tick (t : UInt64)
  | manager (x : Exchange)
  | enclave (x : Exchange)
  | saveGic (k : κ)
  | restoreGic (k : κ)
  | initCore (core : Nat)
  | enableInterface (core : Nat)
  | disableInterface (core : Nat)
  | enableMask (bank : Nat) (w : UInt32)
  | disableGroups
  | powerDownCluster (word : UInt64)

def Event.isRead {κ : Type} : Event κ → Bool
  | read .. => true
  | _ => false

def Event.isTick {κ : Type} : Event κ → Bool
  | tick _ => true
  | _ => false

def Event.isEnclave {κ : Type} : Event κ → Bool
  | enclave _ => true
  | _ => false

def reads {κ : Type} (cells : List Cell) : List (Event κ) := cells.map fun x => .read x.1 x.2
def writes {κ : Type} (cells : List Cell) : List (Event κ) := cells.map fun x => .write x.1 x.2

@[simp] theorem writes_append {κ : Type} (xs ys : List Cell) :
    (writes (xs ++ ys) : List (Event κ)) = writes xs ++ writes ys := List.map_append

/-- What accesses yield after the given events, the core that the firmware runs on, and for how many
    rounds and how long a wait goes on. -/
structure Environment (κ : Type) where
  load : List (Event κ) → Nat → UInt32
  tick : List (Event κ) → UInt64
  manager : List (Event κ) → Request → Except ChannelError Response × List UInt32
  enclave : List (Event κ) → Request → Except ChannelError Response × List UInt32
  saveGic : List (Event κ) → κ → κ
  enableMask : List (Event κ) → Nat → UInt32
  core : Nat
  patience : Nat
  budget : PollBudget

/-- The events so far. -/
structure History {κ : Type} (env : Environment κ) where
  events : List (Event κ)

variable {κ : Type} {env : Environment κ}

def History.add (h : History env) (events : List (Event κ)) : History env := ⟨h.events ++ events⟩

@[simp] theorem History.events_add (h : History env) (L : List (Event κ)) : (h.add L).events = h.events ++ L := rfl

@[simp] theorem History.add_nil (h : History env) : h.add [] = h := by simp [add]

@[simp] theorem History.add_add (h : History env) (L M : List (Event κ)) : (h.add L).add M = h.add (L ++ M) := by
  simp [add]

theorem History.add_inj {h : History env} {L M : List (Event κ)} : h.add L = h.add M ↔ L = M := by
  rw [add, add, mk.injEq, List.append_cancel_left_eq]

/-- The firmware's operations access whole words; a byte counts as its word. -/
instance (env : Environment κ) : Machine (History env) where
  load a h := (env.load h.events a, h.add [.read a (env.load h.events a)])
  store a w h := h.add [.write a w]
  loadByte a h := ((env.load h.events a).toUInt8, h.add [.read a (env.load h.events a)])
  storeByte a b h := h.add [.write a b.toUInt32]
  tick h := (env.tick h.events, h.add [.tick (env.tick h.events)])
  note _ _ h := h
  patience _ := env.patience

namespace Environment

/-- A channel on which every request is answered in one go. -/
def channel (env : Environment κ) (maxArgs : Nat) (event : Exchange → Event κ)
    (answer : List (Event κ) → Request → Except ChannelError Response × List UInt32) : Channel (History env) where
  maxArgs := maxArgs
  transact request buffer := Run.access fun h =>
    (((answer h.events request).1, overlay (answer h.events request).2 buffer),
      h.add [event ⟨request, (answer h.events request).1, (answer h.events request).2⟩])

def gic (env : Environment κ) : InterruptController (History env) κ where
  save k := Run.access fun h => (env.saveGic h.events k, h.add [.saveGic (env.saveGic h.events k)])
  restore k := Run.update (·.add [.restoreGic k])
  initCore core := Run.update (·.add [.initCore core])
  enableInterface core := Run.update (·.add [.enableInterface core])
  disableInterface core := Run.update (·.add [.disableInterface core])
  enableMask bank := Run.access fun h =>
    (env.enableMask h.events bank, h.add [.enableMask bank (env.enableMask h.events bank)])
  disableGroups := Run.update (·.add [.disableGroups])

/-- The parts of the environment as a platform. -/
def platform (env : Environment κ) (region : DmaRegion (History env)) : Platform (History env) κ where
  manager := env.channel SharedMemory.maxWords .manager env.manager
  enclave := ⟨env.channel MessagingUnit.maxArgs .enclave env.enclave, region⟩
  gic := env.gic
  cpu := ⟨fun _ => env.core, fun word h => h.add [.powerDownCluster word], id⟩
  budget := env.budget

/-- After the given events the environment may yield what the event says. -/
def Yields (env : Environment κ) (events : List (Event κ)) : Event κ → Prop
  | .read a w => w = env.load events a
  | .tick t => t = env.tick events
  | .manager x => (x.outcome, x.payload) = env.manager events x.request
  | .enclave x => (x.outcome, x.payload) = env.enclave events x.request
  | .saveGic k => ∃ k₀, k = env.saveGic events k₀
  | .enableMask bank w => w = env.enableMask events bank
  | _ => True

/-- The events may follow one after the other. -/
def Allows (env : Environment κ) : List (Event κ) → List (Event κ) → Prop
  | _, [] => True
  | events, e :: L => env.Yields events e ∧ env.Allows (events ++ [e]) L

/-- A wait looked in every round that it could go on for, and if it has a limit found the clock short of
    it: the events end in a first reading of the clock, and then a look and a reading for each round. -/
def Endless (env : Environment κ) (L : List (Event κ)) : Prop :=
  ∃ before start rounds, L = before ++ .tick start :: rounds ∧ env.patience ≤ rounds.countP Event.isRead ∧
    ∀ most, env.budget.limit? = some most →
      env.patience ≤ rounds.countP Event.isTick ∧ ∀ t, .tick t ∈ rounds → elapsed start t < most

theorem allows_append {events L M : List (Event κ)} :
    env.Allows events (L ++ M) ↔ env.Allows events L ∧ env.Allows (events ++ L) M := by
  induction L generalizing events with
  | nil => simp [Allows]
  | cons e L ih => simp only [List.cons_append, Allows, ih, and_assoc, List.append_assoc, List.nil_append]

theorem Endless.append {L M : List (Event κ)} (h : env.Endless M) : env.Endless (L ++ M) := by
  obtain ⟨before, start, rounds, rfl, hrounds⟩ := h
  exact ⟨L ++ before, start, rounds, by simp, hrounds⟩

end Environment
end PowerFirmware
