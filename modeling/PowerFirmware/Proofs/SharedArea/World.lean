import PowerFirmware.Channel.SharedMemory
import PowerFirmware.Proofs.Cells

/-! An agent and a platform that take turns in one shared area.

The platform works in steps of its own, of which any number fall between two accesses of the agent. It
begins to answer a doorbell whenever it likes, also after the agent has given up waiting; while it
answers it writes what it likes in any order, and it sets the free bit last, when its reply stands in
the area. At all other times it leaves the area alone.

A world is a `Machine`, so `SharedMemory.transact` itself runs in it, and it remembers every scene that
it went through together with what happened next. -/

namespace PowerFirmware
namespace SharedMemory

/-! ### The area and its messages -/

/-- The area ends with the payload. -/
def InArea (c : SharedMemory) (a : Nat) : Prop := c.area ≤ a ∧ a < c.payload maxWords

/-- Flags, length, header and payload: the words that requests are written to. -/
def InMessage (c : SharedMemory) (a : Nat) : Prop := c.flags ≤ a ∧ a < c.payload maxWords

instance (c : SharedMemory) (a : Nat) : Decidable (c.InArea a) := inferInstanceAs (Decidable (_ ∧ _))

/-- The free bit of the area is set. -/
def Free (c : SharedMemory) (m : Nat → UInt32) : Prop := m c.status &&& freeBit ≠ 0

/-- The words of a request, its length word included. -/
def requestCells (c : SharedMemory) (q : Request) : List Cell :=
  (c.length, UInt32.ofNat (4 * (1 + q.args.length))) :: (c.header, q.opcode) ::
    Cells.adjacent (c.payload 0) q.args

/-- What the platform leaves in the area: the status word of the area, which frees it, the length and
    header words, and the words from the response's status on, as many as the length announces. -/
structure Reply where
  channelStatus : UInt32
  length : UInt32
  header : UInt32
  words : List UInt32
  frees : channelStatus &&& freeBit ≠ 0
  covers : min (length.toNat / 4) (1 + maxWords) ≤ 1 + words.length
  fits : words.length ≤ maxWords

/-- The payload that the length announces, after header and status. -/
def Reply.payload (r : Reply) : List UInt32 :=
  (r.words.drop 1).take (min (r.length.toNat / 4) (1 + maxWords) - 2)

def replyCells (c : SharedMemory) (r : Reply) : List Cell :=
  (c.length, r.length) :: (c.header, r.header) :: Cells.adjacent (c.payload 0) r.words

instance (cells : List Cell) (m : Nat → UInt32) : Decidable (Cells.Stand cells m) :=
  inferInstanceAs (Decidable (∀ x ∈ cells, _))

/-! ### Scenes -/

/-- A doorbell: the number of the call that rang it, and what the call asks for. -/
structure Ring where
  call : Nat
  request : Request
  deriving DecidableEq, Repr

/-- The memory, the doorbells that have not been answered with the oldest first, whether the oldest is
    being answered, and all answers so far. -/
structure Scene where
  memory : Nat → UInt32
  unanswered : List Ring
  answering : Bool
  answers : List (Ring × Reply)

/-- A step of the platform: it begins to answer, writes a word, or is done with its reply. -/
inductive Move
  | begin
  | put (a : Nat) (w : UInt32)
  | release (r : Reply)

/-- What happens next in a scene. -/
inductive Action
  | load (a : Nat)
  | store (a : Nat) (w : UInt32)
  | tick
  | move (m : Move)

namespace Scene

/-- The platform writes into the area only while it answers, and does not free it by the way. -/
def mayPut (c : SharedMemory) (s : Scene) (a : Nat) (w : UInt32) : Bool :=
  if s.answering then a != c.status || w &&& freeBit == 0 else !decide (c.InArea a)

/-- The scene after a step of the platform. A step that is not due changes nothing. -/
def move (c : SharedMemory) (s : Scene) : Move → Scene
  | .begin => { s with answering := !s.unanswered.isEmpty }
  | .put a w => if s.mayPut c a w then { s with memory := Function.update s.memory a w } else s
  | .release r =>
    match s.unanswered with
    | [] => s
    | ring :: rest =>
      if s.answering && decide (Cells.Stand (c.replyCells r) s.memory) then
        { memory := Function.update s.memory c.status r.channelStatus, unanswered := rest,
          answering := false, answers := s.answers ++ [(ring, r)] }
      else s

/-- The scene after the agent has written a word on behalf of the call of `ring`. -/
def store (c : SharedMemory) (ring : Ring) (a : Nat) (w : UInt32) (s : Scene) : Scene :=
  { s with
    memory := Function.update s.memory a w
    unanswered := if a = c.doorbell ∧ w &&& ringBit ≠ 0 then s.unanswered ++ [ring] else s.unanswered }

def after (c : SharedMemory) (ring : Ring) (s : Scene) : Action → Scene
  | .load _ | .tick => s
  | .store a w => s.store c ring a w
  | .move m => s.move c m

end Scene

/-! ### Worlds -/

/-- The scene, the call that the agent is in, what the platform does before each access of the agent
    and the time that a reading then shows, the accesses so far, and every past scene with what
    happened next in it. -/
structure World (c : SharedMemory) where
  scene : Scene
  ring : Ring
  script : Nat → List Move
  clock : Nat → UInt64
  patience : Nat
  accesses : Nat := 0
  past : List (Scene × Action) := []

namespace World
variable {c : SharedMemory}

def act (w : World c) (x : Action) : World c :=
  { w with scene := w.scene.after c w.ring x, past := w.past ++ [(w.scene, x)] }

/-- The platform takes its turn. -/
def turn (w : World c) : World c :=
  let w' := (w.script w.accesses).foldl (fun w m => w.act (.move m)) w
  { w' with accesses := w.accesses + 1 }

/-- The agent begins its next call. -/
def begin (w : World c) (q : Request) : World c := { w with ring := ⟨w.ring.call + 1, q⟩ }

/-- The area is free, no doorbell has been rung, and nothing has happened yet. -/
structure IsStart (w : World c) : Prop where
  free : c.Free w.scene.memory
  silent : w.scene.unanswered = []
  idle : w.scene.answering = false
  fresh : w.scene.answers = []
  new : w.past = []

end World

/-- The platform takes its turn before each access of the agent. An agent of a shared area accesses
    whole words only, and a byte counts as its word. -/
instance (c : SharedMemory) : Machine (World c) where
  load a w := (w.turn.scene.memory a, w.turn.act (.load a))
  store a v w := w.turn.act (.store a v)
  loadByte a w := ((w.turn.scene.memory a).toUInt8, w.turn.act (.load a))
  storeByte a b w := w.turn.act (.store a b.toUInt32)
  tick w := (w.clock w.accesses, w.turn.act .tick)
  note _ _ w := w
  patience w := w.patience

/-- Worlds between two calls of the agent: any call may follow, whatever the last one returned. -/
inductive Reachable (c : SharedMemory) : World c → Prop
  | start {w : World c} : w.IsStart → Reachable c w
  | call {w t : World c} {n : Nat} {q : Request} {buffer : Vector UInt32 n} {d : Delivery n} :
      Reachable c w → c.transact q buffer (w.begin q) = (.ok d, t) → Reachable c t

end SharedMemory
end PowerFirmware
