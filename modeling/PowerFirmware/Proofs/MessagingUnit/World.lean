import PowerFirmware.Channel.MessagingUnit
import PowerFirmware.Enclave.Basic
import PowerFirmware.Proofs.Cells

/-! A processor and an enclave with one messaging unit between them.

The enclave answers every request, one at a time and in order, and works in steps of its own, of which any
number fall between two accesses of the processor. It latches an answer whenever it likes once it has been
asked and the header and the status of the answer before have been read, also after the processor has given
up waiting; and it writes to the memory it shares with the processor whenever it likes.

A world is a `Machine`, so the enclave's commands themselves run in it, and it remembers every status that
was read, for which request and out of which answer. -/

namespace PowerFirmware
namespace MessagingUnit

def receiveCount : Nat := 8

/-- A status that was read: the number of the request that had been made last, the number of the answer
    that it was read out of, and the status itself. Requests and answers are counted from one, and an
    answer belongs to the request of its number. -/
structure Taking where
  request : Nat
  answer : Nat
  status : UInt32
  deriving DecidableEq, Repr

/-- The registers of the unit, which receive registers hold a word that has not been read, the memory that
    the enclave shares, the requests that have been made, the answers that have been latched, and the
    statuses that have been read. -/
structure Scene where
  words : Nat → UInt32
  unread : Nat → Bool
  memory : Nat → UInt8
  asked : List UInt32
  answers : List (List UInt32)
  taken : List Taking

/-- A step of the enclave: it latches an answer, or writes a byte to memory. -/
inductive Move
  | latch (ws : List UInt32)
  | deliver (i : Nat) (b : UInt8)

/-- The status word: a bit for every receive register that holds a word that has not been read. -/
def statusWord (unread : Nat → Bool) : UInt32 :=
  ((List.range receiveCount).map fun i => if unread i then (1 : UInt32) <<< UInt32.ofNat i else 0).foldr (· ||| ·) 0

namespace Scene

/-- An answer is latched if a request has none yet and no header and no status is left to be read, and it
    has at least these two words. -/
def mayLatch (s : Scene) (ws : List UInt32) : Bool :=
  s.answers.length < s.asked.length && !s.unread 0 && !s.unread 1 && 2 ≤ ws.length && ws.length ≤ receiveCount

/-- The scene after a step of the enclave. A step that is not due changes nothing. -/
def move (u : MessagingUnit) (s : Scene) : Move → Scene
  | .latch ws =>
    if s.mayLatch ws then
      { s with
        words := Cells.overwrite s.words (Cells.adjacent (u.receive 0) ws)
        unread := fun i => i < ws.length || s.unread i
        answers := s.answers ++ [ws] }
    else s
  | .deliver i b => { s with memory := Function.update s.memory i b }

/-- The word at an address as a load finds it. -/
def word (u : MessagingUnit) (s : Scene) (a : Nat) : UInt32 :=
  if a = u.receiveStatus then statusWord s.unread else s.words a

/-- The scene after a load, which consumes the word of a receive register. -/
def load (u : MessagingUnit) (a : Nat) (s : Scene) : Scene :=
  { s with
    unread := fun i => s.unread i && a != u.receive i
    taken := if a = u.receive 1 then s.taken ++ [⟨s.asked.length, s.answers.length, s.word u a⟩] else s.taken }

/-- The scene after a store. A word in the first transmit register is a request. -/
def store (u : MessagingUnit) (a : Nat) (w : UInt32) (s : Scene) : Scene :=
  { s with
    words := Function.update s.words a w
    asked := if a = u.transmit 0 then s.asked ++ [w] else s.asked }

end Scene

/-- The scene, what the enclave does before each access of the processor and the time that a reading of the
    clock then shows, and the accesses so far. -/
structure World (u : MessagingUnit) where
  scene : Scene
  script : Nat → List Move
  clock : Nat → UInt64
  patience : Nat
  accesses : Nat := 0

namespace World
variable {u : MessagingUnit}

/-- The enclave takes its turn. -/
def turn (w : World u) : World u :=
  { w with scene := (w.script w.accesses).foldl (Scene.move u) w.scene, accesses := w.accesses + 1 }

/-- Nothing has been asked, and no answer stands in the receive registers. -/
structure IsStart (w : World u) : Prop where
  asked : w.scene.asked = []
  answers : w.scene.answers = []
  taken : w.scene.taken = []
  header : w.scene.unread 0 = false
  status : w.scene.unread 1 = false

end World

/-- The enclave takes its turn before each access of the processor. The unit is accessed by whole words,
    and a byte counts as its word. -/
instance (u : MessagingUnit) : Machine (World u) where
  load a w := (w.turn.scene.word u a, { w.turn with scene := w.turn.scene.load u a })
  store a v w := { w.turn with scene := w.turn.scene.store u a v }
  loadByte a w := ((w.turn.scene.word u a).toUInt8, { w.turn with scene := w.turn.scene.load u a })
  storeByte a b w := { w.turn with scene := w.turn.scene.store u a b.toUInt32 }
  tick w := (w.clock w.accesses, w.turn)
  note _ _ w := w
  patience w := w.patience

/-- The enclave behind the unit, with coherent memory of the given size. -/
def World.enclave (u : MessagingUnit) (busAddress : UInt64) (size : Nat) : Enclave (World u) where
  channel := u.channel
  region :=
    { busAddress, size, prepare := id, complete := id, bytes := fun w => Vector.ofFn fun i => w.scene.memory i }

/-- A command to the enclave, and how it ended. -/
structure Call where
  opcode : UInt32
  outcome : Except Enclave.Error (List UInt32)

/-- Commands one after the other, whatever the last one returned. -/
inductive Course {u : MessagingUnit} (e : Enclave (World u)) (start : World u) : List Call → World u → Prop
  | nil : Course e start [] start
  | snoc {calls : List Call} {w t : World u} {opcode : UInt32} {args : List UInt32} {n : Nat}
      {outcome : Except Enclave.Error (Vector UInt32 n)} :
      Course e start calls w → e.command opcode args n w = (.ok outcome, t) →
      Course e start (calls ++ [⟨opcode, outcome.map Vector.toList⟩]) t

end MessagingUnit
end PowerFirmware
