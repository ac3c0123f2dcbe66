import Mathlib.Logic.Function.Basic
import PowerFirmware.Interrupt.ManagerLock

/-! The lock in memory that the processor shares with the System Manager.

The manager takes the lock by the mirrored steps: it asks, gives the turn to the processor, and then
looks whether the processor asks and whose turn it is, until it may enter. Any number of its steps fall
between two accesses of the processor. A world is a `Machine`, so `ManagerLock.acquire` and
`ManagerLock.release` themselves run in it. -/

namespace PowerFirmware

/-! ### Words in bytes -/

namespace LittleEndian

/-- A byte of a word, put back where it was. -/
theorem getLsbD_byte (w : BitVec 32) {n i : Nat} (hi : i < 32) :
    ((((w >>> n).setWidth 8).setWidth 32) <<< n).getLsbD i = (decide (n ≤ i ∧ i < n + 8) && w.getLsbD i) := by
  rw [BitVec.getLsbD_shiftLeft, BitVec.getLsbD_setWidth, BitVec.getLsbD_setWidth, BitVec.getLsbD_ushiftRight]
  by_cases hn : n ≤ i
  · rw [Nat.add_sub_cancel' hn]
    by_cases hlt : i < n + 8
    · simp [hi, hn, hlt, Nat.sub_lt_left_of_lt_add hn hlt, show i - n < 32 by omega]
    · simp [hlt, show ¬i - n < 8 by omega]
  · simp [hn, Nat.lt_of_not_le hn]

theorem word_bytes (w : UInt32) : word (bytes w) = w := by
  have h8 : UInt32.toBitVec 8 % 32 = 8#32 := rfl
  have h16 : UInt32.toBitVec 16 % 32 = 16#32 := rfl
  have h24 : UInt32.toBitVec 24 % 32 = 24#32 := rfl
  have hlow {i : Nat} := getLsbD_byte w.toBitVec (n := 0) (i := i)
  rw [BitVec.ushiftRight_zero, BitVec.shiftLeft_zero] at hlow
  apply UInt32.toBitVec_inj.mp
  apply BitVec.eq_of_getLsbD_eq
  intro i hi
  simp only [word, bytes, List.getD_cons_zero, List.getD_cons_succ, UInt32.toBitVec_or, BitVec.getLsbD_or,
    UInt32.toBitVec_shiftLeft, UInt8.toBitVec_toUInt32, UInt32.toBitVec_toUInt8, UInt32.toBitVec_shiftRight,
    h8, h16, h24, BitVec.shiftLeft_eq', BitVec.ushiftRight_eq', BitVec.toNat_ofNat, hlow hi, getLsbD_byte _ hi,
    ← Bool.and_or_distrib_right]
  have hsome : (decide (0 ≤ i ∧ i < 0 + 8) || decide (8 % 2 ^ 32 ≤ i ∧ i < 8 % 2 ^ 32 + 8) ||
      decide (16 % 2 ^ 32 ≤ i ∧ i < 16 % 2 ^ 32 + 8) || decide (24 % 2 ^ 32 ≤ i ∧ i < 24 % 2 ^ 32 + 8)) = true := by
    simp only [Bool.or_eq_true, decide_eq_true_eq]
    omega
  rw [hsome, Bool.true_and]

end LittleEndian

/-- Memory of bytes without end. -/
abbrev Bytes := Nat → UInt8

namespace Bytes

def word (m : Bytes) (a : Nat) : UInt32 := LittleEndian.word [m a, m (a + 1), m (a + 2), m (a + 3)]

def put (m : Bytes) (a : Nat) (b : UInt8) : Bytes := Function.update m a b

def putWord (m : Bytes) (a : Nat) (w : UInt32) : Bytes :=
  fun i => if a ≤ i ∧ i < a + 4 then (LittleEndian.bytes w).getD (i - a) 0 else m i

variable {m n : Bytes} {a i : Nat} {b : UInt8} {w : UInt32}

@[simp] theorem put_self : m.put a b a = b := Function.update_self ..

theorem put_of_ne (h : i ≠ a) : m.put a b i = m i := Function.update_of_ne h ..

@[simp] theorem word_putWord_self : (m.putWord a w).word a = w := by
  have hbyte : ∀ j < 4, m.putWord a w (a + j) = (LittleEndian.bytes w).getD j 0 := by
    intro j hj
    rw [putWord, if_pos (by omega), Nat.add_sub_cancel_left]
  have hfirst : m.putWord a w a = (LittleEndian.bytes w).getD 0 0 := hbyte 0 (by decide)
  rw [word, hfirst, hbyte 1 (by decide), hbyte 2 (by decide), hbyte 3 (by decide)]
  exact LittleEndian.word_bytes w

theorem putWord_of_outside (h : i < a ∨ a + 4 ≤ i) : m.putWord a w i = m i := if_neg (by omega)

theorem word_congr (h : ∀ j < 4, m (a + j) = n (a + j)) : m.word a = n.word a := by
  have hfirst : m a = n a := h 0 (by decide)
  rw [word, word, hfirst, h 1 (by decide), h 2 (by decide), h 3 (by decide)]

theorem word_put_of_outside (h : i < a ∨ a + 4 ≤ i) : (m.put i b).word a = m.word a :=
  word_congr fun j hj => put_of_ne (by omega)

end Bytes

/-! ### The manager's side -/

namespace ManagerLock

/-- Where the System Manager is with the lock: it does not want it, it asks for it, it has given the turn
    away and waits, or it is in its critical section. -/
inductive Stage
  | idle
  | asking
  | waiting
  | critical
  deriving DecidableEq

/-- A step of the manager: it writes its flag, it writes the turn, it looks at the processor's flag or at
    the turn, or it withdraws its request, be it that it has had the lock or that it gives up. -/
inductive Move
  | ask
  | yield
  | lookFlag
  | lookTurn
  | leave

/-- The memory, where the manager is, what it does before each access of the processor and the time that a
    reading then shows, and the accesses so far. -/
structure World (l : ManagerLock) where
  memory : Bytes
  stage : Stage
  script : Nat → List Move
  clock : Nat → UInt64
  patience : Nat
  accesses : Nat := 0

namespace World
variable {l : ManagerLock}

def put (w : World l) (a : Nat) (b : UInt8) : World l := { w with memory := w.memory.put a b }

def putWord (w : World l) (a : Nat) (v : UInt32) : World l := { w with memory := w.memory.putWord a v }

def enter (w : World l) (stage : Stage) : World l := { w with stage }

@[simp] theorem stage_put {w : World l} {a : Nat} {b : UInt8} : (w.put a b).stage = w.stage := rfl

@[simp] theorem stage_putWord {w : World l} {a : Nat} {v : UInt32} : (w.putWord a v).stage = w.stage := rfl

@[simp] theorem memory_enter {w : World l} {stage : Stage} : (w.enter stage).memory = w.memory := rfl

@[simp] theorem stage_enter {w : World l} {stage : Stage} : (w.enter stage).stage = stage := rfl

/-- The world after a step of the manager. A step that is not due changes nothing. -/
def move (w : World l) : Move → World l
  | .ask => if w.stage = .idle then (w.put l.managerFlag 1).enter .asking else w
  | .yield => if w.stage = .asking then (w.putWord l.turn 1).enter .waiting else w
  | .lookFlag => if w.stage = .waiting ∧ w.memory l.ownFlag = 0 then w.enter .critical else w
  | .lookTurn => if w.stage = .waiting ∧ w.memory.word l.turn ≠ 1 then w.enter .critical else w
  | .leave => if w.stage = .waiting ∨ w.stage = .critical then (w.put l.managerFlag 0).enter .idle else w

/-- The manager's steps before the next access of the processor. -/
def interlude (w : World l) : World l :=
  let w' := (w.script w.accesses).foldl move w
  { w' with accesses := w.accesses + 1 }

/-- Nobody asks for the lock. Whose turn it is does not matter. -/
structure IsStart (w : World l) : Prop where
  managerFlag : w.memory l.managerFlag = 0
  ownFlag : w.memory l.ownFlag = 0
  stage : w.stage = .idle

end World

instance (l : ManagerLock) : Machine (World l) where
  load a w := (w.interlude.memory.word a, w.interlude)
  store a v w := w.interlude.putWord a v
  loadByte a w := (w.interlude.memory a, w.interlude)
  storeByte a b w := w.interlude.put a b
  tick w := (w.clock w.accesses, w.interlude)
  note _ _ w := w
  patience w := w.patience

/-- The bytes of the lock: the flags and the turn. -/
def Covers (l : ManagerLock) (a : Nat) : Prop :=
  a = l.managerFlag ∨ a = l.ownFlag ∨ l.turn ≤ a ∧ a < l.turn + 4

/-- Worlds outside the processor's operations, and whether it then holds the lock. The manager may go on at
    any time, and anything may change meanwhile but the lock and where the manager is. -/
inductive Reachable (l : ManagerLock) : Bool → World l → Prop
  | start {w : World l} : w.IsStart → Reachable l false w
  | move {held : Bool} {w : World l} (m : Move) : Reachable l held w → Reachable l held (w.move m)
  | aside {held : Bool} {w t : World l} : Reachable l held w → (∀ a, l.Covers a → t.memory a = w.memory a) →
      t.stage = w.stage → Reachable l held t
  | acquired {w t : World l} {budget : PollBudget} : Reachable l false w →
      l.acquire budget w = (.ok (.ok ()), t) → Reachable l true t
  | gaveUp {w t : World l} {budget : PollBudget} {e : PollTimeout} : Reachable l false w →
      l.acquire budget w = (.ok (.error e), t) → Reachable l false t
  | released {w t : World l} : Reachable l true w → l.release w = (.ok (), t) → Reachable l false t

end ManagerLock
end PowerFirmware
