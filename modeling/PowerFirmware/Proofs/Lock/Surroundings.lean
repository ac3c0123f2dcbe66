import PowerFirmware.Bench.RegisterFile
import PowerFirmware.Interrupt.ManagerLock

/-! What goes on around the processor while it changes CPU interfaces under the lock.

The flags of both sides are bytes of one word, and a write of one byte changes no other
(`Bench.RegisterFile.getByte_setByte_of_ne`). A site is a `Machine` whose registers take the processor's
accesses one at a time. Before each of them the manager may have written anything to its flag and to the turn,
and the operations of the interrupt controller are steps like the accesses. -/

namespace PowerFirmware
open Run

/-! ### Bytes of words -/

namespace Bench.RegisterFile
variable {f : RegisterFile} {a c i : Nat} {b : UInt8} {w : UInt32}

@[simp] theorem get_set_self : (f.set a w).get a = w := by
  simp [get, set]

theorem get_set_of_ne (h : c ≠ a) : (f.set a w).get c = f.get c := by
  simp [get, set, Std.HashMap.getD_insert, h.symm]

theorem toBitVec_shiftOf : (shiftOf a).toBitVec % 32 = BitVec.ofNat 32 (8 * (a % 4)) := by
  apply BitVec.eq_of_toNat_eq
  simp [shiftOf]
  omega

theorem toNat_shift : (BitVec.ofNat 32 (8 * (a % 4))).toNat = 8 * (a % 4) := by
  rw [BitVec.toNat_ofNat, Nat.mod_eq_of_lt (by omega)]

theorem getLsbD_getByte (hi : i < 8) :
    (f.getByte a).toBitVec.getLsbD i = (f.get (wordOf a)).toBitVec.getLsbD (8 * (a % 4) + i) := by
  simp only [getByte, UInt32.toBitVec_toUInt8, UInt32.toBitVec_shiftRight, toBitVec_shiftOf, BitVec.ushiftRight_eq',
    BitVec.getLsbD_setWidth, BitVec.getLsbD_ushiftRight, toNat_shift, hi, decide_true, Bool.true_and]

theorem getLsbD_setByte (hi : i < 32) : ((f.setByte a b).get (wordOf a)).toBitVec.getLsbD i =
    if 8 * (a % 4) ≤ i ∧ i < 8 * (a % 4) + 8 then b.toBitVec.getLsbD (i - 8 * (a % 4))
    else (f.get (wordOf a)).toBitVec.getLsbD i := by
  have hmask : UInt32.toBitVec 0xff = BitVec.setWidth 32 (BitVec.allOnes 8) := rfl
  simp only [setByte, get_set_self, UInt32.toBitVec_or, UInt32.toBitVec_and, UInt32.toBitVec_not,
    UInt32.toBitVec_shiftLeft, toBitVec_shiftOf, hmask, UInt8.toBitVec_toUInt32, BitVec.shiftLeft_eq',
    BitVec.getLsbD_or, BitVec.getLsbD_and, BitVec.getLsbD_not, BitVec.getLsbD_shiftLeft, BitVec.getLsbD_setWidth,
    BitVec.getLsbD_allOnes, toNat_shift, hi]
  by_cases hlow : 8 * (a % 4) ≤ i
  · by_cases hhigh : i < 8 * (a % 4) + 8
    · simp [hlow, hhigh, show i - 8 * (a % 4) < 8 by omega, show ¬i < 8 * (a % 4) by omega,
        show i - 8 * (a % 4) < 32 by omega]
    · have hbeyond : b.toBitVec.getLsbD (i - 8 * (a % 4)) = false := BitVec.getLsbD_of_ge _ _ (by omega)
      simp [hhigh, hbeyond, show ¬i - 8 * (a % 4) < 8 by omega, show ¬i < 8 * (a % 4) by omega]
  · simp [hlow, show i < 8 * (a % 4) by omega]

@[simp] theorem getByte_setByte_self : (f.setByte a b).getByte a = b := by
  apply UInt8.toBitVec_inj.mp
  apply BitVec.eq_of_getLsbD_eq
  intro i hi
  rw [getLsbD_getByte hi, getLsbD_setByte (by omega), if_pos (by omega), Nat.add_sub_cancel_left]

/-- Writing one byte changes no other, in the same word or in another. -/
theorem getByte_setByte_of_ne (h : c ≠ a) : (f.setByte a b).getByte c = f.getByte c := by
  apply UInt8.toBitVec_inj.mp
  apply BitVec.eq_of_getLsbD_eq
  intro i hi
  rw [getLsbD_getByte hi, getLsbD_getByte hi]
  by_cases hword : wordOf c = wordOf a
  · have hlane : c % 4 ≠ a % 4 := by
      simp only [wordOf] at hword
      omega
    rw [hword, getLsbD_setByte (by omega), if_neg (by omega)]
  · rw [setByte, get_set_of_ne hword]

theorem getByte_set_of_ne (h : wordOf c ≠ a) : (f.set a w).getByte c = f.getByte c := by
  rw [getByte, getByte, get_set_of_ne h]

end Bench.RegisterFile

/-! ### Around the lock -/

/-- What an interrupt controller can be told. -/
inductive InterruptController.Operation (κ : Type)
  | save (k : κ)
  | restore (k : κ)
  | initCore (core : Nat)
  | enableInterface (core : Nat)
  | disableInterface (core : Nat)
  | enableMask (bank : Nat)
  | disableGroups

namespace InterruptController.Operation
variable {σ κ : Type}

/-- The operation, apart from what it answers. -/
def on (gic : InterruptController σ κ) : Operation κ → Run σ Unit
  | save k => do let _ ← gic.save k
  | restore k => gic.restore k
  | initCore core => gic.initCore core
  | enableInterface core => gic.enableInterface core
  | disableInterface core => gic.disableInterface core
  | enableMask bank => do let _ ← gic.enableMask bank
  | disableGroups => gic.disableGroups

/-- Whether the operation changes the interface of a core. -/
def changesInterface : Operation κ → Bool
  | enableInterface _ | disableInterface _ => true
  | _ => false

end InterruptController.Operation

namespace ManagerLock
open InterruptController (Operation)

/-- One step of the processor, with what it yields. -/
inductive Step (κ : Type)
  | readByte (a : Nat) (b : UInt8)
  | read (a : Nat) (w : UInt32)
  | writeByte (a : Nat) (b : UInt8)
  | write (a : Nat) (w : UInt32)
  | tick (t : UInt64)
  | inner (op : Operation κ)

/-- What a step makes of the registers. -/
def Step.effect {κ : Type} : Step κ → Bench.RegisterFile → Bench.RegisterFile
  | writeByte a b, f => f.setByte a b
  | write a w, f => f.set a w
  | _, f => f

/-- What goes on around the processor, by all its steps so far: what the manager writes to its flag and to the
    turn before the next step, if it does, what the clock shows then, and what the interrupt controller answers;
    and for how many rounds a wait goes on. -/
structure Surroundings (κ : Type) where
  flag : List (Step κ) → Option UInt8
  turn : List (Step κ) → Option UInt32
  clock : List (Step κ) → UInt64
  saved : List (Step κ) → κ → κ
  enables : List (Step κ) → Nat → UInt32
  patience : Nat

/-- The registers, and the steps of the processor so far. -/
structure Site {κ : Type} (l : ManagerLock) (around : Surroundings κ) where
  registers : Bench.RegisterFile := {}
  steps : List (Step κ) := []

namespace Site
variable {κ : Type} {l : ManagerLock} {around : Surroundings κ}

/-- The registers as the next step of the processor finds them. -/
def presented (s : Site l around) : Bench.RegisterFile :=
  let f := (around.flag s.steps).elim s.registers (s.registers.setByte l.managerFlag)
  (around.turn s.steps).elim f (f.set l.turn)

def take (s : Site l around) (x : Step κ) : Site l around := ⟨x.effect s.presented, s.steps ++ [x]⟩

def after (s : Site l around) (L : List (Step κ)) : Site l around := L.foldl take s

/-- The step yields what is there. -/
def Yields (s : Site l around) : Step κ → Prop
  | .readByte a b => b = s.presented.getByte a
  | .read a w => w = s.presented.get a
  | .tick t => t = around.clock s.steps
  | _ => True

def Allows (s : Site l around) : List (Step κ) → Prop
  | [] => True
  | x :: L => s.Yields x ∧ (s.take x).Allows L

theorem after_append {s : Site l around} {L M : List (Step κ)} : s.after (L ++ M) = (s.after L).after M :=
  List.foldl_append

theorem steps_after {s : Site l around} {L : List (Step κ)} : (s.after L).steps = s.steps ++ L := by
  induction L generalizing s with
  | nil => exact (List.append_nil _).symm
  | cons x L ih => exact ih.trans (List.append_assoc _ _ _)

theorem allows_append {s : Site l around} {L M : List (Step κ)} :
    s.Allows (L ++ M) ↔ s.Allows L ∧ (s.after L).Allows M := by
  induction L generalizing s with
  | nil => exact (and_iff_right trivial).symm
  | cons x L ih => rw [List.cons_append, Allows, ih, Allows, and_assoc]; rfl

instance : Machine (Site l around) where
  load a s := (s.presented.get a, s.take (.read a (s.presented.get a)))
  store a w s := s.take (.write a w)
  loadByte a s := (s.presented.getByte a, s.take (.readByte a (s.presented.getByte a)))
  storeByte a b s := s.take (.writeByte a b)
  tick s := (around.clock s.steps, s.take (.tick (around.clock s.steps)))
  note _ _ s := s
  patience _ := around.patience

/-- An interrupt controller whose operations are steps of their own. -/
def gic : InterruptController (Site l around) κ where
  save k := access fun s => (around.saved s.steps k, s.take (.inner (.save k)))
  restore k := update (·.take (.inner (.restore k)))
  initCore core := update (·.take (.inner (.initCore core)))
  enableInterface core := update (·.take (.inner (.enableInterface core)))
  disableInterface core := update (·.take (.inner (.disableInterface core)))
  enableMask bank := access fun s => (around.enables s.steps bank, s.take (.inner (.enableMask bank)))
  disableGroups := update (·.take (.inner .disableGroups))

end Site

end ManagerLock
end PowerFirmware
