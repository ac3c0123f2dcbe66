import Mathlib.Data.List.Basic
import PowerFirmware.Power.Wakeup

/-! The wakeup sources by the enables of the interrupt controller. Main statements: the peripherals held for
a suspend are those of the table whose line is enabled or that only need their clock, in the table's order
(`enter_mark`), and the wakeup domain is needed exactly if one of its lines is enabled
(`leavesWakeup_masksFor`). -/

namespace PowerFirmware.WakeupPolicy

variable {p : WakeupPolicy} {masks : List UInt32} {E : Nat → UInt32} {e q : WakeupPeripheral} {i : UInt32} {line : Nat}

/-- The bit that a line has in the word of its bank. -/
def lineBit (w : UInt32) (line : Nat) : Bool := w.toBitVec.getLsbD (line % 32)

/-- Whether a shared line is enabled. Bank `i` of shared lines is bank `i + 1` of the controller. -/
def lineEnabled (E : Nat → UInt32) (line : Nat) : Bool := lineBit (E (line / 32 + 1)) line

/-- The wake masks that fit the given enables. -/
def masksFor (E : Nat → UInt32) : List UInt32 := (List.range wakeBanks).map fun bank => ~~~E (bank + 1)

theorem isUnmasked_eq : isUnmasked masks line = lineBit (~~~masks.getD (line / 32) 0xffffffff) line := by
  have hlt : line % 32 < 32 := Nat.mod_lt _ (by decide)
  have hcount : (UInt32.ofNat (line % 32)).toBitVec % 32 = BitVec.ofNat 32 (line % 32) := by
    apply BitVec.eq_of_toNat_eq
    simp
    omega
  have hbit : ((1 : UInt32) <<< UInt32.ofNat (line % 32)).toBitVec = BitVec.twoPow 32 (line % 32) := by
    rw [UInt32.toBitVec_shiftLeft, hcount, BitVec.shiftLeft_eq', BitVec.toNat_ofNat,
      Nat.mod_eq_of_lt (by omega)]
    rfl
  rw [Bool.eq_iff_iff]
  simp only [isUnmasked, lineBit, beq_iff_eq, ← UInt32.toBitVec_inj, UInt32.toBitVec_and, hbit, BitVec.and_twoPow,
    UInt32.toBitVec_not, BitVec.getLsbD_not, hlt, decide_true, Bool.true_and]
  rcases hw : (masks.getD (line / 32) 0xffffffff).toBitVec.getLsbD (line % 32) with _ | _
  · simp
  · simp only [if_true, Bool.not_true, Bool.false_eq_true, iff_false]
    intro h
    have := congrArg (BitVec.getLsbD · (line % 32)) h
    simp [hlt] at this

theorem isUnmasked_masksFor (h : line / 32 < wakeBanks) : isUnmasked (masksFor E) line = lineEnabled E line := by
  rw [isUnmasked_eq, masksFor, List.getD_eq_getElem?_getD, List.getElem?_map, List.getElem?_range h]
  simp [lineEnabled]

theorem not_and_eq_iff (x y : UInt32) : ~~~x &&& y = y ↔ x &&& y = 0 := by
  rw [← UInt32.toBitVec_inj, ← UInt32.toBitVec_inj, BitVec.eq_of_getLsbD_eq_iff, BitVec.eq_of_getLsbD_eq_iff]
  refine forall₂_congr fun i hi => ?_
  simp only [UInt32.toBitVec_and, UInt32.toBitVec_not, BitVec.getLsbD_and, BitVec.getLsbD_not, hi]
  cases x.toBitVec.getLsbD i <;> cases y.toBitVec.getLsbD i <;> simp

/-- The wakeup domain is needed exactly if one of its lines is enabled. -/
theorem leavesWakeup_masksFor :
    leavesWakeup (masksFor E) = true ↔ ∃ bank < wakeBanks, E (bank + 1) &&& domainLines.getD bank 0 ≠ 0 := by
  have hzip : (masksFor E).zip domainLines =
      (List.range wakeBanks).map fun bank => (~~~E (bank + 1), domainLines.getD bank 0) := rfl
  rw [leavesWakeup, hzip, List.any_map, List.any_eq_true]
  simp only [List.mem_range, Function.comp_apply, bne_iff_ne, ne_eq, not_and_eq_iff]

/-! ### Marks -/

/-- The peripherals without their marks. -/
def cleared (p : WakeupPolicy) : List WakeupPeripheral := p.peripherals.map fun e => { e with active := false }

theorem cleared_mark : (p.mark masks).cleared = p.cleared := by
  simp only [cleared, mark, List.map_map]
  refine List.map_congr_left fun e _ => ?_
  cases h : e.line <;> simp [h]

theorem cleared_evaluate : (p.evaluate masks).cleared = p.cleared := rfl

theorem cleared_handshake {entering : Bool} : (p.handshake entering).2.cleared = p.cleared := by
  cases entering <;> simp [cleared, handshake, enter, leave]

/-- A peripheral as it is marked for a suspend. -/
def hold (masks : List UInt32) (e : WakeupPeripheral) : WakeupPeripheral :=
  { e with
    active := match e.line with
      | some line => isUnmasked masks line
      | none => true }

theorem peripherals_enter_mark : (p.mark masks).enter.2.peripherals = p.cleared.map (hold masks) := by
  simp only [enter, mark, cleared, List.map_map]
  refine List.map_congr_left fun e _ => ?_
  cases h : e.line <;> simp [hold, h]

/-- Whether a peripheral is held while the given lines are enabled. -/
def isHeld (E : Nat → UInt32) (q : WakeupPeripheral) : Bool :=
  match q.line with
  | some line => lineEnabled E line
  | none => true

/-- What is held while the given lines are enabled. -/
def heldInterfaces (E : Nat → UInt32) : List UInt32 := (table.filter (isHeld E)).map (·.interface)

theorem bank_lt (hq : q ∈ table) (h : q.line = some line) : line / 32 < wakeBanks := by
  have hall : ∀ q ∈ table, ∀ line ∈ q.line, line / 32 < wakeBanks := by decide
  exact hall q hq line h

theorem enter_mark (h : p.cleared = table) : (((p.mark (masksFor E)).evaluate (masksFor E)).handshake true).1 =
    (heldInterfaces E).map fun i => ⟨i, .onRunWaitStop⟩ := by
  have hheld : ∀ q ∈ table, (hold (masksFor E) q).active = isHeld E q := by
    intro q hq
    rcases hline : q.line with _ | line
    · simp only [hold, isHeld, hline]
    · simp only [hold, isHeld, hline, isUnmasked_masksFor (bank_lt hq hline)]
  show (((p.mark (masksFor E)).enter.2.peripherals.filter (·.active)).map fun e => _) = _
  rw [peripherals_enter_mark, h, List.filter_map, List.map_map, heldInterfaces, List.map_map]
  congr 1
  exact List.filter_congr hheld

/-! ### Active interfaces -/

theorem line_eq (h : p.cleared = table) (he : e ∈ p.peripherals) (hq : q ∈ table)
    (hinterface : e.interface = q.interface) : e.line = q.line := by
  have hall : ∀ a ∈ table, ∀ b ∈ table, a.interface = b.interface → a.line = b.line := by decide
  have hmem : { e with active := false } ∈ table := h ▸ List.mem_map_of_mem he
  exact hall _ hmem q hq hinterface

theorem exists_peripheral (h : p.cleared = table) (hq : q ∈ table) :
    ∃ e ∈ p.peripherals, e.interface = q.interface ∧ e.line = q.line := by
  rw [← h] at hq
  obtain ⟨e, he, rfl⟩ := List.mem_map.mp hq
  exact ⟨e, he, rfl, rfl⟩

theorem mem_activeInterfaces : i ∈ p.activeInterfaces ↔ ∃ e ∈ p.peripherals, e.active = true ∧ e.interface = i := by
  simp only [activeInterfaces, List.mem_map, List.mem_filter, and_assoc]

theorem length_activeInterfaces (h : p.cleared = table) : p.activeInterfaces.length ≤ table.length := by
  rw [activeInterfaces, List.length_map, ← h, cleared, List.length_map]
  exact List.length_filter_le _ _

/-- A peripheral with a line is active exactly if its line is unmasked. -/
theorem mem_mark_of_line (h : p.cleared = table) (hq : q ∈ table) (hline : q.line = some line) :
    q.interface ∈ (p.mark masks).activeInterfaces ↔ isUnmasked masks line = true := by
  rw [mem_activeInterfaces]
  constructor
  · rintro ⟨_, he', hactive, hinterface⟩
    obtain ⟨e, he, rfl⟩ := List.mem_map.mp he'
    have hi : e.interface = q.interface := by
      rw [← hinterface]
      cases e.line <;> rfl
    rw [line_eq h he hq hi, hline] at hactive
    exact hactive
  · intro hunmasked
    obtain ⟨e, he, hi, hl⟩ := exists_peripheral h hq
    refine ⟨_, List.mem_map_of_mem he, ?_, ?_⟩
    · simp only [hl, hline, hunmasked]
    · simp only [hl, hline, hi]

/-- A peripheral that only needs its clock keeps its mark. -/
theorem mem_mark_of_clock (h : p.cleared = table) (hq : q ∈ table) (hline : q.line = none) :
    q.interface ∈ (p.mark masks).activeInterfaces ↔ q.interface ∈ p.activeInterfaces := by
  rw [mem_activeInterfaces, mem_activeInterfaces]
  constructor
  · rintro ⟨_, he', hactive, hinterface⟩
    obtain ⟨e, he, rfl⟩ := List.mem_map.mp he'
    have hi : e.interface = q.interface := by
      rw [← hinterface]
      cases e.line <;> rfl
    rw [line_eq h he hq hi, hline] at hactive
    exact ⟨e, he, hactive, hi⟩
  · rintro ⟨e, he, hactive, hi⟩
    refine ⟨_, List.mem_map_of_mem he, ?_, ?_⟩
    · simp only [line_eq h he hq hi, hline, hactive]
    · simp only [line_eq h he hq hi, hline, hi]

/-- Holding marks what only needs its clock, and no other peripheral. -/
theorem mem_enter (h : p.cleared = table) (hq : q ∈ table) :
    q.interface ∈ p.enter.2.activeInterfaces ↔ q.interface ∈ p.activeInterfaces ∨ q.line = none := by
  rw [mem_activeInterfaces, mem_activeInterfaces]
  constructor
  · rintro ⟨_, he', hactive, hi⟩
    obtain ⟨e, he, rfl⟩ := List.mem_map.mp he'
    rcases Bool.or_eq_true_iff.mp hactive with hactive | hnone
    · exact .inl ⟨e, he, hactive, hi⟩
    · exact .inr ((line_eq h he hq hi).symm.trans (Option.isNone_iff_eq_none.mp hnone))
  · rintro (⟨e, he, hactive, hi⟩ | hnone)
    · exact ⟨_, List.mem_map_of_mem he, by simp only [hactive, Bool.true_or], hi⟩
    · obtain ⟨e, he, hi, hl⟩ := exists_peripheral h hq
      exact ⟨_, List.mem_map_of_mem he, by simp only [hl, hnone, Option.isNone_none, Bool.or_true], hi⟩

theorem enter_fst : p.enter.1 = p.enter.2.activeInterfaces.map fun i => ⟨i, .onRunWaitStop⟩ := by
  rw [activeInterfaces, List.map_map]
  rfl

theorem leave_fst : p.leave.1 = p.activeInterfaces.map fun i => ⟨i, .onAlways⟩ := by
  rw [activeInterfaces, List.map_map]
  rfl

/-- No request has more entries than there are peripherals. -/
theorem length_handshake_le {entering : Bool} (h : p.cleared = table) : (p.handshake entering).1.length ≤ table.length := by
  cases entering with
  | true =>
    have hcleared : (p.handshake true).2.cleared = table := cleared_handshake.trans h
    show p.enter.1.length ≤ _
    rw [enter_fst, List.length_map]
    exact length_activeInterfaces hcleared
  | false =>
    show p.leave.1.length ≤ _
    rw [leave_fst, List.length_map]
    exact length_activeInterfaces h

theorem activeInterfaces_leave : p.leave.2.activeInterfaces = [] := by
  simp [activeInterfaces, leave]

end PowerFirmware.WakeupPolicy
