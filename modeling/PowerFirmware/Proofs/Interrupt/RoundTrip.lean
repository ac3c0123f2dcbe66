import PowerFirmware.Interrupt.Frames
import PowerFirmware.Proofs.Encoding
import PowerFirmware.Proofs.Registers
import PowerFirmware.Proofs.Suspend.Contents

/-! What saving and restoring the frames of an interrupt controller does to plain registers. Main statement:
a restore, whichever of its waits are in vain, brings back what was saved and nothing else, and touches
lines only while their groups are disabled (`save_restore`). -/

namespace PowerFirmware.InterruptFrames
open Cells Run LittleEndian

variable {κ : Type} {env : Environment κ} {masksOf : κ → Nat → UInt32} {m : Contents} {f : InterruptFrames}
variable {n : Nat → UInt32} {a i : Nat} {x : Cell} {d : DistributorImage}

/-! ### Frames -/

def InDistributor (f : InterruptFrames) (a : Nat) : Prop := f.distributor ≤ a ∧ a < f.distributor + 0x8000
def InCore (f : InterruptFrames) (i a : Nat) : Prop := f.core i ≤ a ∧ a < f.core i + 0x20000

/-- The distributor lies before or after all redistributors. -/
def Apart (f : InterruptFrames) : Prop :=
  f.distributor + 0x8000 ≤ f.redistributors ∨ f.redistributors + 0x20000 * f.cores ≤ f.distributor

theorem Apart.not_inDistributor (h : f.Apart) (hi : i < f.cores) (ha : f.InCore i a) : ¬f.InDistributor a := by
  simp only [Apart, InCore, InDistributor, core] at *
  omega

theorem InCore.unique {j : Nat} (hi : f.InCore i a) (hj : f.InCore j a) : i = j := by
  simp only [InCore, core] at hi hj
  omega

/-- The registers of shared lines that are saved, by line, bank and register number. -/
inductive Shared (f : InterruptFrames) : Nat → Prop
  | group {bank : Nat} : 1 ≤ bank → bank < 16 → Shared f (f.group bank)
  | modifier {bank : Nat} : 1 ≤ bank → bank < 16 → Shared f (f.modifier bank)
  | enable {bank : Nat} : 1 ≤ bank → bank < 16 → Shared f (f.enable bank)
  | trigger {i : Nat} : 2 ≤ i → i < 32 → Shared f (f.trigger i)
  | priority {i : Nat} : 8 ≤ i → i < 128 → Shared f (f.priority i)
  | routeLow {line : Nat} : 32 ≤ line → line < 512 → Shared f (f.route line)
  | routeHigh {line : Nat} : 32 ≤ line → line < 512 → Shared f (f.route line + 4)

/-- The registers of a redistributor that are saved. -/
inductive Private (f : InterruptFrames) (i : Nat) : Nat → Prop
  | control : Private f i (f.coreControl i)
  | group : Private f i (f.coreGroup i)
  | modifier : Private f i (f.coreModifier i)
  | enable : Private f i (f.coreEnable i)
  | trigger {k : Nat} : k < 2 → Private f i (f.coreTrigger i k)
  | priority {k : Nat} : k < 8 → Private f i (f.corePriority i k)

def Saved (f : InterruptFrames) (a : Nat) : Prop := a = f.control ∨ f.Shared a ∨ ∃ i < f.cores, f.Private i a

theorem inDistributor_control : f.InDistributor f.control := by
  simp only [InDistributor, control]
  omega

theorem Shared.range (h : f.Shared a) : f.distributor < a ∧ a < f.distributor + 0x8000 := by
  cases h <;> simp only [InterruptFrames.group, InterruptFrames.modifier, InterruptFrames.enable,
    InterruptFrames.trigger, InterruptFrames.priority, InterruptFrames.route] <;> omega

theorem Shared.inDistributor (h : f.Shared a) : f.InDistributor a := ⟨Nat.le_of_lt h.range.1, h.range.2⟩

theorem Shared.ne_control (h : f.Shared a) : a ≠ f.control := Nat.ne_of_gt h.range.1

theorem inCore_coreDisable : f.InCore i (f.coreDisable i) := by
  simp only [InCore, coreDisable]
  omega

theorem Private.inCore (h : f.Private i a) : f.InCore i a := by
  cases h <;> simp only [InCore, coreControl, coreGroup, coreModifier, coreEnable, coreTrigger, corePriority] <;> omega

theorem Private.ne_coreDisable (h : f.Private i a) : a ≠ f.coreDisable i := by
  cases h <;> simp only [coreControl, coreGroup, coreModifier, coreEnable, coreTrigger, corePriority, coreDisable] <;> omega

theorem Saved.ne_coreDisable (h : f.Saved a) (hapart : f.Apart) (hi : i < f.cores) : a ≠ f.coreDisable i := by
  rintro rfl
  have hout := hapart.not_inDistributor hi inCore_coreDisable
  rcases h with h | h | ⟨j, hj, h⟩
  · exact hout (h ▸ inDistributor_control)
  · exact hout h.inDistributor
  · obtain rfl := h.inCore.unique inCore_coreDisable
    exact h.ne_coreDisable rfl

/-! ### Saving -/

def bankOf (f : InterruptFrames) (n : Nat → UInt32) (bank : Nat) : BankImage :=
  ⟨n (f.group bank), n (f.modifier bank), n (f.enable bank)⟩

def distributorOf (f : InterruptFrames) (n : Nat → UInt32) : DistributorImage where
  control := n f.control
  banks := (List.range sharedBanks).map fun i => f.bankOf n (i + 1)
  triggers := (List.range sharedTriggers).map fun i => n (f.trigger (i + 2))
  priorities := (List.range sharedPriorities).map fun i => n (f.priority (i + 8))
  routes := (List.range sharedRoutes).map fun i => ofHalves (n (f.route (i + 32))) (n (f.route (i + 32) + 4))

def coreOf (f : InterruptFrames) (n : Nat → UInt32) (i : Nat) : RedistributorImage where
  control := n (f.coreControl i)
  bank := ⟨n (f.coreGroup i), n (f.coreModifier i), n (f.coreEnable i)⟩
  triggers := (List.range 2).map fun k => n (f.coreTrigger i k)
  priorities := (List.range 8).map fun k => n (f.corePriority i k)

/-- The image of frames whose registers hold `n`. -/
def imageOf (f : InterruptFrames) (n : Nat → UInt32) : Image where
  distributor := f.distributorOf n
  redistributors := (List.range f.cores).map (f.coreOf n)

section Saving
variable (hplain : env.Plain masksOf m)
include hplain

theorem finds_saveBank {bank : Nat} : Finds (E := env) masksOf m (f.saveBank bank) (f.bankOf · bank) :=
  .bind (.read hplain) fun _ => .bind (.read hplain) fun _ => .bind (.read hplain) fun _ => .pure

theorem finds_saveDistributor : Finds (E := env) masksOf m f.saveDistributor f.distributorOf := by
  have htriggers : ∀ n : Nat → UInt32, ((List.range sharedTriggers).map fun i => n (f.trigger 2 + 4 * i)) =
      (List.range sharedTriggers).map fun i => n (f.trigger (i + 2)) := fun n =>
    List.map_congr_left fun i _ => congrArg n (by simp only [trigger]; omega)
  have hpriorities : ∀ n : Nat → UInt32, ((List.range sharedPriorities).map fun i => n (f.priority 8 + 4 * i)) =
      (List.range sharedPriorities).map fun i => n (f.priority (i + 8)) := fun n =>
    List.map_congr_left fun i _ => congrArg n (by simp only [priority]; omega)
  exact .bind (.read hplain) fun _ => .bind (.mapM (fun _ => finds_saveBank hplain) _) fun _ =>
    .bind ((Finds.readWords hplain).congr htriggers) fun _ =>
    .bind ((Finds.readWords hplain).congr hpriorities) fun _ =>
    .bind (.mapM (fun _ => .readDouble hplain) _) fun _ => .pure

theorem finds_saveCore : Finds (E := env) masksOf m (f.saveCore i) (f.coreOf · i) :=
  .bind (.read hplain) fun _ => .bind (.read hplain) fun _ => .bind (.read hplain) fun _ => .bind (.read hplain) fun _ =>
    .bind (.readWords hplain) fun _ => .bind (.readWords hplain) fun _ => .pure

theorem finds_save : Finds (E := env) masksOf m f.save f.imageOf :=
  .bind (finds_saveDistributor hplain) fun _ => .bind (.mapM (fun _ => finds_saveCore hplain) _) fun _ =>
    .bind .log fun _ => .pure

end Saving

/-! ### Restoring -/

/-- The registers of shared lines in the order in which they are written. -/
def sharedRegisters (f : InterruptFrames) : List Nat :=
  (List.range sharedBanks).flatMap (fun i => [f.group (i + 1), f.modifier (i + 1)]) ++
    ((List.range sharedTriggers).map (fun i => f.trigger (i + 2)) ++
    ((List.range sharedPriorities).map (fun i => f.priority (i + 8)) ++
    ((List.range sharedRoutes).flatMap (fun i => [f.route (i + 32), f.route (i + 32) + 4]) ++
    (List.range sharedBanks).map fun i => f.enable (i + 1))))

def sharedCells (f : InterruptFrames) (d : DistributorImage) : List Cell :=
  (List.range sharedBanks).flatMap (fun i => [(f.group (i + 1), (d.banks.getD i ⟨0, 0, 0⟩).group),
      (f.modifier (i + 1), (d.banks.getD i ⟨0, 0, 0⟩).modifier)]) ++
    ((List.range sharedTriggers).map (fun i => (f.trigger (i + 2), d.triggers.getD i 0)) ++
    ((List.range sharedPriorities).map (fun i => (f.priority (i + 8), d.priorities.getD i 0)) ++
    ((List.range sharedRoutes).flatMap (fun i => [(f.route (i + 32), (d.routes.getD i 0).toUInt32),
      (f.route (i + 32) + 4, (d.routes.getD i 0 >>> 32).toUInt32)]) ++
    (List.range sharedBanks).map fun i => (f.enable (i + 1), (d.banks.getD i ⟨0, 0, 0⟩).enable))))

/-- The registers of a redistributor in the order in which they are written. -/
def privateRegisters (f : InterruptFrames) (i : Nat) : List Nat :=
  [f.coreGroup i, f.coreModifier i] ++ ((List.range 2).map (f.coreTrigger i) ++
    ((List.range 8).map (f.corePriority i) ++ [f.coreEnable i, f.coreControl i]))

def privateCells (f : InterruptFrames) (i : Nat) (r : RedistributorImage) : List Cell :=
  [(f.coreGroup i, r.bank.group), (f.coreModifier i, r.bank.modifier)] ++
    ((List.range 2).map (fun k => (f.coreTrigger i k, r.triggers.getD k 0)) ++
    ((List.range 8).map (fun k => (f.corePriority i k, r.priorities.getD k 0)) ++
    [(f.coreEnable i, r.bank.enable), (f.coreControl i, r.control)]))

/-- What is written from when all private lines of a core are disabled. -/
def coreCells (f : InterruptFrames) (image : Image) (i : Nat) : List Cell :=
  (f.coreDisable i, 0xffffffff) :: f.privateCells i (image.redistributors.getD i {})

/-- What is written from when the groups are enabled again. -/
def enabledCells (f : InterruptFrames) (image : Image) : List Cell :=
  (f.control, image.distributor.control) :: (List.range f.cores).flatMap (f.coreCells image)

/-- What is written once the groups are disabled. -/
def settledCells (f : InterruptFrames) (image : Image) : List Cell :=
  f.sharedCells image.distributor ++ f.enabledCells image

def restoredCells (f : InterruptFrames) (image : Image) : List Cell :=
  (f.control, image.distributor.control &&& ~~~groupEnables) :: f.settledCells image

section Restoring
variable (hbudget : f.budget = env.budget)
include hbudget

theorem writes_settle {mask : UInt32} {complaint : String} :
    Writes (E := env) (f.settle (bitsClear a mask) complaint) [] := by
  have hpoll : Writes (E := env) (pollUntil f.budget (bitsClear a mask)) [] := by
    rw [hbudget]
    exact .poll
  refine .bind hpoll fun r => ?_
  cases r with
  | ok _ => exact .pure
  | error _ => exact .log

theorem writes_restoreDistributor {d : DistributorImage} : Writes (E := env) (f.restoreDistributor d)
    ((f.control, d.control &&& ~~~groupEnables) :: (f.sharedCells d ++ [(f.control, d.control)])) := by
  have hbanks : ∀ i, Writes (E := env)
      (do write32 (f.group (i + 1)) (d.banks.getD i ⟨0, 0, 0⟩).group
          write32 (f.modifier (i + 1)) (d.banks.getD i ⟨0, 0, 0⟩).modifier)
      [(f.group (i + 1), (d.banks.getD i ⟨0, 0, 0⟩).group),
        (f.modifier (i + 1), (d.banks.getD i ⟨0, 0, 0⟩).modifier)] := fun i => .bind .write fun _ => .write
  refine Writes.congr (.bind .write fun _ => .bind (writes_settle hbudget) fun _ => .bind (.forM hbanks _) fun _ =>
    .bind (.each (fun _ => .write) _) fun _ => .bind (.each (fun _ => .write) _) fun _ =>
    .bind (.forM (fun _ => .writeDouble) _) fun _ => .bind (.each (fun _ => .write) _) fun _ =>
    .bind .write fun _ => writes_settle hbudget) ?_
  simp only [sharedCells, List.nil_append, List.append_nil, List.append_assoc, List.cons_append]

theorem writes_restoreCore {r : RedistributorImage} : Writes (E := env) (f.restoreCore i r)
    ((f.coreDisable i, 0xffffffff) :: f.privateCells i r) := by
  refine Writes.congr (.bind .write fun _ => .bind (writes_settle hbudget) fun _ => .bind .write fun _ =>
    .bind .write fun _ => .bind (.each (fun _ => .write) _) fun _ => .bind (.each (fun _ => .write) _) fun _ =>
    .bind .write fun _ => .bind .write fun _ => writes_settle hbudget) ?_
  simp only [privateCells, List.nil_append, List.append_nil, List.cons_append]

theorem writes_restore {image : Image} : Writes (E := env) (f.restore image) (f.restoredCells image) := by
  refine Writes.congr (.bind (writes_restoreDistributor hbudget) fun _ =>
    .bind (.forM (fun _ => writes_restoreCore hbudget) _) fun _ => .log) ?_
  simp only [restoredCells, settledCells, enabledCells, List.append_nil, List.append_assoc, List.cons_append]
  rfl

end Restoring

/-! ### What is written -/

theorem mem_sharedRegisters : a ∈ f.sharedRegisters ↔ f.Shared a := by
  simp only [sharedRegisters, List.mem_append, List.mem_flatMap, List.mem_map, List.mem_range, List.mem_cons,
    List.not_mem_nil, or_false, sharedBanks, sharedTriggers, sharedPriorities, sharedRoutes]
  constructor
  · rintro (⟨i, hi, rfl | rfl⟩ | ⟨i, hi, rfl⟩ | ⟨i, hi, rfl⟩ | ⟨i, hi, rfl | rfl⟩ | ⟨i, hi, rfl⟩)
    · exact .group (by omega) (by omega)
    · exact .modifier (by omega) (by omega)
    · exact .trigger (by omega) (by omega)
    · exact .priority (by omega) (by omega)
    · exact .routeLow (by omega) (by omega)
    · exact .routeHigh (by omega) (by omega)
    · exact .enable (by omega) (by omega)
  · intro h
    cases h with
    | @group bank h h' => exact .inl ⟨bank - 1, by omega, .inl (by rw [Nat.sub_add_cancel h])⟩
    | @modifier bank h h' => exact .inl ⟨bank - 1, by omega, .inr (by rw [Nat.sub_add_cancel h])⟩
    | @trigger i h h' => exact .inr (.inl ⟨i - 2, by omega, by rw [Nat.sub_add_cancel h]⟩)
    | @priority i h h' => exact .inr (.inr (.inl ⟨i - 8, by omega, by rw [Nat.sub_add_cancel h]⟩))
    | @routeLow line h h' =>
      exact .inr (.inr (.inr (.inl ⟨line - 32, by omega, .inl (by rw [Nat.sub_add_cancel h])⟩)))
    | @routeHigh line h h' =>
      exact .inr (.inr (.inr (.inl ⟨line - 32, by omega, .inr (by rw [Nat.sub_add_cancel h])⟩)))
    | @enable bank h h' => exact .inr (.inr (.inr (.inr ⟨bank - 1, by omega, by rw [Nat.sub_add_cancel h]⟩)))

theorem mem_privateRegisters : a ∈ f.privateRegisters i ↔ f.Private i a := by
  simp only [privateRegisters, List.mem_append, List.mem_map, List.mem_range, List.mem_cons, List.not_mem_nil, or_false]
  constructor
  · rintro ((rfl | rfl) | ⟨k, hk, rfl⟩ | ⟨k, hk, rfl⟩ | rfl | rfl)
    · exact .group
    · exact .modifier
    · exact .trigger hk
    · exact .priority hk
    · exact .enable
    · exact .control
  · intro h
    cases h with
    | group => exact .inl (.inl rfl)
    | modifier => exact .inl (.inr rfl)
    | trigger hk => exact .inr (.inl ⟨_, hk, rfl⟩)
    | priority hk => exact .inr (.inr (.inl ⟨_, hk, rfl⟩))
    | enable => exact .inr (.inr (.inr (.inl rfl)))
    | control => exact .inr (.inr (.inr (.inr rfl)))

/-- Whatever the image has for them, the registers of shared lines are written. -/
theorem addresses_sharedCells : addresses (f.sharedCells d) = f.sharedRegisters := by
  simp only [addresses, sharedCells, sharedRegisters, List.map_append, List.map_flatMap, List.map_map]
  rfl

theorem getD_map_range {α : Type} {g : Nat → α} {k count : Nat} {b : α} (h : k < count) :
    ((List.range count).map g).getD k b = g k := by
  simp [List.getD_eq_getElem?_getD, h]

/-- Of an image that was saved, every register is written what it held. -/
theorem sharedCells_distributorOf :
    f.sharedCells (f.distributorOf n) = f.sharedRegisters.map fun a => (a, n a) := by
  simp only [sharedCells, sharedRegisters, distributorOf, List.map_append, List.map_flatMap, List.map_map]
  refine congrArg₂ _ (List.flatMap_congr fun i hi => ?_) (congrArg₂ _ (List.map_congr_left fun i hi => ?_)
    (congrArg₂ _ (List.map_congr_left fun i hi => ?_) (congrArg₂ _ (List.flatMap_congr fun i hi => ?_)
    (List.map_congr_left fun i hi => ?_)))) <;> rw [getD_map_range (List.mem_range.mp hi)]
  · rfl
  · rfl
  · rfl
  · rw [toUInt32_ofHalves, toUInt32_ofHalves_shiftRight]
    rfl
  · rfl

theorem privateCells_coreOf :
    f.privateCells i (f.coreOf n i) = (f.privateRegisters i).map fun a => (a, n a) := by
  simp only [privateCells, privateRegisters, coreOf, List.map_append, List.map_cons, List.map_nil, List.map_map]
  refine congrArg _ (congrArg₂ _ (List.map_congr_left fun k hk => ?_)
    (congrArg (· ++ _) (List.map_congr_left fun k hk => ?_))) <;> rw [getD_map_range (List.mem_range.mp hk)]
  · rfl
  · rfl

theorem mem_settledCells (hx : x ∈ f.settledCells (f.imageOf n)) :
    f.Saved x.1 ∧ x.2 = n x.1 ∨ ∃ i < f.cores, x = (f.coreDisable i, 0xffffffff) := by
  rcases List.mem_append.mp hx with hx | hx
  · rw [imageOf, sharedCells_distributorOf] at hx
    obtain ⟨a, ha, rfl⟩ := List.mem_map.mp hx
    exact .inl ⟨.inr (.inl (mem_sharedRegisters.mp ha)), rfl⟩
  · rcases List.mem_cons.mp hx with rfl | hx
    · exact .inl ⟨.inl rfl, rfl⟩
    · obtain ⟨i, hi, hx⟩ := List.mem_flatMap.mp hx
      have hi : i < f.cores := List.mem_range.mp hi
      rcases List.mem_cons.mp hx with rfl | hx
      · exact .inr ⟨i, hi, rfl⟩
      · rw [imageOf, getD_map_range hi, privateCells_coreOf] at hx
        obtain ⟨a, ha, rfl⟩ := List.mem_map.mp hx
        exact .inl ⟨.inr (.inr ⟨i, hi, mem_privateRegisters.mp ha⟩), rfl⟩

theorem mem_enabledCells {image : Image} (hi : i < f.cores) (hx : x ∈ f.coreCells image i) : x ∈ f.enabledCells image :=
  List.mem_cons_of_mem _ (List.mem_flatMap.mpr ⟨i, List.mem_range.mpr hi, hx⟩)

theorem Saved.mem_addresses (h : f.Saved a) : a ∈ addresses (f.settledCells (f.imageOf n)) := by
  rw [settledCells, addresses_append, List.mem_append]
  rcases h with rfl | h | ⟨i, hi, h⟩
  · exact .inr List.mem_cons_self
  · exact .inl (by rw [addresses_sharedCells]; exact mem_sharedRegisters.mpr h)
  · refine .inr (List.mem_map.mpr ⟨(a, n a), mem_enabledCells hi (List.mem_cons_of_mem _ ?_), rfl⟩)
    rw [imageOf, getD_map_range hi, privateCells_coreOf]
    exact List.mem_map_of_mem (mem_privateRegisters.mpr h)

/-- Registers after a restore: those that are saved hold what they held when they were, all private lines
    have been disabled in between, and the others hold what they held just before. -/
structure Restored (f : InterruptFrames) (saved before after : Nat → UInt32) : Prop where
  saved : ∀ a, f.Saved a → after a = saved a
  disabled : ∀ i < f.cores, after (f.coreDisable i) = 0xffffffff
  other : ∀ a, ¬f.Saved a → (∀ i < f.cores, a ≠ f.coreDisable i) → after a = before a

theorem restored_overwrite {n' : Nat → UInt32} (hapart : f.Apart) :
    f.Restored n n' (overwrite n' (f.restoredCells (f.imageOf n))) where
  saved a ha := by
    rw [restoredCells, overwrite]
    refine overwrite_of_mem ha.mem_addresses fun x hx hxa => ?_
    rcases mem_settledCells hx with ⟨-, hword⟩ | ⟨i, hi, rfl⟩
    · rw [hword, hxa]
    · exact absurd hxa.symm (ha.ne_coreDisable hapart hi)
  disabled i hi := by
    have hmem : (f.coreDisable i, 0xffffffff) ∈ f.enabledCells (f.imageOf n) := mem_enabledCells hi List.mem_cons_self
    rw [restoredCells, overwrite]
    refine overwrite_of_mem (List.mem_map_of_mem (List.mem_append_right _ hmem)) fun x hx hxa => ?_
    rcases mem_settledCells hx with ⟨hsaved, -⟩ | ⟨j, -, rfl⟩
    · exact absurd hxa (hsaved.ne_coreDisable hapart hi)
    · rfl
  other a ha hdisable := by
    refine overwrite_of_notMem fun hmem => ?_
    rcases List.mem_cons.mp hmem with rfl | hmem
    · exact ha (.inl rfl)
    · obtain ⟨x, hx, rfl⟩ := List.mem_map.mp hmem
      rcases mem_settledCells hx with ⟨hsaved, -⟩ | ⟨i, hi, rfl⟩
      · exact ha hsaved
      · exact hdisable i hi rfl

/-! ### Groups -/

section Groups
variable {image : Image} {pre post : List Cell}

theorem not_inDistributor_enabledCells (hapart : f.Apart) (hx : x ∈ f.enabledCells image) (hne : x.1 ≠ f.control) :
    ¬f.InDistributor x.1 := by
  rcases List.mem_cons.mp hx with rfl | hx
  · exact absurd rfl hne
  · obtain ⟨i, hi, hx⟩ := List.mem_flatMap.mp hx
    refine hapart.not_inDistributor (List.mem_range.mp hi) ?_
    rcases List.mem_cons.mp hx with rfl | hx
    · exact inCore_coreDisable
    · exact (mem_privateRegisters.mp (List.mem_map_of_mem hx)).inCore

/-- Whatever image is restored, no group is enabled when a line of the distributor is written. -/
theorem groups_disabled (hapart : f.Apart) (h : f.restoredCells image = pre ++ x :: post) (hx : f.InDistributor x.1)
    (hne : x.1 ≠ f.control) (n' : Nat → UInt32) : overwrite n' pre f.control &&& groupEnables = 0 := by
  cases pre with
  | nil =>
    obtain ⟨rfl, -⟩ := List.cons.inj h
    exact absurd rfl hne
  | cons y pre =>
    obtain ⟨rfl, hrest⟩ := List.cons.inj h
    -- Between the two writes of the control register there are only those of shared lines.
    have hpre : f.control ∉ addresses pre := by
      rcases List.append_eq_append_iff.mp hrest with ⟨rest, -, henabled⟩ | ⟨rest, hshared, -⟩
      · have hmem : x ∈ f.enabledCells image := by
          rw [henabled]
          exact List.mem_append_right _ List.mem_cons_self
        exact absurd hx (not_inDistributor_enabledCells hapart hmem hne)
      · intro hmem
        have hmem : f.control ∈ addresses (f.sharedCells image.distributor) := by
          rw [hshared, addresses_append]
          exact List.mem_append_left _ hmem
        rw [addresses_sharedCells, mem_sharedRegisters] at hmem
        exact hmem.ne_control rfl
    rw [overwrite, overwrite_of_notMem hpre, Function.update_self, UInt32.and_assoc]
    show _ &&& 0 = (0 : UInt32)
    exact UInt32.and_zero

end Groups

/-! ### Main statement -/

/-- A save changes nothing. Whatever has been written to the registers since, and whatever the waits see, a
    restore of its image has no end or leaves every register that was saved with what it held then, all
    private lines disabled in between, and the other registers as they were. The lines of the distributor are
    written only while no group is enabled. -/
theorem save_restore {env' : Environment κ} (hplain : env.Plain masksOf m) (hbudget : f.budget = env'.budget)
    (hapart : f.Apart) (past : History env) (past' : History env') (m' : Contents) :
    ∃ image L, f.save past = (.ok image, past.add L) ∧ (past.add L).contents masksOf m = past.contents masksOf m ∧
      ∃ M outcome, f.restore image past' = (outcome, past'.add M) ∧
        (∀ before a w after, M = before ++ .write a w :: after → f.InDistributor a → a ≠ f.control →
          ((past'.add before).contents masksOf m').registers f.control &&& groupEnables = 0) ∧
        (outcome = .error .hung ∧ env'.Endless M ∨ outcome = .ok () ∧
          f.Restored (past.contents masksOf m).registers (past'.contents masksOf m').registers
            ((past'.add M).contents masksOf m').registers) := by
  have hregisters : ∀ M, ((past'.add M).contents masksOf m').registers =
      overwrite (past'.contents masksOf m').registers (written M) := by
    intro M
    rw [History.contents, History.events_add, Contents.replay_append, registers_replay, History.contents]
  obtain ⟨L, hsave, hL⟩ := finds_save hplain past
  refine ⟨_, L, hsave, History.contents_add_reads hL, ?_⟩
  obtain ⟨M, outcome, hrestore, hprefix, hend⟩ := (writes_restore hbudget).outcome past'
  refine ⟨M, outcome, hrestore, ?_, hend.imp_right ?_⟩
  · rintro before a w after rfl ha hne
    obtain ⟨rest, hcells⟩ := hprefix
    rw [hregisters]
    rw [written_append, List.append_assoc] at hcells
    exact groups_disabled hapart hcells.symm ha hne _
  · rintro ⟨⟨⟩, rfl, hM⟩
    rw [hregisters, hM]
    exact ⟨rfl, restored_overwrite hapart⟩

/-- The frames of two cores. -/
def twoCores : InterruptFrames := ⟨0x10000, 0x20000, 2, .within 0⟩

/-- What was saved of two cores is there again after everything has been lost. -/
theorem save_restore_loss : ∃ image L M,
    twoCores.save (⟨[]⟩ : History Platform.beforeLoss) = (.ok image, (⟨[]⟩ : History Platform.beforeLoss).add L) ∧
    twoCores.restore image (⟨[]⟩ : History Platform.afterLoss) = (.ok (), (⟨[]⟩ : History Platform.afterLoss).add M) ∧
    twoCores.Restored Platform.written.registers (fun _ => 0)
      (((⟨[]⟩ : History Platform.afterLoss).add M).contents id ⟨fun _ => 0, fun _ => 0⟩).registers := by
  have hbudget : twoCores.budget = Platform.afterLoss.budget := rfl
  have hapart : twoCores.Apart := .inl (by decide)
  have hplain : Platform.beforeLoss.Plain id Platform.written := Environment.plain_holding
  obtain ⟨image, L, hsave, -, M, outcome, hrestore, -, ⟨-, hendless⟩ | ⟨rfl, hrestored⟩⟩ :=
    save_restore hplain hbudget hapart ⟨[]⟩ ⟨[]⟩ ⟨fun _ => 0, fun _ => 0⟩
  · exact absurd hendless (Platform.not_endless rfl Nat.one_pos)
  · exact ⟨image, L, M, hsave, hrestore, hrestored⟩

end PowerFirmware.InterruptFrames
