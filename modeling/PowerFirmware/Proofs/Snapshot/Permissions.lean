import PowerFirmware.Proofs.Registers
import PowerFirmware.Proofs.Snapshot.Contents

/-! When the pins are accessed. Main statement: the interrupt control of a pin is read and written only
while the permissions of its bank are cleared, and these are put back after everything else in the bank
(`pins_permission_window`). -/

namespace PowerFirmware
open Cells Contents Run

variable {κ : Type} {env : Environment κ} {masksOf : κ → Nat → UInt32} {m : Contents} {L M : List (Event κ)}

theorem registers_replay_of_touches {a : Nat} (h : Touches (· ≠ a) L) :
    (m.replay masksOf L).registers a = m.registers a := by
  rw [registers_replay]
  refine overwrite_of_notMem fun ha => ?_
  obtain ⟨⟨_, w⟩, hx, rfl⟩ := List.mem_map.mp ha
  obtain ⟨e, he, hcell⟩ := List.mem_filterMap.mp hx
  cases e with
  | write b v =>
    cases hcell
    exact h _ he _ rfl rfl
  | _ => cases hcell

namespace GpioImage
variable {bank : Layout.GpioBank} {image : GpioImage}

/-! ### One bank -/

/-- The registers of a bank and what is around them. -/
def InPage (bank : Layout.GpioBank) (a : Nat) : Prop := bank.base ≤ a ∧ a < bank.base + 0x10000

instance (bank : Layout.GpioBank) (a : Nat) : Decidable (InPage bank a) := inferInstanceAs (Decidable (_ ∧ _))

/-- All permissions of the bank are cleared. -/
def Cleared (bank : Layout.GpioBank) (m : Contents) : Prop :=
  ∀ i < permissionCount, m.registers (controlAddress bank i) = 0

/-- Whenever the interrupt control of a pin is accessed, the bank has the pin and its permissions are
    cleared. The registers have room for thirty-two pins. -/
def Window (bank : Layout.GpioBank) (masksOf : κ → Nat → UInt32) (m : Contents) : List (Event κ) → Prop
  | [] => True
  | e :: L => (∀ pin < 32, e.address? = some (pinAddress bank pin) → pin < bank.pins ∧ Cleared bank m) ∧
      Window bank masksOf (m.after masksOf e) L

/-- Access to the pins goes through the window, and in the end the permissions are those of the image,
    written when the bank is accessed no more. -/
structure Guarded (bank : Layout.GpioBank) (image : GpioImage) (masksOf : κ → Nat → UInt32) (m : Contents)
    (L : List (Event κ)) : Prop where
  window : Window bank masksOf m L
  saved : ∀ i < permissionCount, (m.replay masksOf L).registers (controlAddress bank i) = image.control.getD i 0
  last : ∃ before after, L = before ++ (writes (permissions bank image) ++ after) ∧ Touches (¬InPage bank ·) after

theorem window_append : ∀ {L : List (Event κ)} {m : Contents},
    Window bank masksOf m (L ++ M) ↔ Window bank masksOf m L ∧ Window bank masksOf (m.replay masksOf L) M
  | [], _ => by simp [Window, replay]
  | e :: L, m => by rw [List.cons_append, Window, Window, window_append, replay_cons, and_assoc]

theorem window_of_apart : ∀ {L : List (Event κ)} {m : Contents},
    Touches (fun a => ∀ pin < 32, a ≠ pinAddress bank pin) L → Window bank masksOf m L
  | [], _, _ => trivial
  | _ :: _, _, h => ⟨fun pin hpin he => absurd rfl ((touches_cons.mp h).1 _ he pin hpin),
      window_of_apart (touches_cons.mp h).2⟩

/-- Access to pins leaves the permissions as they are. -/
theorem Cleared.after (h : Cleared bank m) {e : Event κ}
    (he : ∀ a, e.address? = some a → ∃ pin, a = pinAddress bank pin) : Cleared bank (m.after masksOf e) := by
  intro i hi
  cases e with
  | write a w =>
    obtain ⟨pin, rfl⟩ := he a rfl
    have hlt : controlAddress bank i < pinAddress bank pin := controlAddress_lt (Nat.lt_trans hi (by decide))
    exact (Function.update_of_ne (Nat.ne_of_lt hlt) _ _).trans (h i hi)
  | _ => exact h i hi

theorem window_of_cleared : ∀ {L : List (Event κ)} {m : Contents}, Cleared bank m →
    Touches (fun a => ∃ pin < bank.pins, a = pinAddress bank pin) L → Window bank masksOf m L
  | [], _, _, _ => trivial
  | e :: L, m, hcleared, h => by
    obtain ⟨he, hL⟩ := touches_cons.mp h
    refine ⟨fun pin _ heq => ⟨?_, hcleared⟩, window_of_cleared (hcleared.after fun a ha => ?_) hL⟩
    · obtain ⟨pin', hpin', hsame⟩ := he _ heq
      simp only [pinAddress] at hsame
      omega
    · obtain ⟨pin, -, rfl⟩ := he a ha
      exact ⟨pin, rfl⟩

theorem cleared_put : Cleared bank (m.put ((List.range permissionCount).map fun i => (controlAddress bank i, 0))) := by
  intro i hi
  refine overwrite_of_mem ?_ fun x hx _ => ?_
  · rw [addresses_map]
    exact List.mem_map_of_mem (List.mem_range.mpr hi)
  · obtain ⟨_, -, rfl⟩ := List.mem_map.mp hx
    rfl

theorem control_ne_pin {i : Nat} (hi : i < controlCount) : ∀ pin < 32, controlAddress bank i ≠ pinAddress bank pin :=
  fun _ _ => Nat.ne_of_lt (controlAddress_lt hi)

theorem touches_controls {A : Nat → Prop} : ∀ {is : List Nat} {ws : List UInt32}, (∀ i ∈ is, A (controlAddress bank i)) →
    Touches A ((List.zipWith (controlEvents bank) is ws).flatten : List (Event κ))
  | [], _, _ => touches_nil
  | _ :: _, [], _ => touches_nil
  | i :: is, w :: ws, h => by
    have hi := h i List.mem_cons_self
    rw [List.zipWith_cons_cons, List.flatten_cons, touches_append]
    refine ⟨?_, touches_controls fun j hj => h j (List.mem_cons_of_mem i hj)⟩
    unfold controlEvents
    split <;> simp [Event.address?, hi]

theorem touches_permissions {A : Nat → Prop} (h : ∀ i < controlCount, A (controlAddress bank i)) :
    Touches A (writes (permissions bank image) : List (Event κ)) :=
  touches_writes_map fun i hi => h i (Nat.lt_trans (List.mem_range.mp hi) (by decide))

theorem touches_pins {A : Nat → Prop} (hpins : image.pins.length = bank.pins)
    (h : ∀ pin < bank.pins, A (pinAddress bank pin)) :
    Touches A (reads (adjacent (pinAddress bank 0) image.pins) : List (Event κ)) := by
  rw [touches_reads, adjacent_pins hpins, addresses_map]
  intro a ha
  obtain ⟨pin, hpin, rfl⟩ := List.mem_map.mp ha
  exact h pin (List.mem_range.mp hpin)

theorem control_covered {i : Nat} (hi : i < controlCount) : controlAddress bank i ∈ covered bank :=
  List.mem_append_left _ (List.mem_map_of_mem (List.mem_range.mpr hi))

theorem pin_covered {pin : Nat} (hpin : pin < bank.pins) : pinAddress bank pin ∈ covered bank :=
  List.mem_append_right _ (List.mem_map_of_mem (List.mem_range.mpr hpin))

theorem touches_saveEvents (hpins : image.pins.length = bank.pins) :
    Touches (· ∈ covered bank) (saveEvents bank image : List (Event κ)) :=
  touches_append.mpr ⟨touches_controls fun _ hi => control_covered (List.mem_range.mp hi),
    touches_append.mpr ⟨touches_pins hpins fun _ => pin_covered, touches_permissions fun _ => control_covered⟩⟩

theorem guarded_of_save (hcontrol : image.control.length = controlCount) (hpins : image.pins.length = bank.pins)
    (h : m.Consistent masksOf (saveEvents bank image)) : Guarded bank image masksOf m (saveEvents bank image) where
  window := by
    have hcontrols := (consistent_append.mp h).1
    obtain ⟨-, hreplay⟩ := consistent_controls nodup_controls (by simpa using hcontrol) hcontrols
    have hcleared : (List.range controlCount).flatMap (clearing bank) =
        (List.range permissionCount).map fun i => (controlAddress bank i, 0) := rfl
    rw [saveEvents, window_append, window_append, hreplay, hcleared]
    refine ⟨window_of_apart (touches_controls fun i hi => control_ne_pin (List.mem_range.mp hi)), ?_, ?_⟩
    · exact window_of_cleared cleared_put (touches_pins hpins fun pin hpin => ⟨pin, hpin, rfl⟩)
    · exact window_of_apart (touches_permissions fun i => control_ne_pin)
  saved := by
    obtain ⟨hstand, hreplay⟩ := stand_of_save hcontrol hpins h
    intro i hi
    rw [hreplay]
    exact hstand _ (permissions_sub _ (List.mem_map.mpr ⟨i, List.mem_range.mpr hi, rfl⟩))
  last := ⟨_, [], by rw [saveEvents, List.append_nil, List.append_assoc], touches_nil⟩

theorem guarded_of_restore : Guarded bank image masksOf m (writes (restoreCells bank image)) where
  window := by
    rw [restoreCells, writes_append, writes_append, writes_append, window_append, window_append, window_append,
      replay_writes, replay_writes, replay_writes]
    refine ⟨window_of_apart ?_, window_of_cleared cleared_put ?_, window_of_apart ?_, window_of_apart ?_⟩
    · exact touches_writes_map fun i hi => control_ne_pin (Nat.lt_trans (List.mem_range.mp hi) (by decide))
    · exact touches_writes_map fun pin hpin => ⟨pin, List.mem_range.mp hpin, rfl⟩
    · refine touches_writes_map fun i hi => control_ne_pin ?_
      have := List.mem_range.mp hi
      simp only [permissionCount, controlCount] at this ⊢
      omega
    · exact touches_permissions fun i => control_ne_pin
  saved := by
    intro i hi
    rw [replay_writes]
    exact stand_of_restore _ (permissions_sub _ (List.mem_map.mpr ⟨i, List.mem_range.mpr hi, rfl⟩))
  last := ⟨_, [], by rw [restoreCells, writes_append, writes_append, writes_append, List.append_nil, List.append_assoc,
    List.append_assoc], touches_nil⟩

/-! ### A bank among others -/

theorem control_inPage {i : Nat} (hi : i < controlCount) : InPage bank (controlAddress bank i) := by
  have hlt : controlAddress bank i < pinAddress bank 0 := controlAddress_lt hi
  simp only [InPage, controlAddress, pinAddress] at hlt ⊢
  omega

theorem pin_inPage {pin : Nat} (hpin : pin < 32) : InPage bank (pinAddress bank pin) := by
  simp only [InPage, pinAddress]
  omega

/-- What happens outside the page of a bank before and after does not matter to it. -/
theorem Guarded.surrounded {before after : List (Event κ)}
    (h : Guarded bank image masksOf (m.replay masksOf before) L) (hbefore : Touches (¬InPage bank ·) before)
    (hafter : Touches (¬InPage bank ·) after) : Guarded bank image masksOf m (before ++ (L ++ after)) where
  window := by
    have apart : ∀ {L : List (Event κ)} {m : Contents}, Touches (¬InPage bank ·) L → Window bank masksOf m L :=
      fun h => window_of_apart (h.imp fun _ ha pin hpin heq => ha (heq ▸ pin_inPage hpin))
    exact window_append.mpr ⟨apart hbefore, window_append.mpr ⟨h.window, apart hafter⟩⟩
  saved := by
    intro i hi
    rw [replay_append, replay_append, registers_replay_of_touches, h.saved i hi]
    refine hafter.imp fun _ ha heq => ha (heq ▸ control_inPage (Nat.lt_trans hi (by decide)))
  last := by
    obtain ⟨first, rest, rfl, hrest⟩ := h.last
    exact ⟨before ++ first, rest ++ after, by simp, touches_append.mpr ⟨hrest, hafter⟩⟩

theorem banks_apart : ∀ x ∈ Layout.gpioBanks, ∀ y ∈ Layout.gpioBanks, x ≠ y →
    x.pins ≤ 32 ∧ (x.base + 0x100 ≤ y.base ∨ y.base + 0x10000 ≤ x.base) := by decide

theorem touches_apart {other : Layout.GpioBank} (hother : other ∈ Layout.gpioBanks) (hbank : bank ∈ Layout.gpioBanks)
    (hne : other ≠ bank) (h : Touches (· ∈ covered other) L) : Touches (¬InPage bank ·) L := by
  refine h.imp fun a ha hpage => ?_
  obtain ⟨hpins, hapart⟩ := banks_apart other hother bank hbank hne
  have := covered_range hpins ha
  simp only [InPage] at hpage
  omega

/-- What is done to the banks one after the other falls into what is done to one of them, and what does
    not touch it. -/
theorem exists_surrounding {images : List (Layout.GpioBank × GpioImage)}
    {events : Layout.GpioBank × GpioImage → List (Event κ)} {x : Layout.GpioBank × GpioImage}
    (hbanks : images.map (·.1) = Layout.gpioBanks) (hx : x ∈ images)
    (hevents : ∀ y ∈ images, Touches (· ∈ covered y.1) (events y)) :
    ∃ before after, images.flatMap events = before ++ (events x ++ after) ∧
      Touches (¬InPage x.1 ·) before ∧ Touches (¬InPage x.1 ·) after := by
  obtain ⟨xs, ys, rfl⟩ := List.append_of_mem hx
  have hmem : ∀ y ∈ xs ++ x :: ys, y.1 ∈ Layout.gpioBanks := fun y hy => hbanks ▸ List.mem_map_of_mem hy
  have hnodup : ((xs ++ x :: ys).map (·.1)).Nodup := hbanks ▸ by decide
  rw [List.map_append, List.map_cons, List.nodup_append, List.nodup_cons] at hnodup
  obtain ⟨-, ⟨hys, -⟩, hxs⟩ := hnodup
  have apart : ∀ zs : List (Layout.GpioBank × GpioImage), (∀ y ∈ zs, y ∈ xs ++ x :: ys ∧ y.1 ≠ x.1) →
      Touches (¬InPage x.1 ·) (zs.flatMap events) := by
    intro zs hzs e he
    obtain ⟨y, hy, he⟩ := List.mem_flatMap.mp he
    obtain ⟨hy, hne⟩ := hzs y hy
    exact touches_apart (hmem y hy) (hmem x hx) hne (hevents y hy) e he
  refine ⟨xs.flatMap events, ys.flatMap events, by rw [List.flatMap_append, List.flatMap_cons], ?_, ?_⟩
  · refine apart xs fun y hy => ⟨List.mem_append_left _ hy, fun heq => ?_⟩
    exact hxs y.1 (List.mem_map_of_mem hy) x.1 List.mem_cons_self heq
  · refine apart ys fun y hy => ⟨List.mem_append_right _ (List.mem_cons_of_mem x hy), fun heq => ?_⟩
    exact hys (heq ▸ List.mem_map_of_mem hy)

end GpioImage

/-! ### Watchdogs -/

namespace WatchdogImage
variable {base : Nat} {image live : WatchdogImage} {o : Except PollTimeout Unit} {A : Nat → Prop}
variable {W : (UInt32 → Bool) → List (Event κ) → Except PollTimeout Unit → Prop}
variable {G : (UInt32 → Bool) → List (Event κ) → Prop}

section Touching
variable (hA : ∀ a ∈ covered base, A a)
include hA

theorem touches_rewriting (hL : Touches A L) :
    Touches A (reads (cells base live) ++ (writes (cells base image) ++ L)) :=
  touches_append.mpr ⟨touches_reads.mpr hA, touches_append.mpr ⟨touches_writes.mpr hA, hL⟩⟩

theorem PutBack.touches (hW : ∀ test L o, W test L o → Touches A L) (h : PutBack W base image L o) : Touches A L := by
  cases h with
  | same => exact touches_reads.mpr hA
  | unlocked _ hL => exact touches_rewriting hA (hW _ _ _ hL)
  | locked _ hL hM => exact touches_rewriting hA (touches_append.mpr ⟨hW _ _ _ hL, hW _ _ _ hM⟩)

theorem Stuck.touches (hW : ∀ test L o, W test L o → Touches A L) (hG : ∀ test L, G test L → Touches A L)
    (h : Stuck W G base image L) : Touches A L := by
  cases h with
  | unlocked _ hL => exact touches_rewriting hA (hG _ _ hL)
  | locked _ hL hM => exact touches_rewriting hA (touches_append.mpr ⟨hW _ _ _ hL, hG _ _ hM⟩)

theorem stays_restore {budget : PollBudget} : Stays (E := env) A (restore base image budget) := by
  have hwait : ∀ test : UInt32 → Bool,
      Stays (E := env) A (pollUntil budget (do return test (← read32 (controlAddress base)))) := fun _ =>
    .poll (hA _ List.mem_cons_self)
  exact (doesOr_restore (W := fun _ L _ => Touches A L) (G := fun _ => Touches A) hwait).imp
    (fun _ _ h => h.touches hA fun _ _ _ hL => hL) fun _ h => h.touches hA (fun _ _ _ hL => hL) fun _ _ hL => hL

end Touching
end WatchdogImage

namespace Snapshot
variable {images : List (Nat × WatchdogImage)} {os : List (Except PollTimeout Unit)} {A : Nat → Prop}
variable {P : Nat × WatchdogImage → List (Event κ) → Except PollTimeout Unit → Prop}
variable {G : Nat × WatchdogImage → List (Event κ) → Prop}

theorem OneByOne.touches (hP : ∀ x ∈ images, ∀ L o, P x L o → Touches A L) (h : OneByOne P images L os) :
    Touches A L := by
  induction h with
  | nil => exact touches_nil
  | cons hL _ ih =>
    exact touches_append.mpr ⟨hP _ List.mem_cons_self _ _ hL, ih fun x hx => hP x (List.mem_cons_of_mem _ hx)⟩

theorem StuckAt.touches (hP : ∀ x ∈ images, ∀ L o, P x L o → Touches A L) (hG : ∀ x ∈ images, ∀ L, G x L → Touches A L)
    (h : StuckAt P G images L) : Touches A L := by
  induction h with
  | here hL => exact hG _ List.mem_cons_self _ hL
  | later hL _ ih =>
    exact touches_append.mpr ⟨hP _ List.mem_cons_self _ _ hL, ih (fun x hx => hP x (List.mem_cons_of_mem _ hx))
      fun x hx => hG x (List.mem_cons_of_mem _ hx)⟩

end Snapshot

/-! ### Everything -/

namespace Snapshot
open GpioImage (InPage Guarded)
variable {s s' : Snapshot κ} {set : ContextSet} {x : Layout.GpioBank × GpioImage}

theorem map_fst_pinImages : s.pinImages.map (·.1) = Layout.gpioBanks := map_fst_tabled

/-- The registers of the other devices. -/
def others : List Nat := Layout.flashControllers.map flashTiming ++ Layout.watchdogs.flatMap WatchdogImage.covered

theorem others_apart : ∀ bank ∈ Layout.gpioBanks, ∀ a ∈ others, ¬InPage bank a := by decide

/-- Each bank is guarded by what is done to it, with the other devices before and after. -/
theorem guarded_among {events : Layout.GpioBank × GpioImage → List (Event κ)} {first rest : List (Event κ)}
    (hx : x ∈ s.pinImages) (hevents : ∀ y ∈ s.pinImages, Touches (· ∈ GpioImage.covered y.1) (events y))
    (hfirst : Touches (· ∈ others) first) (hrest : Touches (· ∈ others) rest)
    (hown : ∀ before after, first ++ (s.pinImages.flatMap events ++ rest) = before ++ (events x ++ after) →
      Guarded x.1 x.2 masksOf (m.replay masksOf before) (events x)) :
    Guarded x.1 x.2 masksOf m (first ++ (s.pinImages.flatMap events ++ rest)) := by
  obtain ⟨before, after, hpins, hbefore, hafter⟩ := GpioImage.exists_surrounding map_fst_pinImages hx hevents
  have apart : ∀ {L : List (Event κ)}, Touches (· ∈ others) L → Touches (¬InPage x.1 ·) L := fun h =>
    h.imp (others_apart x.1 (map_fst_pinImages ▸ List.mem_map_of_mem hx))
  have hsplit : first ++ (s.pinImages.flatMap events ++ rest) = (first ++ before) ++ (events x ++ (after ++ rest)) := by
    rw [hpins]
    simp only [List.append_assoc]
  rw [hsplit]
  exact (hown _ _ hsplit).surrounded (touches_append.mpr ⟨apart hfirst, hbefore⟩)
    (touches_append.mpr ⟨hafter, apart hrest⟩)

theorem touches_flash {b : Bool} {k : Event κ} (hk : k.address? = none) {c : Bool} {f : List Cell → List (Event κ)}
    (hf : ∀ cells, (∀ a ∈ addresses cells, a ∈ others) → Touches (· ∈ others) (f cells)) :
    Touches (· ∈ others) ((if b then [k] else []) ++ if c then f s.flashCells else []) := by
  have hflash : ∀ a ∈ addresses s.flashCells, a ∈ others := fun a ha =>
    List.mem_append_left _ (addresses_flashCells (s := s) ▸ ha)
  refine touches_append.mpr ⟨?_, ?_⟩
  · split <;> simp [hk]
  · split
    · exact hf _ hflash
    · exact touches_nil

/-- Each bank is guarded throughout a save of the pins. -/
theorem guarded_of_saveEvents (hset : set.contains .pins = true) (hfull : ∀ x ∈ s.pinImages,
      x.2.control.length = GpioImage.controlCount ∧ x.2.pins.length = x.1.pins)
    (h : m.Consistent masksOf (s.saveEvents set)) (hx : x ∈ s.pinImages) :
    Guarded x.1 x.2 masksOf m (s.saveEvents set) := by
  have hdogs : Touches (· ∈ others) (if set.contains .watchdogs then reads s.watchdogCells else [] : List (Event κ)) := by
    split
    · exact touches_reads.mpr fun a ha => List.mem_append_right _ (addresses_watchdogCells (s := s) ▸ ha)
    · exact touches_nil
  rw [saveEvents, hset, if_pos rfl, ← List.append_assoc] at h ⊢
  refine guarded_among hx (fun y hy => GpioImage.touches_saveEvents (hfull y hy).2)
    (touches_flash rfl fun _ => touches_reads.mpr) hdogs fun before after heq => ?_
  rw [heq, consistent_append, consistent_append] at h
  exact GpioImage.guarded_of_save (hfull x hx).1 (hfull x hx).2 h.2.1

theorem stays_restoreWatchdogs {budget : PollBudget} {bases : List Nat} {i : Nat}
    (h : ∀ base ∈ bases, base ∈ Layout.watchdogs) :
    Stays (E := env) (· ∈ others) (s.restoreWatchdogs budget i bases) := by
  have hrestore : ∀ base ∈ bases, ∀ image, Stays (E := env) (· ∈ others) (WatchdogImage.restore base image budget) :=
    fun base hbase _ => WatchdogImage.stays_restore fun a ha =>
      List.mem_append_right _ (List.mem_flatMap.mpr ⟨base, h base hbase, ha⟩)
  refine DoesOr.imp (doesOr_restoreWatchdogs (P := fun _ L _ => Touches (· ∈ others) L)
    (G := fun _ => Touches (· ∈ others)) hrestore) ?_ fun L hL => hL.touches (fun _ _ _ _ hM => hM) fun _ _ _ hM => hM
  rintro o L ⟨os, -, hL⟩
  exact hL.touches fun _ _ _ _ hM => hM

/-- The accesses of a restore up to the pins. -/
def restoreEvents (set : ContextSet) (s : Snapshot κ) : List (Event κ) :=
  ((if set.contains .interrupts then [.restoreGic s.interrupts] else []) ++
      if set.contains .flash then writes s.flashCells else []) ++
    if set.contains .pins then writes s.pinCells else []

/-- What a restore does after the pins is what it does to the watchdogs, if it comes to them. -/
theorem doesOr_restore_watchdogs {budget : PollBudget} {G : List (Event κ) → Prop}
    {Ψ : Except PollTimeout Unit → List (Event κ) → Prop}
    (h : DoesOr (E := env) G (s.restoreWatchdogs budget 0 Layout.watchdogs) Ψ) : DoesOr (E := env)
      (fun L => set.contains .watchdogs = true ∧ ∃ rest, L = s.restoreEvents set ++ rest ∧ G rest)
      (restore env.gic budget set s) fun r L => r.2 = { s with pinWakeup := s.pinWakeup && !set.contains .pins } ∧
        ∃ rest, L = s.restoreEvents set ++ rest ∧
          (set.contains .watchdogs = true ∧ Ψ r.1 rest ∨ set.contains .watchdogs = false ∧ r.1 = .ok () ∧ rest = []) := by
  refine does_when does_restoreGic (does_when does_restoreFlash (does_when does_restorePins ?_))
  have hjoin : ∀ rest : List (Event κ), (if set.contains .interrupts then [.restoreGic s.interrupts] else []) ++
      ((if set.contains .flash then writes s.flashCells else []) ++
        ((if set.contains .pins then writes s.pinCells else []) ++ rest)) = s.restoreEvents set ++ rest := fun rest => by
    simp only [restoreEvents, List.append_assoc]
  simp only [hjoin]
  rcases hw : set.contains .watchdogs with _ | _
  · exact .bind (.pure (.bind (.log (.pure ⟨rfl, [], by simp, .inr ⟨rfl, rfl, rfl⟩⟩))))
  · refine .bind (h.imp (fun o rest hrest => ?_) fun rest hrest => ⟨rfl, rest, rfl, hrest⟩)
    exact .bind (.log (.pure ⟨rfl, rest, by simp, .inl ⟨rfl, hrest⟩⟩))

/-- What follows the pins in a restore, also in one without end, stays with the other devices. -/
theorem doesOr_restore {budget : PollBudget} : DoesOr (E := env)
    (fun L => set.contains .watchdogs = true ∧ ∃ rest, L = s.restoreEvents set ++ rest ∧ Touches (· ∈ others) rest)
    (restore env.gic budget set s) fun r L => r.2 = { s with pinWakeup := s.pinWakeup && !set.contains .pins } ∧
      ∃ rest, L = s.restoreEvents set ++ rest ∧ Touches (· ∈ others) rest := by
  refine (doesOr_restore_watchdogs (stays_restoreWatchdogs fun _ h => h)).imp ?_ fun _ hF => hF
  rintro r _ ⟨hs, rest, rfl, ⟨-, hrest⟩ | ⟨-, -, rfl⟩⟩
  · exact ⟨hs, rest, rfl, hrest⟩
  · exact ⟨hs, [], rfl, touches_nil⟩

theorem guarded_of_restoreEvents (hset : set.contains .pins = true) {rest : List (Event κ)}
    (hrest : Touches (· ∈ others) rest) (hx : x ∈ s.pinImages) :
    Guarded x.1 x.2 masksOf m (s.restoreEvents set ++ rest) := by
  have hpins : (writes s.pinCells : List (Event κ)) = s.pinImages.flatMap fun x => writes (x.2.restoreCells x.1) :=
    List.map_flatMap
  rw [restoreEvents, hset, if_pos rfl, hpins, List.append_assoc]
  refine guarded_among hx (fun y _ => ?_) (touches_flash rfl fun _ => touches_writes.mpr) hrest fun _ _ _ =>
    GpioImage.guarded_of_restore
  exact touches_writes.mpr fun a ha => GpioImage.addresses_cells ▸ GpioImage.addresses_restoreCells a ha

/-- A save or a restore of the pins, in the course of any set of groups. Throughout, and also if a wait
    for a watchdog has no end, each bank is guarded: with what it holds for a save, with what the snapshot
    has for a restore. A save leaves all registers as they are, and notes if a pin can wake the system. -/
theorem pins_permission_window (hplain : env.Plain masksOf m) (hset : set.contains .pins = true) (budget : PollBudget)
    (s : Snapshot κ) (past : History env) :
    (∃ s' L, save env.gic set s past = (.ok s', past.add L) ∧
      (∀ bank ∈ Layout.gpioBanks, ∃ image, (bank, image) ∈ s'.pinImages ∧
        Guarded bank image masksOf (past.contents masksOf m) L) ∧
      (past.add L).contents masksOf m = past.contents masksOf m ∧
      (s'.pinWakeup = true ↔ s.pinWakeup = true ∨ ∃ bank ∈ Layout.gpioBanks, ∃ pin < bank.pins,
        (past.contents masksOf m).registers (GpioImage.pinAddress bank pin) ≠ 0)) ∧
    ∃ outcome L, restore env.gic budget set s past = (outcome, past.add L) ∧
      (∀ bank ∈ Layout.gpioBanks, ∃ image, (bank, image) ∈ s.pinImages ∧
        Guarded bank image masksOf (past.contents masksOf m) L) ∧
      (outcome = .error .hung ∧ set.contains .watchdogs = true ∨
        ∃ r, outcome = .ok (r, { s with pinWakeup := false })) := by
  have hbanks : ∀ (t : Snapshot κ), ∀ bank ∈ Layout.gpioBanks, ∃ image, (bank, image) ∈ t.pinImages := by
    intro t bank hbank
    rw [← map_fst_pinImages (s := t)] at hbank
    obtain ⟨⟨_, image⟩, hx, rfl⟩ := List.mem_map.mp hbank
    exact ⟨image, hx⟩
  constructor
  · obtain ⟨s', L, heq, allowed, hretaken, rfl⟩ := Does.answers (x := save env.gic set s) does_save
      (answers_save fun _ => .access) past
    have hc := hplain.consistent allowed
    have hfull := hretaken.full hset
    obtain ⟨-, hstand, -, hreplay⟩ := stand_of_saveGroups (fun _ => hfull) hc
    refine ⟨s', _, heq, fun bank hbank => ?_, ?_, ?_⟩
    · obtain ⟨image, hx⟩ := hbanks s' bank hbank
      exact ⟨image, hx, guarded_of_saveEvents hset hfull hc hx⟩
    · exact replay_append.trans hreplay
    · rw [hretaken.pinWakeup, hset, Bool.true_and, Bool.or_eq_true,
        any_canWake_iff (hretaken.banks hset) hfull (hstand hset)]
      rfl
  · obtain ⟨L, outcome, heq, -, hend⟩ := DoesOr.outcome (x := restore env.gic budget set s) doesOr_restore past
    have hguarded : ∀ {L : List (Event κ)}, (∃ rest, L = s.restoreEvents set ++ rest ∧ Touches (· ∈ others) rest) →
        ∀ bank ∈ Layout.gpioBanks, ∃ image, (bank, image) ∈ s.pinImages ∧
          Guarded bank image masksOf (past.contents masksOf m) L := by
      rintro _ ⟨rest, rfl, hrest⟩ bank hbank
      obtain ⟨image, hx⟩ := hbanks s bank hbank
      exact ⟨image, hx, guarded_of_restoreEvents hset hrest hx⟩
    rcases hend with ⟨hhung, hL⟩ | ⟨⟨r, s'⟩, rfl, rfl, hL⟩
    · exact ⟨outcome, L, heq, hguarded hL.2, .inl ⟨hhung, hL.1⟩⟩
    · refine ⟨_, L, heq, hguarded hL, .inr ⟨r, ?_⟩⟩
      simp [hset]

/-- Contents of which no register of a bank is zero. -/
def allSet : Contents := ⟨fun a => UInt32.ofNat a, fun _ => 0⟩

def banksSet : Environment (Nat → UInt32) := Environment.holding
  { load _ _ := 0, tick _ := 0, manager _ _ := (.error .transport, []), enclave _ _ := (.error .transport, []),
    saveGic _ k := k, enableMask _ _ := 0, core := 0, patience := 1, budget := .unbounded } allSet

theorem pins_permission_window_allSet : ∃ s' L,
    save banksSet.gic .peripherals { interrupts := fun _ => 0 } ⟨[]⟩ = (.ok s', (⟨[]⟩ : History banksSet).add L) ∧
      s'.pinWakeup = true ∧
      (∀ bank ∈ Layout.gpioBanks, ∃ image, (bank, image) ∈ s'.pinImages ∧ Guarded bank image id allSet L) ∧
      ((⟨[]⟩ : History banksSet).add L).contents id allSet = allSet := by
  obtain ⟨⟨s', L, heq, hguarded, hsame, hwakeup⟩, -⟩ := pins_permission_window
    Environment.plain_holding (show ContextSet.peripherals.contains .pins = true from rfl) .unbounded
    { interrupts := fun _ => 0 } (⟨[]⟩ : History banksSet)
  refine ⟨s', L, heq, hwakeup.mpr (.inr ⟨⟨0x43810000, 32⟩, by decide, 0, by decide, ?_⟩), hguarded, hsame⟩
  show UInt32.ofNat 0x43810080 ≠ 0
  decide

end Snapshot
end PowerFirmware
