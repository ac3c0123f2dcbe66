import PowerFirmware.Proofs.Contents
import PowerFirmware.Proofs.Snapshot.Events

/-! What saving and restoring the peripherals does to plain registers. Main statements: a save leaves all
registers as they are and finds what they hold (`stand_of_save`), and after a restore every covered
register holds what the snapshot has for it (`stand_of_restore`). -/

namespace PowerFirmware
open Cells Contents

variable {κ : Type} {masksOf : κ → Nat → UInt32} {m : Contents} {L : List (Event κ)}

theorem range_zip {ws : List UInt32} :
    (List.range ws.length).zip ws = (List.range ws.length).map fun i => (i, ws.getD i 0) := by
  apply List.ext_getElem
  · simp
  · intro i hi _
    simp only [List.length_zip, List.length_range, Nat.min_self] at hi
    simp [List.getD_eq_getElem?_getD, List.getElem?_eq_getElem hi]

/-! ### Pins -/

namespace GpioImage
variable {bank : Layout.GpioBank} {image : GpioImage}

/-- The registers of a bank: its controls, and the interrupt control of its pins. -/
def covered (bank : Layout.GpioBank) : List Nat :=
  (List.range controlCount).map (controlAddress bank) ++ (List.range bank.pins).map (pinAddress bank)

/-- The registers of a bank with what its image holds for them. -/
def cells (bank : Layout.GpioBank) (image : GpioImage) : List Cell :=
  (List.range controlCount).map (fun i => (controlAddress bank i, image.control.getD i 0)) ++
    (List.range bank.pins).map fun pin => (pinAddress bank pin, image.pins.getD pin 0)

theorem controlAddress_inj {i j : Nat} (hi : i < controlCount) (hj : j < controlCount)
    (h : controlAddress bank i = controlAddress bank j) : i = j := by
  have inj : ∀ i < controlCount, ∀ j < controlCount, controlOffset i = controlOffset j → i = j := by decide
  exact inj i hi j hj (Nat.add_left_cancel h)

theorem controlAddress_lt {i pin : Nat} (hi : i < controlCount) : controlAddress bank i < pinAddress bank pin := by
  have small : ∀ i < controlCount, controlOffset i < 0x80 := by decide
  have := small i hi
  simp only [controlAddress, pinAddress]
  omega

theorem nodup_controls : ((List.range controlCount).map (controlAddress bank)).Nodup := by
  refine List.Nodup.map_on (fun i hi j hj h => ?_) List.nodup_range
  exact controlAddress_inj (List.mem_range.mp hi) (List.mem_range.mp hj) h

theorem nodup_pins : ((List.range bank.pins).map (pinAddress bank)).Nodup :=
  List.nodup_range.map fun i j h => by simp only [pinAddress] at h; omega

theorem addresses_cells : addresses (cells bank image) = covered bank := by
  rw [cells, addresses_append, addresses_map, addresses_map, covered]

theorem nodup_covered : (covered bank).Nodup := by
  refine List.nodup_append.mpr ⟨nodup_controls, nodup_pins, fun a ha b hb => ?_⟩
  obtain ⟨i, hi, rfl⟩ := List.mem_map.mp ha
  obtain ⟨pin, -, rfl⟩ := List.mem_map.mp hb
  exact Nat.ne_of_lt (controlAddress_lt (List.mem_range.mp hi))

/-- The registers of a bank lie in the page that starts at its base. -/
theorem covered_range {a : Nat} (hpins : bank.pins ≤ 32) (ha : a ∈ covered bank) :
    bank.base ≤ a ∧ a < bank.base + 0x100 := by
  rcases List.mem_append.mp ha with ha | ha
  · obtain ⟨i, hi, rfl⟩ := List.mem_map.mp ha
    have hlt : controlAddress bank i < pinAddress bank 0 := controlAddress_lt (List.mem_range.mp hi)
    simp only [controlAddress, pinAddress] at hlt ⊢
    omega
  · obtain ⟨pin, hpin, rfl⟩ := List.mem_map.mp ha
    have := List.mem_range.mp hpin
    simp only [pinAddress]
    omega

/-- What reading a control register writes to it. -/
def clearing (bank : Layout.GpioBank) (i : Nat) : List Cell :=
  if i < permissionCount then [(controlAddress bank i, 0)] else []

theorem replay_controlEvents {i : Nat} {w : UInt32} :
    m.replay masksOf (controlEvents bank i w) = m.put (clearing bank i) := by
  unfold controlEvents clearing
  split <;> rfl

theorem eq_of_mem_clearing {i a : Nat} (h : a ∈ addresses (clearing bank i)) : a = controlAddress bank i := by
  unfold clearing at h
  split at h
  · exact List.mem_singleton.mp h
  · cases h

/-- While the controls are read, those that hold permissions are cleared. -/
theorem consistent_controls : ∀ {is : List Nat} {ws : List UInt32} {m : Contents},
    (is.map (controlAddress bank)).Nodup → ws.length = is.length →
    m.Consistent masksOf (List.zipWith (controlEvents bank) is ws).flatten →
    Stand ((is.zip ws).map fun x => (controlAddress bank x.1, x.2)) m.registers ∧
      m.replay masksOf (List.zipWith (controlEvents bank) is ws).flatten = m.put (is.flatMap (clearing bank))
  | [], [], _, _, _, _ => ⟨stand_nil, rfl⟩
  | [], _ :: _, _, _, hlength, _ => absurd hlength (by simp)
  | _ :: _, [], _, _, hlength, _ => absurd hlength (by simp)
  | i :: is, w :: ws, m, hnodup, hlength, h => by
    rw [List.map_cons, List.nodup_cons] at hnodup
    rw [List.zipWith_cons_cons, List.flatten_cons, consistent_append, replay_controlEvents] at h
    obtain ⟨⟨hread, -⟩, hrest⟩ := h
    obtain ⟨hstand, hreplay⟩ := consistent_controls hnodup.2 (Nat.succ.inj hlength) hrest
    -- What is found later was there from the start: clearing this control did not touch it.
    refine ⟨stand_cons.mpr ⟨hread, hstand.congr fun a ha => ?_⟩, ?_⟩
    · refine (overwrite_of_notMem fun ha' => hnodup.1 ?_).symm
      rw [addresses_map, List.mem_map] at ha
      obtain ⟨x, hx, rfl⟩ := ha
      rw [← eq_of_mem_clearing ha']
      exact List.mem_map_of_mem (List.of_mem_zip hx).1
    · rw [List.zipWith_cons_cons, List.flatten_cons, replay_append, replay_controlEvents, hreplay, put_put,
        List.flatMap_cons]

theorem permissions_sub : ∀ x ∈ permissions bank image, x ∈ cells bank image := by
  intro x hx
  obtain ⟨i, hi, rfl⟩ := List.mem_map.mp hx
  have hi : i < controlCount := Nat.lt_trans (List.mem_range.mp hi) (by decide)
  exact List.mem_append_left _ (List.mem_map.mpr ⟨i, List.mem_range.mpr hi, rfl⟩)

theorem adjacent_pins (h : image.pins.length = bank.pins) : adjacent (pinAddress bank 0) image.pins =
    (List.range bank.pins).map fun pin => (pinAddress bank pin, image.pins.getD pin 0) := by
  rw [adjacent_eq_map, h]
  rfl

/-- A bank is read as it stands, also though its permissions are cleared meanwhile, and is left so. -/
theorem stand_of_save (hcontrol : image.control.length = controlCount) (hpins : image.pins.length = bank.pins)
    (h : m.Consistent masksOf (saveEvents bank image)) :
    Stand (cells bank image) m.registers ∧ m.replay masksOf (saveEvents bank image) = m := by
  have hcleared : (List.range controlCount).flatMap (clearing bank) =
      (List.range permissionCount).map fun i => (controlAddress bank i, 0) := rfl
  rw [saveEvents, consistent_append, consistent_append] at h
  obtain ⟨hcontrols, hreads, -⟩ := h
  obtain ⟨hstand, hreplay⟩ := consistent_controls nodup_controls (by simpa using hcontrol) hcontrols
  rw [hcleared] at hreplay
  rw [hreplay, consistent_reads, adjacent_pins hpins] at hreads
  rw [← hcontrol, range_zip, List.map_map, hcontrol] at hstand
  have hcells : Stand (cells bank image) m.registers := by
    refine stand_append.mpr ⟨hstand, hreads.congr fun a ha => (overwrite_of_notMem fun ha' => ?_).symm⟩
    rw [addresses_map, List.mem_map] at ha ha'
    obtain ⟨pin, -, rfl⟩ := ha
    obtain ⟨i, hi, heq⟩ := ha'
    have hi : i < controlCount := Nat.lt_trans (List.mem_range.mp hi) (by decide)
    exact absurd heq (Nat.ne_of_lt (controlAddress_lt hi))
  have hperm : Stand (permissions bank image) m.registers := fun x hx => hcells x (permissions_sub x hx)
  refine ⟨hcells, ?_⟩
  rw [saveEvents, replay_append, replay_append, hreplay, replay_reads, replay_writes]
  refine put_undone hperm fun a ha => ?_
  rw [addresses_map] at ha
  rwa [permissions, addresses_map]

/-- What restoring a bank writes after it has cleared the permissions. -/
theorem restoreCells_perm (bank : Layout.GpioBank) (image : GpioImage) : ∃ late, restoreCells bank image =
    (List.range permissionCount).map (fun i => (controlAddress bank i, 0)) ++ late ∧ late.Perm (cells bank image) := by
  refine ⟨_, rfl, ?_⟩
  have hcontrols : (List.range controlCount).map (fun i => (controlAddress bank i, image.control.getD i 0)) =
      permissions bank image ++ (List.range (controlCount - permissionCount)).map (fun i =>
        (controlAddress bank (permissionCount + i), image.control.getD (permissionCount + i) 0)) := rfl
  rw [cells, hcontrols]
  exact List.perm_append_comm.trans (List.perm_append_comm.append_right _)

theorem stand_of_restore {registers : Nat → UInt32} :
    Stand (cells bank image) (overwrite registers (restoreCells bank image)) := by
  obtain ⟨late, heq, hperm⟩ := restoreCells_perm bank image
  rw [heq, overwrite_append]
  have hcells : (addresses (cells bank image)).Nodup := addresses_cells ▸ nodup_covered
  have hnodup : (addresses late).Nodup := (hperm.map _).nodup_iff.mpr hcells
  exact fun x hx => stand_overwrite hnodup x (hperm.mem_iff.mpr hx)

theorem addresses_restoreCells : ∀ a ∈ addresses (restoreCells bank image), a ∈ addresses (cells bank image) := by
  obtain ⟨late, heq, hperm⟩ := restoreCells_perm bank image
  intro a ha
  rw [heq, addresses_append, List.mem_append] at ha
  rcases ha with ha | ha
  · rw [addresses_map] at ha
    obtain ⟨i, hi, rfl⟩ := List.mem_map.mp ha
    rw [addresses_cells]
    refine List.mem_append_left _ (List.mem_map_of_mem (List.mem_range.mpr ?_))
    exact Nat.lt_trans (List.mem_range.mp hi) (by decide)
  · exact (hperm.map _).mem_iff.mp ha

theorem canWake_iff {registers : Nat → UInt32} (hpins : image.pins.length = bank.pins)
    (h : Stand (cells bank image) registers) :
    image.canWake = true ↔ ∃ pin < bank.pins, registers (pinAddress bank pin) ≠ 0 := by
  have hpin : ∀ pin < bank.pins, registers (pinAddress bank pin) = image.pins.getD pin 0 := fun pin hlt =>
    h (pinAddress bank pin, image.pins.getD pin 0)
      (List.mem_append_right _ (List.mem_map.mpr ⟨pin, List.mem_range.mpr hlt, rfl⟩))
  simp only [canWake, List.any_eq_true, bne_iff_ne]
  constructor
  · rintro ⟨w, hw, hne⟩
    obtain ⟨pin, hlt, rfl⟩ := List.mem_iff_getElem.mp hw
    refine ⟨pin, hpins ▸ hlt, ?_⟩
    rw [hpin pin (hpins ▸ hlt), List.getD_eq_getElem?_getD, List.getElem?_eq_getElem hlt, Option.getD_some]
    exact hne
  · rintro ⟨pin, hlt, hne⟩
    rw [hpin pin hlt, List.getD_eq_getElem?_getD, List.getElem?_eq_getElem (hpins ▸ hlt), Option.getD_some] at hne
    exact ⟨_, List.getElem_mem _, hne⟩

end GpioImage

/-! ### Watchdogs -/

theorem replay_polled {a : Nat} {test : UInt32 → Bool} {o : Except PollTimeout Unit} (h : Run.Polled a test L o) :
    m.replay masksOf L = m := by
  refine replay_eq fun e he => ?_
  rcases h.watches e he with ⟨w, rfl⟩ | ⟨t, rfl⟩ <;> rfl

namespace WatchdogImage
variable {base : Nat} {image : WatchdogImage} {o : Except PollTimeout Unit}

def covered (base : Nat) : List Nat := [controlAddress base, timeoutAddress base]

theorem addresses_cells : addresses (cells base image) = covered base := rfl

/-- Also a watchdog that is left alone holds what its image has. -/
theorem put_of_restore (h : Restores base image L o) (hc : m.Consistent masksOf L) :
    m.replay masksOf L = m.put (cells base image) := by
  cases h with
  | same => rw [replay_reads, put_of_stand (consistent_reads.mp hc)]
  | unlocked _ hL => rw [replay_append, replay_append, replay_reads, replay_writes, replay_polled hL]
  | locked _ hL hM =>
    rw [replay_append, replay_append, replay_append, replay_reads, replay_writes, replay_polled hL, replay_polled hM]

end WatchdogImage

/-! ### Everything -/

namespace Snapshot
variable {s : Snapshot κ} {registers : Nat → UInt32}

/-- The registers that a snapshot covers: the timing of every flash controller, and the registers of
    every bank of pins and of every watchdog. -/
def covered : List Nat :=
  Layout.flashControllers.map flashTiming ++
    (Layout.gpioBanks.flatMap GpioImage.covered ++ Layout.watchdogs.flatMap WatchdogImage.covered)

theorem mem_range_of_mem_banks {a : Nat} (ha : a ∈ Layout.gpioBanks.flatMap GpioImage.covered) :
    0x43000000 ≤ a ∧ a < 0x44000000 := by
  have hbanks : ∀ bank ∈ Layout.gpioBanks,
      bank.pins ≤ 32 ∧ 0x43000000 ≤ bank.base ∧ bank.base + 0x100 ≤ 0x44000000 := by decide
  obtain ⟨bank, hbank, ha⟩ := List.mem_flatMap.mp ha
  obtain ⟨hpins, hlow, hhigh⟩ := hbanks bank hbank
  have := GpioImage.covered_range hpins ha
  omega

theorem nodup_banks : (Layout.gpioBanks.flatMap GpioImage.covered).Nodup := by
  refine List.nodup_flatMap.mpr ⟨fun bank _ => GpioImage.nodup_covered, ?_⟩
  have hapart : Layout.gpioBanks.Pairwise fun x y => x.pins ≤ 32 ∧ y.pins ≤ 32 ∧ x.base + 0x100 ≤ y.base := by decide
  refine hapart.imp ?_
  rintro x y ⟨hx, hy, hbase⟩ a hax hay
  have := GpioImage.covered_range hx hax
  have := GpioImage.covered_range hy hay
  omega

theorem nodup_covered : covered.Nodup := by
  have hflash : ∀ a ∈ Layout.flashControllers.map flashTiming, a < 0x43000000 := by decide
  have hdogs : ∀ a ∈ Layout.watchdogs.flatMap WatchdogImage.covered, 0x44000000 ≤ a := by decide
  refine List.nodup_append.mpr ⟨by decide, List.nodup_append.mpr ⟨nodup_banks, by decide, ?_⟩, ?_⟩
  · intro a ha b hb
    have := mem_range_of_mem_banks ha
    have := hdogs b hb
    omega
  · intro a ha b hb
    have := hflash a ha
    rcases List.mem_append.mp hb with hb | hb
    · have := mem_range_of_mem_banks hb
      omega
    · have := hdogs b hb
      omega

def watchdogCells (s : Snapshot κ) : List Cell := s.watchdogImages.flatMap fun x => x.2.cells x.1

/-- The covered registers with what the snapshot has for them. -/
def entries (s : Snapshot κ) : List Cell :=
  s.flashCells ++ (s.pinImages.flatMap (fun x => x.2.cells x.1) ++ s.watchdogCells)

theorem addresses_tabled {ι α : Type} {devices : List ι} {images : List α} {d : α} {cells : ι → α → List Cell}
    {registers : ι → List Nat} (h : ∀ i a, addresses (cells i a) = registers i) :
    addresses ((tabled devices images d).flatMap fun x => cells x.1 x.2) = devices.flatMap registers := by
  simp only [addresses] at h ⊢
  simp only [List.map_flatMap, h]
  rw [← List.flatMap_map, map_fst_tabled]

theorem addresses_flashCells : addresses s.flashCells = Layout.flashControllers.map flashTiming := by
  have hdevices : (tabled Layout.flashControllers s.flash 0).map (·.1) = Layout.flashControllers := map_fst_tabled
  have htimings := congrArg (List.map flashTiming) hdevices
  rw [List.map_map] at htimings
  rw [flashCells, addresses_map]
  exact htimings

theorem addresses_watchdogCells : addresses s.watchdogCells = Layout.watchdogs.flatMap WatchdogImage.covered :=
  addresses_tabled fun _ _ => WatchdogImage.addresses_cells

theorem addresses_entries : addresses s.entries = covered := by
  have hpins : addresses (s.pinImages.flatMap fun x => x.2.cells x.1) = Layout.gpioBanks.flatMap GpioImage.covered :=
    addresses_tabled fun _ _ => GpioImage.addresses_cells
  rw [entries, addresses_append, addresses_append, addresses_flashCells, hpins, addresses_watchdogCells, covered]

/-- The snapshot is of these contents. -/
def Holds (masksOf : κ → Nat → UInt32) (s : Snapshot κ) (m : Contents) : Prop :=
  Stand s.entries m.registers ∧ masksOf s.interrupts = m.masks

/-- Whatever a snapshot covers is as it was. -/
def Kept (m m' : Contents) : Prop := (∀ a ∈ covered, m'.registers a = m.registers a) ∧ m'.masks = m.masks

/-- Contents that come from a snapshot are kept exactly if the snapshot was of them. -/
theorem Holds.kept_iff {m' : Contents} (h : s.Holds masksOf m') : Kept m m' ↔ s.Holds masksOf m := by
  constructor
  · rintro ⟨hregisters, hmasks⟩
    exact ⟨h.1.congr fun a ha => (hregisters a (addresses_entries ▸ ha)).symm, h.2.trans hmasks⟩
  · rintro ⟨hstand, hmasks⟩
    refine ⟨fun a ha => ?_, h.2.symm.trans hmasks⟩
    rw [← addresses_entries (s := s)] at ha
    obtain ⟨x, hx, rfl⟩ := List.mem_map.mp ha
    rw [h.1 x hx, hstand x hx]

/-! #### Saving -/

theorem stand_of_savePins : ∀ {images : List (Layout.GpioBank × GpioImage)},
    (∀ x ∈ images, x.2.control.length = GpioImage.controlCount ∧ x.2.pins.length = x.1.pins) →
    m.Consistent masksOf (images.flatMap fun x => x.2.saveEvents x.1) →
    Stand (images.flatMap fun x => x.2.cells x.1) m.registers ∧
      m.replay masksOf (images.flatMap fun x => x.2.saveEvents x.1) = m
  | [], _, _ => ⟨stand_nil, rfl⟩
  | x :: images, hfull, h => by
    rw [List.flatMap_cons, consistent_append] at h
    obtain ⟨hcontrol, hpins⟩ := hfull x List.mem_cons_self
    obtain ⟨hx, hreplay⟩ := GpioImage.stand_of_save hcontrol hpins h.1
    rw [hreplay] at h
    obtain ⟨himages, hrest⟩ := stand_of_savePins (fun y hy => hfull y (List.mem_cons_of_mem x hy)) h.2
    rw [List.flatMap_cons, List.flatMap_cons, replay_append, hreplay, hrest]
    exact ⟨stand_append.mpr ⟨hx, himages⟩, rfl⟩

/-- A save of any groups leaves all registers as they are, and finds what those of the groups hold. -/
theorem stand_of_saveGroups {set : ContextSet} (hfull : set.contains .pins = true → ∀ x ∈ s.pinImages,
      x.2.control.length = GpioImage.controlCount ∧ x.2.pins.length = x.1.pins)
    (h : m.Consistent masksOf (s.saveEvents set)) :
    (set.contains .flash = true → Stand s.flashCells m.registers) ∧
      (set.contains .pins = true → Stand (s.pinImages.flatMap fun x => x.2.cells x.1) m.registers) ∧
      (set.contains .watchdogs = true → Stand s.watchdogCells m.registers) ∧
      m.replay masksOf (s.saveEvents set) = m := by
  have hgic : m.replay masksOf (if set.contains .interrupts then [.saveGic s.interrupts] else []) = m := by
    split <;> rfl
  have hreads : ∀ (b : Bool) (cells : List Cell), m.replay masksOf (if b then reads cells else []) = m := by
    intro b cells
    cases b
    · rfl
    · exact replay_reads
  have hfound : ∀ (b : Bool) (cells : List Cell), m.Consistent masksOf (if b then reads cells else []) →
      b = true → Stand cells m.registers := by
    rintro _ cells h rfl
    exact consistent_reads.mp h
  have hbanks : ∀ b, (b = true → ∀ x ∈ s.pinImages,
        x.2.control.length = GpioImage.controlCount ∧ x.2.pins.length = x.1.pins) →
      m.Consistent masksOf (if b then s.pinImages.flatMap fun x => x.2.saveEvents x.1 else []) →
      (b = true → Stand (s.pinImages.flatMap fun x => x.2.cells x.1) m.registers) ∧
        m.replay masksOf (if b then s.pinImages.flatMap fun x => x.2.saveEvents x.1 else []) = m := by
    intro b hfull h
    cases b with
    | false => exact ⟨nofun, rfl⟩
    | true => exact (stand_of_savePins (hfull rfl) h).imp_left fun hstand _ => hstand
  rw [saveEvents, consistent_append, consistent_append, consistent_append, hgic, hreads] at h
  obtain ⟨-, hflash, hpins, hdogs⟩ := h
  obtain ⟨hstand, hreplay⟩ := hbanks _ hfull hpins
  rw [hreplay] at hdogs
  refine ⟨hfound _ _ hflash, hstand, hfound _ _ hdogs, ?_⟩
  rw [saveEvents, replay_append, replay_append, replay_append, hgic, hreads, hreplay, hreads]

/-- A save finds what the covered registers hold, and leaves them so. -/
theorem stand_of_save (hfull : ∀ x ∈ s.pinImages,
      x.2.control.length = GpioImage.controlCount ∧ x.2.pins.length = x.1.pins)
    (h : m.Consistent masksOf (s.saveEvents .peripherals)) :
    Stand s.entries m.registers ∧ m.replay masksOf (s.saveEvents .peripherals) = m := by
  obtain ⟨hflash, hpins, hdogs, hreplay⟩ := stand_of_saveGroups (fun _ => hfull) h
  exact ⟨stand_append.mpr ⟨hflash rfl, stand_append.mpr ⟨hpins rfl, hdogs rfl⟩⟩, hreplay⟩

/-- A snapshot that holds every bank finds a pin that can wake the system exactly if there is one. -/
theorem any_canWake_iff (hbanks : s.pins.length = Layout.gpioBanks.length)
    (hfull : ∀ x ∈ s.pinImages, x.2.control.length = GpioImage.controlCount ∧ x.2.pins.length = x.1.pins)
    (h : Stand (s.pinImages.flatMap fun x => x.2.cells x.1) registers) : s.pins.any GpioImage.canWake = true ↔
      ∃ bank ∈ Layout.gpioBanks, ∃ pin < bank.pins, registers (GpioImage.pinAddress bank pin) ≠ 0 := by
  have himages : s.pinImages = Layout.gpioBanks.zip s.pins := tabled_eq_zip hbanks
  have hwake : ∀ x ∈ s.pinImages, x.2.canWake = true ↔
      ∃ pin < x.1.pins, registers (GpioImage.pinAddress x.1 pin) ≠ 0 := by
    intro x hx
    exact GpioImage.canWake_iff (hfull x hx).2 fun cell hcell => h cell (List.mem_flatMap.mpr ⟨x, hx, hcell⟩)
  have hbank : s.pinImages.map (·.1) = Layout.gpioBanks := map_fst_tabled
  have himage : s.pinImages.map (·.2) = s.pins := by
    rw [himages]
    exact List.map_snd_zip (Nat.le_of_eq hbanks)
  rw [List.any_eq_true, ← himage]
  simp only [List.mem_map, ← hbank]
  constructor
  · rintro ⟨_, ⟨x, hx, rfl⟩, hcan⟩
    exact ⟨x.1, ⟨x, hx, rfl⟩, (hwake x hx).mp hcan⟩
  · rintro ⟨_, ⟨x, hx, rfl⟩, hpin⟩
    exact ⟨x.2, ⟨x, hx, rfl⟩, (hwake x hx).mpr hpin⟩

/-! #### Restoring -/

theorem put_of_restoreWatchdogs {images : List (Nat × WatchdogImage)} {os : List (Except PollTimeout Unit)}
    (h : RestoresWatchdogs images L os) : ∀ {m : Contents}, m.Consistent masksOf L →
      m.replay masksOf L = m.put (images.flatMap fun x => x.2.cells x.1) := by
  induction h with
  | nil => exact fun _ => rfl
  | cons hdog _ ih =>
    intro m hc
    rw [consistent_append] at hc
    have hput := WatchdogImage.put_of_restore hdog hc.1
    rw [hput] at hc
    rw [replay_append, hput, ih hc.2, put_put, List.flatMap_cons]

/-- Whatever the registers held, after a restore they hold what the snapshot has. -/
theorem stand_of_restore :
    Stand s.entries (overwrite registers (s.flashCells ++ (s.pinCells ++ s.watchdogCells))) := by
  have hnodup : (addresses s.entries).Nodup := addresses_entries ▸ nodup_covered
  rw [entries, addresses_append, addresses_append, List.nodup_append, List.nodup_append] at hnodup
  obtain ⟨hflash, ⟨hpins, hdogs, hpinsDogs⟩, hflashRest⟩ := hnodup
  have hsub : ∀ a ∈ addresses s.pinCells, a ∈ addresses (s.pinImages.flatMap fun x => x.2.cells x.1) := by
    intro a ha
    simp only [pinCells, addresses, List.map_flatMap, List.mem_flatMap] at ha ⊢
    obtain ⟨x, hx, ha⟩ := ha
    exact ⟨x, hx, GpioImage.addresses_restoreCells a ha⟩
  -- The three kinds of devices are written one after the other and have no register in common.
  rw [overwrite_append, overwrite_append]
  refine stand_append.mpr ⟨?_, stand_append.mpr ⟨?_, stand_overwrite hdogs⟩⟩
  · refine ((stand_overwrite hflash).overwrite fun a ha ha' => ?_).overwrite fun a ha ha' => ?_
    · exact hflashRest a ha a (List.mem_append_left _ (hsub a ha')) rfl
    · exact hflashRest a ha a (List.mem_append_right _ ha') rfl
  · refine Stand.overwrite (stand_blocks (fun x _ _ => GpioImage.stand_of_restore)
      (fun x _ => GpioImage.addresses_restoreCells) hpins) fun a ha ha' => ?_
    exact hpinsDogs a ha a ha' rfl

end Snapshot

end PowerFirmware
