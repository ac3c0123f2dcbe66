import PowerFirmware.Proofs.Accesses
import PowerFirmware.Proofs.Answers

/-! Which accesses save and restore the state of peripherals, and in what order. Main statements: what a
save reads is what it answers (`does_save`), and a restore writes what the snapshot holds, apart from
watchdogs that already are as saved (`does_restore`). -/

namespace PowerFirmware
open Cells Run

variable {κ ι α β : Type} {env : Environment κ} {F : List (Event κ) → Prop}

theorem does_writes {f : ι → Nat} {g : ι → UInt32} {is : List ι} :
    DoesOr (E := env) F (is.forM fun i => write32 (f i) (g i)) fun _ L => L = writes (is.map fun i => (f i, g i)) := by
  refine (DoesOr.forM fun i _ _ => .write rfl).imp ?_ fun _ hF => hF
  rintro _ _ rfl
  rw [writes, List.map_map, ← List.flatMap_pure_eq_map]
  rfl

/-! ### Tables -/

/-- The devices of a table with what a snapshot holds for each, or `d` if it holds nothing. -/
def tabled (devices : List ι) (images : List α) (d : α) : List (ι × α) :=
  devices.zipIdx.map fun x => (x.1, images.getD x.2 d)

theorem map_fst_tabled {devices : List ι} {images : List α} {d : α} :
    (tabled devices images d).map (·.1) = devices := by
  rw [tabled, List.map_map]
  exact List.zipIdx_map_fst 0 devices

theorem tabled_eq_zip {devices : List ι} {images : List α} {d : α} (h : images.length = devices.length) :
    tabled devices images d = devices.zip images := by
  apply List.ext_getElem
  · simp [tabled, h]
  · intro i hi _
    simp only [tabled, List.length_map, List.length_zipIdx] at hi
    simp [tabled, List.getD_eq_getElem?_getD, List.getElem?_eq_getElem (show i < images.length by omega)]

theorem zipWith_eq_map_tabled {devices : List ι} {images : List α} {d : α} {f : ι → α → β}
    (h : images.length = devices.length) :
    List.zipWith f devices images = (tabled devices images d).map fun x => f x.1 x.2 := by
  rw [tabled_eq_zip h, List.zip, List.map_zipWith]

/-! ### Pins -/

namespace GpioImage
variable {bank : Layout.GpioBank} {image : GpioImage}

/-- A control register is read, and cleared at once if it holds permissions. -/
def controlEvents (bank : Layout.GpioBank) (i : Nat) (w : UInt32) : List (Event κ) :=
  .read (controlAddress bank i) w :: if i < permissionCount then [.write (controlAddress bank i) 0] else []

/-- The permissions of a bank, as they are put back in the end. -/
def permissions (bank : Layout.GpioBank) (image : GpioImage) : List Cell :=
  (List.range permissionCount).map fun i => (controlAddress bank i, image.control.getD i 0)

def saveEvents (bank : Layout.GpioBank) (image : GpioImage) : List (Event κ) :=
  (List.zipWith (controlEvents bank) (List.range controlCount) image.control).flatten ++
    (reads (adjacent (pinAddress bank 0) image.pins) ++ writes (permissions bank image))

/-- What restoring a bank writes, in order. -/
def restoreCells (bank : Layout.GpioBank) (image : GpioImage) : List Cell :=
  (List.range permissionCount).map (fun i => (controlAddress bank i, 0)) ++
    ((List.range bank.pins).map (fun pin => (pinAddress bank pin, image.pins.getD pin 0)) ++
      ((List.range (controlCount - permissionCount)).map (fun i =>
          (controlAddress bank (permissionCount + i), image.control.getD (permissionCount + i) 0)) ++
        permissions bank image))

theorem does_save : Does (E := env) (save bank) fun image L =>
    image.control.length = controlCount ∧ image.pins.length = bank.pins ∧ L = saveEvents bank image := by
  have hcontrol : ∀ i ∈ List.range controlCount, Does (E := env) (do
      let w ← read32 (controlAddress bank i)
      if i < permissionCount then write32 (controlAddress bank i) 0
      return w) fun w L => True ∧ L = controlEvents bank i w := by
    intro i _
    refine .bind (.read fun w => ?_)
    by_cases hi : i < permissionCount
    · simp only [hi, if_true]
      exact .bind (.write (.pure (by simp [controlEvents, hi])))
    · simp only [hi, if_false]
      exact .bind (.pure (.pure (by simp [controlEvents, hi])))
  refine .bind ((Does.mapM hcontrol).imp ?_)
  rintro control _ ⟨hcount, -, rfl⟩
  refine .bind (Does.imp DoesOr.readWords ?_)
  rintro pins _ ⟨hpins, rfl⟩
  refine .bind (Does.imp does_writes ?_)
  rintro _ _ rfl
  exact .pure ⟨by simpa using hcount, hpins, by simp [saveEvents, permissions]⟩

theorem does_restore : DoesOr (E := env) F (restore bank image) fun _ L => L = writes (restoreCells bank image) := by
  refine .bind (does_writes.imp ?_ fun _ hF => hF)
  rintro _ _ rfl
  refine .bind (does_writes.imp ?_ fun _ hF => hF)
  rintro _ _ rfl
  refine .bind (does_writes.imp ?_ fun _ hF => hF)
  rintro _ _ rfl
  refine does_writes.imp ?_ fun _ hF => hF
  rintro _ _ rfl
  simp only [restoreCells, permissions, writes_append]

end GpioImage

/-! ### Watchdogs -/

namespace WatchdogImage
variable {base : Nat} {image : WatchdogImage}

def cells (base : Nat) (image : WatchdogImage) : List Cell :=
  [(controlAddress base, image.control), (timeoutAddress base, image.timeout)]

theorem does_save : Does (E := env) (save base) fun image L => L = reads (cells base image) :=
  .bind (.read fun _ => .bind (.read fun _ => .pure rfl))

def isLocked (control : UInt32) : Bool := control &&& unlocked == 0

def isReconfigured (control : UInt32) : Bool := control &&& reconfigured != 0

section Rewriting
variable {budget : PollBudget} {W : (UInt32 → Bool) → List (Event κ) → Except PollTimeout Unit → Prop}
variable {G : (UInt32 → Bool) → List (Event κ) → Prop}

/-- How a watchdog is put back if the waits for it go as `W` says, and how that ends. One that is as saved is
    left alone. -/
inductive PutBack (W : (UInt32 → Bool) → List (Event κ) → Except PollTimeout Unit → Prop) (base : Nat)
    (image : WatchdogImage) : List (Event κ) → Except PollTimeout Unit → Prop
  | same : PutBack W base image (reads (cells base image)) (.ok ())
  | unlocked {live : WatchdogImage} {L : List (Event κ)} {t : PollTimeout} : live ≠ image →
      W isLocked L (.error t) →
      PutBack W base image (reads (cells base live) ++ (writes (cells base image) ++ L)) (.error t)
  | locked {live : WatchdogImage} {L M : List (Event κ)} {o : Except PollTimeout Unit} : live ≠ image →
      W isLocked L (.ok ()) → W isReconfigured M o →
      PutBack W base image (reads (cells base live) ++ (writes (cells base image) ++ (L ++ M))) o

/-- A watchdog has been rewritten, and one of the waits for it goes on without end, as `G` says. -/
inductive Stuck (W : (UInt32 → Bool) → List (Event κ) → Except PollTimeout Unit → Prop)
    (G : (UInt32 → Bool) → List (Event κ) → Prop) (base : Nat) (image : WatchdogImage) : List (Event κ) → Prop
  | unlocked {live : WatchdogImage} {L : List (Event κ)} : live ≠ image → G isLocked L →
      Stuck W G base image (reads (cells base live) ++ (writes (cells base image) ++ L))
  | locked {live : WatchdogImage} {L M : List (Event κ)} : live ≠ image → W isLocked L (.ok ()) →
      G isReconfigured M → Stuck W G base image (reads (cells base live) ++ (writes (cells base image) ++ (L ++ M)))

theorem doesOr_restore (hwait : ∀ test, DoesOr (E := env) (G test)
      (pollUntil budget (do return test (← read32 (controlAddress base)))) fun o L => W test L o) :
    DoesOr (E := env) (Stuck W G base image) (restore base image budget) fun o L => PutBack W base image L o := by
  refine .bind (.read fun control => .bind (.read fun timeout => ?_))
  split
  · rename_i hsame
    simp only [Bool.and_eq_true, beq_iff_eq] at hsame
    obtain ⟨rfl, rfl⟩ := hsame
    exact .pure .same
  · rename_i hdiffers
    have hlive : (⟨control, timeout⟩ : WatchdogImage) ≠ image := by
      rintro rfl
      simp at hdiffers
    refine .bind (.write (.bind (.write (.bind ((hwait isLocked).imp (fun o L hL => ?_) fun L hL => ?_)))))
    · cases o with
      | error t => exact .pure (by simp only [List.append_nil]; exact .unlocked hlive hL)
      | ok _ => exact (hwait isReconfigured).imp (fun o M hM => .locked hlive hL hM) fun M hM => .locked hlive hL hM
    · exact .unlocked hlive hL

end Rewriting

/-- How restoring a watchdog goes, and how it ends. -/
def Restores (base : Nat) (image : WatchdogImage) : List (Event κ) → Except PollTimeout Unit → Prop :=
  PutBack (Polled (controlAddress base)) base image

theorem does_restore : Does (E := env) (restore base image env.budget) fun o L => Restores base image L o := by
  have hwait : ∀ test, Does (E := env) (pollUntil env.budget (do return test (← read32 (controlAddress base))))
      fun o L => Polled (controlAddress base) test L o := fun _ => .pollUntil fun _ _ hL => hL
  refine (doesOr_restore hwait).imp (fun o L h => h) fun L h => ?_
  cases h with
  | unlocked _ hL => exact hL.append.append
  | locked _ _ hM => exact hM.append.append.append

end WatchdogImage

/-! ### Everything -/

/-- The first failure among outcomes, or success if there is none. -/
def firstFailure {ε : Type} : List (Except ε Unit) → Except ε Unit
  | [] => .ok ()
  | .error e :: _ => .error e
  | .ok () :: rest => firstFailure rest

theorem firstFailure_eq_ok {ε : Type} : ∀ {os : List (Except ε Unit)}, firstFailure os = .ok () ↔ ∀ o ∈ os, o = .ok ()
  | [] => by simp [firstFailure]
  | .error e :: os => by simp [firstFailure]
  | .ok () :: os => by simp [firstFailure, firstFailure_eq_ok]

namespace Snapshot
variable {s : Snapshot κ} {set : ContextSet}

def flashCells (s : Snapshot κ) : List Cell :=
  (tabled Layout.flashControllers s.flash 0).map fun x => (flashTiming x.1, x.2)

def pinImages (s : Snapshot κ) : List (Layout.GpioBank × GpioImage) := tabled Layout.gpioBanks s.pins {}
def watchdogImages (s : Snapshot κ) : List (Nat × WatchdogImage) := tabled Layout.watchdogs s.watchdogs {}

/-- The accesses of a save, by the snapshot that it answers. -/
def saveEvents (set : ContextSet) (s : Snapshot κ) : List (Event κ) :=
  (if set.contains .interrupts then [.saveGic s.interrupts] else []) ++
    ((if set.contains .flash then reads s.flashCells else []) ++
      ((if set.contains .pins then s.pinImages.flatMap fun x => x.2.saveEvents x.1 else []) ++
        if set.contains .watchdogs then reads (s.watchdogImages.flatMap fun x => x.2.cells x.1) else []))

/-- `s'` is `s` with the groups in `set` taken anew, banks of pins with all their registers. -/
structure Retaken (set : ContextSet) (s s' : Snapshot κ) : Prop where
  interrupts : set.contains .interrupts = false → s'.interrupts = s.interrupts
  flash : set.contains .flash = false → s'.flash = s.flash
  pins : set.contains .pins = false → s'.pins = s.pins
  watchdogs : set.contains .watchdogs = false → s'.watchdogs = s.watchdogs
  banks : set.contains .pins = true → s'.pins.length = Layout.gpioBanks.length
  full : set.contains .pins = true → ∀ x ∈ s'.pinImages,
    x.2.control.length = GpioImage.controlCount ∧ x.2.pins.length = x.1.pins
  pinWakeup : s'.pinWakeup = (s.pinWakeup || (set.contains .pins && s'.pins.any GpioImage.canWake))

/-- A part of a run that is left out unless asked for. -/
theorem does_ite {x : Run (History env) α} {a : α} {f : α → Run (History env) β} {events : α → List (Event κ)}
    {P : α → Prop} {Ψ : β → List (Event κ) → Prop} {b : Bool} (h : Does x fun a L => P a ∧ L = events a)
    (hf : ∀ a', (b = false → a' = a) → (b = true → P a') →
      Does (f a') fun r M => Ψ r ((if b then events a' else []) ++ M)) :
    Does (if b then x >>= f else pure a >>= f) Ψ := by
  cases b with
  | true =>
    refine .bind (h.imp ?_)
    rintro a' _ ⟨ha, rfl⟩
    exact hf a' (fun hb => Bool.noConfusion hb) fun _ => ha
  | false => exact .bind (.pure (hf a (fun _ => rfl) fun hb => Bool.noConfusion hb))

theorem does_when {x : Run (History env) Unit} {f : Unit → Run (History env) β} {L : List (Event κ)}
    {Ψ : β → List (Event κ) → Prop} {b : Bool} (h : DoesOr F x fun _ M => M = L)
    (hf : DoesOr (fun M => F ((if b then L else []) ++ M)) (f ()) fun r M => Ψ r ((if b then L else []) ++ M)) :
    DoesOr F (if b then x >>= f else f ()) Ψ := by
  cases b with
  | true =>
    refine .bind (h.imp ?_ fun _ hF => hF)
    rintro _ _ rfl
    exact hf
  | false => exact hf

theorem does_saveFlash : Does (E := env) (Layout.flashControllers.mapM fun base => read32 (flashTiming base))
    fun ws L => True ∧ L = reads ((tabled Layout.flashControllers ws 0).map fun x => (flashTiming x.1, x.2)) := by
  have hread : ∀ base ∈ Layout.flashControllers, Does (E := env) (read32 (flashTiming base))
      fun w L => True ∧ L = [.read (flashTiming base) w] := fun _ _ => .read fun _ => ⟨trivial, rfl⟩
  refine (Does.mapM hread).imp ?_
  rintro ws _ ⟨hlength, -, rfl⟩
  rw [zipWith_eq_map_tabled hlength, ← List.flatMap_def, reads, List.map_map, ← List.flatMap_pure_eq_map]
  exact ⟨trivial, rfl⟩

theorem does_savePins : Does (E := env) (Layout.gpioBanks.mapM GpioImage.save) fun images L =>
    (images.length = Layout.gpioBanks.length ∧ ∀ x ∈ tabled Layout.gpioBanks images {},
        x.2.control.length = GpioImage.controlCount ∧ x.2.pins.length = x.1.pins) ∧
      L = (tabled Layout.gpioBanks images {}).flatMap fun x => x.2.saveEvents x.1 := by
  have hsave : ∀ bank ∈ Layout.gpioBanks, Does (E := env) (GpioImage.save bank) fun image L =>
      (image.control.length = GpioImage.controlCount ∧ image.pins.length = bank.pins) ∧
        L = GpioImage.saveEvents bank image :=
    fun _ _ => GpioImage.does_save.imp fun _ _ h => ⟨⟨h.1, h.2.1⟩, h.2.2⟩
  refine (Does.mapM hsave).imp ?_
  rintro images _ ⟨hlength, hfull, rfl⟩
  rw [tabled_eq_zip hlength]
  refine ⟨⟨hlength, hfull⟩, ?_⟩
  rw [List.flatMap_def, List.zip, List.map_zipWith]

theorem does_saveWatchdogs : Does (E := env) (Layout.watchdogs.mapM WatchdogImage.save) fun images L =>
    True ∧ L = reads ((tabled Layout.watchdogs images {}).flatMap fun x => x.2.cells x.1) := by
  have hsave : ∀ base ∈ Layout.watchdogs, Does (E := env) (WatchdogImage.save base) fun image L =>
      True ∧ L = reads (WatchdogImage.cells base image) :=
    fun _ _ => WatchdogImage.does_save.imp fun _ _ h => ⟨trivial, h⟩
  refine (Does.mapM hsave).imp ?_
  rintro images _ ⟨hlength, -, rfl⟩
  rw [zipWith_eq_map_tabled hlength, ← List.flatMap_def, reads, List.map_flatMap]
  exact ⟨trivial, rfl⟩

theorem does_save : Does (save env.gic set s) fun s' L => Retaken set s s' ∧ L = saveEvents set s' := by
  have hgic : Does (E := env) (env.gic.save s.interrupts) fun k L => True ∧ L = [.saveGic k] :=
    fun past => ⟨[.saveGic (env.saveGic past.events s.interrupts)], rfl, ⟨⟨_, rfl⟩, trivial⟩, trivial, rfl⟩
  refine does_ite hgic fun interrupts hinterrupts _ => ?_
  refine does_ite does_saveFlash fun flash hflash _ => ?_
  refine does_ite does_savePins fun pins hpins htaken => ?_
  refine does_ite does_saveWatchdogs fun watchdogs hwatchdogs _ => ?_
  refine .bind (.log (.pure ⟨⟨hinterrupts, hflash, hpins, hwatchdogs, fun h => (htaken h).1, fun h => (htaken h).2, rfl⟩, ?_⟩))
  simp only [List.append_nil]
  rfl

section OneByOne
variable {P : Nat × WatchdogImage → List (Event κ) → Except PollTimeout Unit → Prop}
variable {G : Nat × WatchdogImage → List (Event κ) → Prop} {budget : PollBudget}

/-- What is done to watchdogs one after the other, each as `P` says, and how that ends for each of them. -/
inductive OneByOne (P : Nat × WatchdogImage → List (Event κ) → Except PollTimeout Unit → Prop) :
    List (Nat × WatchdogImage) → List (Event κ) → List (Except PollTimeout Unit) → Prop
  | nil : OneByOne P [] [] []
  | cons {x : Nat × WatchdogImage} {xs : List (Nat × WatchdogImage)} {L M : List (Event κ)}
      {o : Except PollTimeout Unit} {os : List (Except PollTimeout Unit)} :
      P x L o → OneByOne P xs M os → OneByOne P (x :: xs) (L ++ M) (o :: os)

/-- Some watchdogs are done with, and what is done to the next one goes on without end, as `G` says. -/
inductive StuckAt (P : Nat × WatchdogImage → List (Event κ) → Except PollTimeout Unit → Prop)
    (G : Nat × WatchdogImage → List (Event κ) → Prop) : List (Nat × WatchdogImage) → List (Event κ) → Prop
  | here {x : Nat × WatchdogImage} {xs : List (Nat × WatchdogImage)} {L : List (Event κ)} :
      G x L → StuckAt P G (x :: xs) L
  | later {x : Nat × WatchdogImage} {xs : List (Nat × WatchdogImage)} {L M : List (Event κ)}
      {o : Except PollTimeout Unit} : P x L o → StuckAt P G xs M → StuckAt P G (x :: xs) (L ++ M)

theorem doesOr_restoreWatchdogs : ∀ {bases : List Nat} {i : Nat}, (∀ base ∈ bases, ∀ image, DoesOr (E := env)
      (G (base, image)) (WatchdogImage.restore base image budget) fun o L => P (base, image) L o) →
    DoesOr (E := env) (StuckAt P G ((bases.zipIdx i).map fun x => (x.1, s.watchdogs.getD x.2 {})))
      (s.restoreWatchdogs budget i bases) fun o L => ∃ os, o = firstFailure os ∧
        OneByOne P ((bases.zipIdx i).map fun x => (x.1, s.watchdogs.getD x.2 {})) L os
  | [], _, _ => .pure ⟨[], rfl, .nil⟩
  | base :: bases, i, h => by
    have hrest := doesOr_restoreWatchdogs (i := i + 1) fun b hb => h b (List.mem_cons_of_mem base hb)
    refine .bind ((h base List.mem_cons_self _).imp (fun o L hL => ?_) fun L hL => .here hL)
    cases o with
    | ok _ =>
      refine hrest.imp ?_ fun M hM => .later hL hM
      rintro _ M ⟨os, rfl, hM⟩
      exact ⟨.ok () :: os, rfl, .cons hL hM⟩
    | error t =>
      refine .bind (.log (.bind (hrest.imp ?_ fun M hM => .later hL hM)))
      rintro _ M ⟨os, rfl, hM⟩
      exact .pure ⟨.error t :: os, rfl, by simpa using OneByOne.cons hL hM⟩

theorem StuckAt.endless {images : List (Nat × WatchdogImage)} {L : List (Event κ)}
    (h : StuckAt P (fun _ => env.Endless) images L) : env.Endless L := by
  induction h with
  | here hL => exact hL
  | later _ _ ih => exact ih.append

end OneByOne

/-- How restoring the watchdogs goes, and how each of them ends. -/
def RestoresWatchdogs : List (Nat × WatchdogImage) → List (Event κ) → List (Except PollTimeout Unit) → Prop :=
  OneByOne fun x => WatchdogImage.Restores x.1 x.2

theorem does_restoreWatchdogs {bases : List Nat} {i : Nat} :
    Does (E := env) (s.restoreWatchdogs env.budget i bases) fun o L => ∃ os, o = firstFailure os ∧
      RestoresWatchdogs ((bases.zipIdx i).map fun x => (x.1, s.watchdogs.getD x.2 {})) L os := by
  have hall := doesOr_restoreWatchdogs (P := fun x => WatchdogImage.Restores x.1 x.2) (G := fun _ => env.Endless)
    (s := s) (i := i) fun base (_ : base ∈ bases) _ => WatchdogImage.does_restore
  exact DoesOr.imp hall (fun _ _ h => h) fun _ h => h.endless

theorem does_restoreFlash : DoesOr (E := env) F s.restoreFlash fun _ L => L = writes s.flashCells := by
  refine does_writes.imp ?_ fun _ hF => hF
  rintro _ _ rfl
  rw [flashCells, tabled, List.map_map]
  rfl

/-- What restoring the pins writes, bank by bank. -/
def pinCells (s : Snapshot κ) : List Cell := s.pinImages.flatMap fun x => x.2.restoreCells x.1

theorem does_restorePins : DoesOr (E := env) F s.restorePins fun _ L => L = writes s.pinCells := by
  refine (DoesOr.forM fun x _ _ => GpioImage.does_restore).imp ?_ fun _ hF => hF
  rintro _ _ rfl
  rw [pinCells, pinImages, tabled, List.flatMap_map, writes, List.map_flatMap]
  rfl

/-- How restoring the groups in `set` goes, and how each watchdog ends. -/
def Restores (set : ContextSet) (s : Snapshot κ) (L : List (Event κ)) (os : List (Except PollTimeout Unit)) : Prop :=
  ∃ M, RestoresWatchdogs (if set.contains .watchdogs then s.watchdogImages else []) M os ∧
    L = (if set.contains .interrupts then [.restoreGic s.interrupts] else []) ++
      ((if set.contains .flash then writes s.flashCells else []) ++
        ((if set.contains .pins then writes s.pinCells else []) ++ M))

theorem does_restoreGic {k : κ} : DoesOr (E := env) F (env.gic.restore k) fun _ L => L = [.restoreGic k] :=
  .did (fun _ => trivial) rfl

theorem does_restore : Does (restore env.gic env.budget set s) fun r L =>
    r.2 = { s with pinWakeup := s.pinWakeup && !set.contains .pins } ∧
      ∃ os, r.1 = firstFailure os ∧ Restores set s L os := by
  refine does_when does_restoreGic (does_when does_restoreFlash (does_when does_restorePins ?_))
  refine DoesOr.imp (F := env.Endless) ?_ (fun _ _ h => h) fun _ hF => hF.append.append.append
  rcases hw : set.contains .watchdogs with _ | _
  · refine .bind (.pure (.bind (.log (.pure ⟨rfl, [], rfl, [], ?_, ?_⟩))))
    · rw [hw]
      exact .nil
    · simp only [List.append_nil]
  · refine Does.bind (does_restoreWatchdogs.imp ?_)
    rintro _ M ⟨os, rfl, hM⟩
    refine .bind (.log (.pure ⟨rfl, os, rfl, M, ?_, ?_⟩))
    · rw [hw]
      exact hM
    · simp only [List.append_nil]

end Snapshot

/-! ### Saving has no waits -/

section Answering
variable {σ : Type} [Machine σ]

theorem answers_saveBank {bank : Layout.GpioBank} : Answers (GpioImage.save bank : Run σ GpioImage) := by
  refine .bind (.mapM (fun i => .bind .access fun _ => ?_) _) fun _ => .bind .readWords fun _ =>
    .bind (.forM (fun _ => .update) _) fun _ => .pure
  dsimp only
  split
  · exact .bind .update fun _ => .pure
  · exact .pure

omit [Machine σ] in
/-- A part of a run that is left out unless asked for. -/
theorem answers_part {x : Run σ α} {a : α} {f : α → Run σ β} {b : Bool} (hx : Answers x) (hf : ∀ a, Answers (f a)) :
    Answers (if b then x >>= f else pure a >>= f) := by
  split
  · exact .bind hx hf
  · exact .bind .pure hf

theorem answers_save {gic : InterruptController σ κ} {set : ContextSet} {s : Snapshot κ}
    (hsave : ∀ k, Answers (gic.save k)) : Answers (Snapshot.save gic set s) :=
  answers_part (hsave _) fun _ => answers_part (.mapM (fun _ => .access) _) fun _ =>
    answers_part (.mapM (fun _ => answers_saveBank) _) fun _ =>
    answers_part (.mapM (fun _ => .bind .access fun _ => .bind .access fun _ => .pure) _) fun _ =>
    .bind .update fun _ => .pure

end Answering
end PowerFirmware
