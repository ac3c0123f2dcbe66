import PowerFirmware.Proofs.Snapshot.Permissions

/-! How watchdogs are put back. Main statement: each watchdog of the table is left alone or rewritten once and
waited for, whatever became of those before it, and the first timeout is what a restore fails with
(`watchdogs_putBack`). -/

namespace PowerFirmware
open Cells Run

variable {κ : Type} {env : Environment κ} {budget : PollBudget} {L M : List (Event κ)}
variable {x : Nat × WatchdogImage} {o : Except PollTimeout Unit}

/-! ### One watchdog -/

namespace WatchdogImage

/-- A watchdog is put back, with a budget of its own for each of the waits for it. -/
def PutBackWithin (budget : PollBudget) (x : Nat × WatchdogImage) : List (Event κ) → Except PollTimeout Unit → Prop :=
  PutBack (Waited budget (controlAddress x.1)) x.1 x.2

/-- One of the waits for a watchdog has not ended after so many looks. -/
def StuckWithin (budget : PollBudget) (looks : Nat) (x : Nat × WatchdogImage) : List (Event κ) → Prop :=
  Stuck (Waited budget (controlAddress x.1)) (Waiting budget (controlAddress x.1) · looks) x.1 x.2

theorem doesOr_restore_within {base : Nat} {image : WatchdogImage} :
    DoesOr (E := env) (StuckWithin budget (env.patience + 1) (base, image)) (restore base image budget)
      fun o L => PutBackWithin budget (base, image) L o :=
  doesOr_restore fun test => doesOr_wait test (fun _ _ hL => hL) fun _ hL => hL

theorem PutBackWithin.touches (h : PutBackWithin budget x L o) : Touches (· ∈ covered x.1) L :=
  PutBack.touches (fun _ ha => ha) (fun _ _ _ hL => hL.watches.touches List.mem_cons_self) h

/-- A watchdog is put back in the course of `L`, and nothing else in `L` accesses it. -/
def PutBackAmong (budget : PollBudget) (x : Nat × WatchdogImage) (L : List (Event κ)) (o : Except PollTimeout Unit) :
    Prop :=
  ∃ before own after, L = before ++ (own ++ after) ∧ PutBackWithin budget x own o ∧
    Touches (· ∉ covered x.1) before ∧ Touches (· ∉ covered x.1) after

theorem PutBackAmong.preceded (h : PutBackAmong budget x L o) (hM : Touches (· ∉ covered x.1) M) :
    PutBackAmong budget x (M ++ L) o := by
  obtain ⟨before, own, after, rfl, hown, hbefore, hafter⟩ := h
  exact ⟨M ++ before, own, after, (List.append_assoc ..).symm, hown, touches_append.mpr ⟨hM, hbefore⟩, hafter⟩

end WatchdogImage

/-! ### All of them -/

namespace Snapshot
open WatchdogImage (PutBackWithin StuckWithin PutBackAmong)
variable {s : Snapshot κ} {set : ContextSet} {images : List (Nat × WatchdogImage)} {os : List (Except PollTimeout Unit)}

/-- What is done to one watchdog is all that accesses it: no two of them share a register. -/
theorem putBackAmong_of_mem (h : OneByOne (PutBackWithin budget) images L os)
    (hnodup : (images.flatMap fun x => WatchdogImage.covered x.1).Nodup) (hx : x ∈ images) :
    ∃ o ∈ os, PutBackAmong budget x L o := by
  induction h with
  | nil => cases hx
  | @cons y ys L M o os hL hM ih =>
    rw [List.flatMap_cons, List.nodup_append] at hnodup
    obtain ⟨-, hrest, hapart⟩ := hnodup
    rcases List.mem_cons.mp hx with rfl | hx
    · refine ⟨o, List.mem_cons_self, [], L, M, rfl, hL, touches_nil, hM.touches fun y hy _ _ hN => ?_⟩
      exact hN.touches.imp fun a ha hcovered => hapart a hcovered a (List.mem_flatMap.mpr ⟨y, hy, ha⟩) rfl
    · obtain ⟨o', ho', hamong⟩ := ih hrest hx
      refine ⟨o', List.mem_cons_of_mem o ho', hamong.preceded (hL.touches.imp fun a ha hcovered => ?_)⟩
      exact hapart a ha a (List.mem_flatMap.mpr ⟨x, hx, hcovered⟩) rfl

theorem flatMap_covered_watchdogImages :
    (s.watchdogImages.flatMap fun x => WatchdogImage.covered x.1) = Layout.watchdogs.flatMap WatchdogImage.covered := by
  rw [← List.flatMap_map, watchdogImages, map_fst_tabled]

theorem touches_restoreEvents {A : Nat → Prop} (hflash : ∀ a ∈ Layout.flashControllers.map flashTiming, A a)
    (hpins : ∀ a ∈ Layout.gpioBanks.flatMap GpioImage.covered, A a) : Touches A (s.restoreEvents set) := by
  rw [restoreEvents, touches_append, touches_append]
  refine ⟨⟨?_, ?_⟩, ?_⟩
  · split <;> simp [Event.address?]
  · split
    · exact touches_writes.mpr fun a ha => hflash a (addresses_flashCells (s := s) ▸ ha)
    · exact touches_nil
  · split
    · refine touches_writes.mpr fun a ha => hpins a ?_
      rw [← map_fst_pinImages (s := s), List.flatMap_map]
      rw [pinCells, addresses, List.map_flatMap] at ha
      obtain ⟨y, hy, ha⟩ := List.mem_flatMap.mp ha
      exact List.mem_flatMap.mpr ⟨y, hy, GpioImage.addresses_cells ▸ GpioImage.addresses_restoreCells a ha⟩
    · exact touches_nil

/-- What comes before the watchdogs in a restore accesses none of them. -/
theorem watchdogs_apart (hx : x ∈ s.watchdogImages) :
    Touches (· ∉ WatchdogImage.covered x.1) (s.restoreEvents set) := by
  have hcovered : ∀ a ∈ WatchdogImage.covered x.1, a ∈ Layout.watchdogs.flatMap WatchdogImage.covered := by
    rw [← flatMap_covered_watchdogImages (s := s)]
    exact fun a ha => List.mem_flatMap.mpr ⟨x, hx, ha⟩
  obtain ⟨-, hothers, hflash⟩ := List.nodup_append.mp nodup_covered
  refine touches_restoreEvents (fun a ha hmem => ?_) fun a ha hmem => ?_
  · exact hflash a ha a (List.mem_append_right _ (hcovered a hmem)) rfl
  · exact (List.nodup_append.mp hothers).2.2 a ha a (hcovered a hmem) rfl

/-- A restore of any groups, whatever the registers hold and the clock shows. It first writes what the
    snapshot has for the other groups. A watchdog that is as saved is then left alone; any other is
    rewritten, must be seen locked and after that be seen reconfigured, in a wait of its own each time, and
    nothing else accesses it. One that times out keeps no other from this; the first timeout of the table
    is the answer. The restore goes on without end only in a wait that never gives up. -/
theorem watchdogs_putBack (budget : PollBudget) (set : ContextSet) (s : Snapshot κ) (past : History env) :
    ∃ outcome L, restore env.gic budget set s past = (outcome, past.add (s.restoreEvents set ++ L)) ∧
      env.Allows past.events (s.restoreEvents set ++ L) ∧
      (outcome = .error .hung ∧ set.contains .watchdogs = true ∧
          StuckAt (PutBackWithin budget) (StuckWithin budget (env.patience + 1)) s.watchdogImages L ∨
        ∃ os, OneByOne (PutBackWithin budget) (if set.contains .watchdogs then s.watchdogImages else []) L os ∧
          outcome = .ok (firstFailure os, { s with pinWakeup := s.pinWakeup && !set.contains .pins }) ∧
          (set.contains .watchdogs = true → ∀ x ∈ s.watchdogImages, ∃ o ∈ os,
            PutBackAmong budget x (s.restoreEvents set ++ L) o)) := by
  have hwatchdogs : DoesOr (E := env) _ (s.restoreWatchdogs budget 0 Layout.watchdogs) _ :=
    doesOr_restoreWatchdogs fun _ _ _ => WatchdogImage.doesOr_restore_within
  have hdoes : DoesOr (E := env) _ (restore env.gic budget set s) _ := doesOr_restore_watchdogs hwatchdogs
  obtain ⟨_, outcome, heq, allowed, hend⟩ := DoesOr.outcome hdoes past
  rcases hend with ⟨hhung, hset, L, rfl, hL⟩ | ⟨⟨r, s'⟩, rfl, hs, L, rfl, hend⟩
  · exact ⟨outcome, L, heq, allowed, .inl ⟨hhung, hset, hL⟩⟩
  · dsimp only at hs hend
    subst hs
    refine ⟨_, L, heq, allowed, .inr ?_⟩
    rcases hend with ⟨hset, os, rfl, hL⟩ | ⟨hset, rfl, rfl⟩
    · rw [hset]
      refine ⟨os, hL, rfl, fun _ x hx => ?_⟩
      have hnodup : (s.watchdogImages.flatMap fun x => WatchdogImage.covered x.1).Nodup := by
        rw [flatMap_covered_watchdogImages]
        decide
      obtain ⟨o, ho, hamong⟩ := putBackAmong_of_mem hL hnodup hx
      exact ⟨o, ho, hamong.preceded (watchdogs_apart hx)⟩
    · rw [hset]
      exact ⟨[], .nil, rfl, fun h => Bool.noConfusion h⟩

end Snapshot
end PowerFirmware
