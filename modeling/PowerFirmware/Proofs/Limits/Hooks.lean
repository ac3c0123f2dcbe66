import PowerFirmware.Proofs.Limits.Requests
import PowerFirmware.Proofs.Records

/-! Operations on a platform that comes upon none of its limits. Main statements: no hook does
(`within_perform`), nor does any step of a resume by itself (`within_resumeSteps`), whatever the machine does
and whatever is replied. -/

namespace PowerFirmware
open Run WakeupPolicy

variable {σ κ α β : Type} [Machine σ]

/-! ### Sizes -/

/-- The most pins that a bank of pins may have. -/
def GpioImage.maxPins : Nat := 32

/-- Nothing that is saved outgrows the table that it is saved in. -/
structure Snapshot.Sized (s : Snapshot κ) : Prop where
  flash : s.flash.length ≤ Layout.flashControllers.length
  pins : s.pins.length ≤ Layout.gpioBanks.length
  images : ∀ image ∈ s.pins, image.control.length ≤ GpioImage.controlCount ∧ image.pins.length ≤ GpioImage.maxPins
  watchdogs : s.watchdogs.length ≤ Layout.watchdogs.length

/-- Nothing that is kept outgrows its table, and the wakeup sources are those of theirs. -/
structure Controller.Sized (c : Controller κ) : Prop where
  snapshot : c.snapshot.Sized
  peripherals : c.wakeup.cleared = table

theorem Controller.sized_initial (interrupts : κ) : (Controller.initial interrupts).Sized where
  snapshot := ⟨Nat.zero_le _, Nat.zero_le _, fun _ h => absurd h List.not_mem_nil, Nat.zero_le _⟩
  peripherals := rfl

/-- What a controller knows of its agent is of no size. -/
theorem Controller.Sized.withClient {c : Controller κ} (h : c.Sized) (client : Scmi.Client) :
    { c with client }.Sized := ⟨h.snapshot, h.peripherals⟩

theorem Controller.Sized.withWakeup {c : Controller κ} (h : c.Sized) {wakeup : WakeupPolicy}
    (hwakeup : wakeup.cleared = table) : { c with wakeup }.Sized := ⟨h.snapshot, hwakeup⟩

theorem Controller.Sized.withSnapshot {c : Controller κ} (h : c.Sized) {snapshot : Snapshot κ}
    (hsnapshot : snapshot.Sized) : { c with snapshot }.Sized := ⟨hsnapshot, h.peripherals⟩

/-! ### Snapshots -/

theorem pins_le_maxPins : ∀ bank ∈ Layout.gpioBanks, bank.pins ≤ GpioImage.maxPins := by decide

theorem sized_saveBank {bank : Layout.GpioBank} (hbank : bank ∈ Layout.gpioBanks) :
    InRange (GpioImage.save bank : Run σ GpioImage) fun image =>
      image.control.length ≤ GpioImage.controlCount ∧ image.pins.length ≤ GpioImage.maxPins := by
  refine .bind (Q := fun ws => ws.length = GpioImage.controlCount) ?_ fun control hcontrol => ?_
  · refine (InRange.mapM (Q := fun _ => True) fun i _ => .bind .read fun w _ => ?_).imp fun _ h => h.1
    exact .ite (.bind .update fun _ _ => .pure trivial) (.pure trivial)
  · refine .bind .readWords fun pins hpins => .bind (.forM fun _ _ => .update) fun _ _ => .pure ⟨?_, ?_⟩
    · exact Nat.le_of_eq hcontrol
    · exact hpins ▸ pins_le_maxPins bank hbank

theorem sized_save {gic : InterruptController σ κ} {set : ContextSet} {s : Snapshot κ}
    (hsave : ∀ k, InRange (gic.save k) fun _ => True) (hs : s.Sized) :
    InRange (Snapshot.save gic set s) Snapshot.Sized := by
  refine .part (hsave _) trivial fun interrupts _ => ?_
  refine .part (Q := fun ws => ws.length ≤ Layout.flashControllers.length)
    ((InRange.mapM fun _ _ => .read).imp fun _ h => Nat.le_of_eq h.1) hs.flash fun flash hflash => ?_
  refine .part (Q := fun images => images.length ≤ Layout.gpioBanks.length ∧ ∀ image ∈ images, _)
    ((InRange.mapM fun _ => sized_saveBank).imp fun _ h => ⟨Nat.le_of_eq h.1, h.2⟩) ⟨hs.pins, hs.images⟩
    fun pins hpins => ?_
  refine .part (Q := fun images => images.length ≤ Layout.watchdogs.length)
    ((InRange.mapM (Q := fun _ => True) fun _ _ => .bind .read fun _ _ => .bind .read fun _ _ => .pure trivial).imp
      fun _ h => Nat.le_of_eq h.1) hs.watchdogs fun watchdogs hwatchdogs => ?_
  exact .bind .update fun _ _ => .pure ⟨hflash, hpins.1, hpins.2, hwatchdogs⟩

theorem inRange_restoreWatchdog {base : Nat} {image : WatchdogImage} {budget : PollBudget} :
    InRange (WatchdogImage.restore base image budget : Run σ (Except PollTimeout Unit)) fun _ => True := by
  refine .bind .read fun _ _ => .bind .read fun _ _ => .ite (.pure trivial) ?_
  refine .bind .update fun _ _ => .bind .update fun _ _ => ?_
  refine .bind (.pollUntil (.bind .read fun _ _ => .pure trivial)) fun o _ => ?_
  cases o with
  | error t => exact .pure trivial
  | ok _ => exact .pollUntil (.bind .read fun _ _ => .pure trivial)

theorem inRange_restoreWatchdogs {s : Snapshot κ} {budget : PollBudget} : ∀ {bases : List Nat} {i : Nat},
    InRange (s.restoreWatchdogs budget i bases : Run σ (Except PollTimeout Unit)) fun _ => True
  | [], _ => .pure trivial
  | base :: bases, i => by
    refine .bind inRange_restoreWatchdog fun o _ => ?_
    cases o with
    | ok _ => exact inRange_restoreWatchdogs
    | error t => exact .bind .update fun _ _ => .bind inRange_restoreWatchdogs fun _ _ => .pure trivial

theorem inRange_restoreBank {bank : Layout.GpioBank} {image : GpioImage} :
    InRange (GpioImage.restore bank image : Run σ Unit) fun _ => True :=
  .bind (.forM fun _ _ => .update) fun _ _ => .bind (.forM fun _ _ => .update) fun _ _ =>
    .bind (.forM fun _ _ => .update) fun _ _ => .forM fun _ _ => .update

/-- A restore only forgets that a pin may wake the system. -/
theorem sized_restore {gic : InterruptController σ κ} {budget : PollBudget} {set : ContextSet} {s : Snapshot κ}
    (hrestore : ∀ k, InRange (gic.restore k) fun _ => True) (hs : s.Sized) :
    InRange (Snapshot.restore gic budget set s) fun r => r.2.Sized := by
  refine .when (hrestore _) (.when (.forM fun _ _ => .update) (.when (.forM fun _ _ => inRange_restoreBank) ?_))
  refine .part (Q := fun _ => True) inRange_restoreWatchdogs trivial fun outcome _ => .bind .update fun _ _ => .pure ?_
  exact ⟨hs.flash, hs.pins, hs.images, hs.watchdogs⟩

omit [Machine σ] in
theorem masked_capture {gic : InterruptController σ κ} {p : WakeupPolicy}
    (hmask : ∀ bank < wakeBanks + 1, InRange (gic.enableMask bank) fun _ => True) :
    InRange (p.capture gic) fun r => r.1.length = wakeBanks ∧ r.2 = p.mark r.1 := by
  refine .bind (.mapM (Q := fun _ => True) fun bank hbank => .bind (hmask _ ?_) fun _ _ => .pure trivial)
    fun masks hmasks => .pure ⟨?_, rfl⟩
  · exact Nat.succ_lt_succ (List.mem_range.mp hbank)
  · exact hmasks.1.trans List.length_range

/-! ### Requests -/

/-- The failure is not a limit of a channel. -/
def PlatformError.FromOutside : PlatformError → Prop
  | .scmi e => e.FromOutside
  | .enclave e => e.FromOutside
  | _ => True

/-- What a platform must have for no limit to be in the way: channels for the longest requests, and an
    interrupt controller with all cores and all banks that there are wake masks for, and the private one. -/
structure Platform.Suffices (p : Platform σ κ) : Prop where
  manager : p.manager.Admits SharedMemory.maxWords
  enclave : p.enclave.channel.Admits MessagingUnit.maxArgs
  gic : p.gic.Covers 4 16

/-- The operation is never out of range, fails at no limit of a channel, and keeps the sizes of tables. -/
abbrev Within (x : Hook σ κ α) : Prop := Meets Controller.Sized PlatformError.FromOutside x fun _ => True

namespace Platform
variable {p : Platform σ κ} {core : Fin 4} {cmd : Scmi.Command}

omit [Machine σ] in
theorem within_request {call : Scmi.Call σ α} (h : Meets (fun _ => True) Scmi.Error.FromOutside call fun _ => True) :
    Within (request call : Hook σ κ α) := by
  refine .bind .get fun c hc => .bind (.run (h c.client trivial)) ?_
  rintro ⟨e | a, client⟩ ⟨ho, -⟩
  · exact .bind (.set (hc.withClient client)) fun _ _ => .throw ho
  · exact .bind (.set (hc.withClient client)) fun _ _ => .pure trivial

omit [Machine σ] in
theorem within_thisCore : Within p.thisCore := by
  refine .bind (Q := fun _ => True) (.run (.view fun _ => trivial)) fun core _ => ?_
  split
  · exact .pure trivial
  · exact .throw trivial

theorem within_log {level : Level} {message : String} :
    Within (liftM (log level message : Run σ Unit) : Hook σ κ Unit) := .run .update

section Hooks
variable (hp : p.Suffices)
include hp

theorem within_send (hfits : cmd.fits = true) : Within (p.send cmd) :=
  within_request (.bind (Scmi.meets_call hp.manager hfits) fun _ _ => .pure trivial)

theorem within_setEntry {flags : Scmi.VectorFlags} : Within (p.setEntry core flags) :=
  .bind .get fun _ _ => within_send hp rfl

theorem within_setup {entry : UInt64} : Within (p.setup entry) :=
  .bind (.modify fun _ hc => ⟨hc.snapshot, hc.peripherals⟩) fun _ _ => .bind (within_setEntry hp) fun _ _ =>
    .bind (within_send hp rfl) fun _ _ => .bind (within_send hp rfl) fun _ _ => .bind (within_send hp rfl) fun _ _ =>
    .bind (within_send hp rfl) fun _ _ => .bind (within_send hp rfl) fun _ _ => .bind (within_send hp rfl) fun _ _ =>
    .bind (within_send hp rfl) fun _ _ => within_log

theorem within_domainOn {affinity : UInt64} : Within (p.domainOn affinity) := by
  unfold domainOn
  split
  · have hstart : ∀ core : Fin 4, Within (do
        p.send (.cpuStart (Layout.cpuOf core))
        p.allowEvents (Layout.cpuOf core)
        p.setCorePolicy core .onRun
        (log .debug s!"core {core.val} on" : Run σ Unit)) := fun _ =>
      .bind (within_send hp rfl) fun _ _ => .bind (within_send hp rfl) fun _ _ =>
        .bind (within_send hp rfl) fun _ _ => within_log
    refine .bind .get fun c _ => .ite (.bind (within_setEntry hp) fun _ _ => ?_) (hstart _)
    exact .bind (.modify fun _ hc => ⟨hc.snapshot, hc.peripherals⟩) fun _ _ => hstart _
  · exact .throw trivial

theorem within_domainOnFinish : Within p.domainOnFinish :=
  .bind within_thisCore fun core _ => .bind (within_send hp rfl) fun _ _ =>
    .bind (.run (hp.gic.initCore core core.isLt)) fun _ _ => .run (hp.gic.enableInterface core core.isLt)

theorem within_domainOff : Within p.domainOff :=
  .bind within_thisCore fun core _ => .bind (.run (hp.gic.disableInterface core core.isLt)) fun _ _ =>
    .bind (.run .update) fun _ _ => .bind (within_send hp rfl) fun _ _ => .bind (within_send hp rfl) fun _ _ =>
    .bind (within_send hp rfl) fun _ _ => within_log

theorem within_systemTransition {state : Scmi.SystemPower} : Within (p.systemTransition state) :=
  .bind (.run hp.gic.disableGroups) fun _ _ => within_send hp rfl

theorem within_saveContext {set : ContextSet} : Within (p.saveContext set) :=
  .bind .get fun _ hc => .bind (.run (sized_save hp.gic.save hc.snapshot)) fun _ hs =>
    .modify fun _ hc => hc.withSnapshot hs

theorem within_restoreContext {set : ContextSet} : Within (p.restoreContext set) := by
  refine .bind .get fun _ hc => .bind (.run (sized_restore hp.gic.restore hc.snapshot)) ?_
  rintro ⟨outcome, snapshot⟩ hs
  refine .bind (.modify fun _ hc => hc.withSnapshot hs) fun _ _ => ?_
  cases outcome with
  | ok _ => exact .pure trivial
  | error t => exact .throw trivial

theorem within_setWakeup {masks : List UInt32} {flags : Scmi.WakeupFlags} {mode : Scmi.SleepMode} {entering : Bool}
    (hmasks : masks.length = wakeBanks) : Within (p.setWakeup core masks flags mode entering) := by
  refine .bind (.modify fun _ hc => hc.withWakeup hc.peripherals) fun _ _ => ?_
  refine .bind (within_send hp (fits_irqWakeSet hmasks)) fun _ _ => .bind (within_send hp rfl) fun _ _ =>
    .bind (within_send hp rfl) fun _ _ => .bind .get fun c hc => ?_
  exact .bind (.modify fun _ h => h.withWakeup (cleared_handshake.trans hc.peripherals)) fun _ _ =>
    .bind (within_send hp (fits_handshake hc.peripherals)) fun _ _ => within_log

theorem within_powerDownNetwork : Within (p.powerDownNetwork core) := by
  refine .bind (within_saveContext hp) fun _ _ => .bind (within_send hp rfl) fun _ _ => .bind .get fun c hc => ?_
  refine .bind (.run (masked_capture hp.gic.enableMask)) ?_
  rintro ⟨masks, wakeup⟩ ⟨hmasks, hwakeup⟩
  simp only at hmasks hwakeup
  have hcleared : wakeup.cleared = table := by
    rw [hwakeup]
    exact cleared_mark.trans hc.peripherals
  exact .bind (.modify fun _ h => h.withWakeup hcleared) fun _ _ => within_setWakeup hp hmasks

theorem within_powerUpNetwork : Within (p.powerUpNetwork core) :=
  .bind (within_restoreContext hp) fun _ _ => within_setWakeup hp rfl

theorem within_suspendSystem : Within (p.suspendSystem core) :=
  .bind (within_powerDownNetwork hp) fun _ _ => .bind (within_saveContext hp) fun _ _ => .bind .get fun _ _ =>
    .bind (within_send hp rfl) fun _ _ => within_log

theorem within_domainSuspend {target : PowerState} : Within (p.domainSuspend target) := by
  have hsystem : ∀ core : Fin 4, Within (if target.system.isOff then p.suspendSystem core else pure ()) := fun _ =>
    .ite (within_suspendSystem hp) (.pure trivial)
  have hcluster : ∀ core : Fin 4, Within (do
      if !target.cluster.isRun then
        let word := if target.cluster.isRetention then clusterRetention else clusterOff
        (Run.update (p.cpu.powerDownCluster word) : Run σ Unit)
      if target.system.isOff then
        p.suspendSystem core : Hook σ κ Unit) := fun core =>
    .ite (.bind (.run .update) fun _ _ => hsystem core) (hsystem core)
  refine .bind within_thisCore fun core _ => .ite ?_ (hcluster core)
  exact .bind (within_setEntry hp) fun _ _ => .bind (.run (hp.gic.disableInterface core core.isLt)) fun _ _ =>
    hcluster core

/-! ### Resuming -/

theorem within_releaseFlash : Within p.releaseFlash := by
  refine .bind (.run (Enclave.ends_releaseFlash hp.enclave)) fun o ho => ?_
  cases o with
  | ok _ => exact .pure trivial
  | error e => exact .throw ho

theorem within_resumeSteps : ∀ step ∈ p.resumeSteps core, Within step.2 := by
  intro step hstep
  simp only [resumeSteps, List.mem_cons, List.not_mem_nil, or_false] at hstep
  rcases hstep with rfl | rfl | rfl | rfl
  · exact within_powerUpNetwork hp
  · exact within_releaseFlash hp
  · exact within_restoreContext hp
  · exact within_send hp rfl

omit hp in
/-- The failure that is kept is one of a step. -/
theorem keeps_runAll : ∀ {steps : List (String × Hook σ κ Unit)}, (∀ step ∈ steps, Within step.2) →
    Keeps Controller.Sized (runAll steps) fun o => ∀ e ∈ o, PlatformError.FromOutside e
  | [], _ => .pure nofun
  | (name, step) :: steps, h => by
    have ih := keeps_runAll fun s hs => h s (List.mem_cons_of_mem _ hs)
    refine .bind (h _ List.mem_cons_self) fun o ho => ?_
    cases o with
    | ok _ => exact ih
    | error e => exact .bind (.run .update) fun _ _ => .bind ih fun _ _ => .pure fun _ he => Option.some.inj he ▸ ho

theorem within_domainSuspendFinish {target : PowerState} : Within (p.domainSuspendFinish target) := by
  have hend : ∀ (core : Fin 4) {last : Hook σ κ Unit}, Within last → Within (do
      if target.core.isOff then
        p.gic.enableInterface core
      last : Hook σ κ Unit) := fun core _ hlast =>
    .ite (.bind (.run (hp.gic.enableInterface core core.isLt)) fun _ _ => hlast) hlast
  refine .bind within_thisCore fun core _ => .ite ?_ ?_
  · refine .bind (.state (keeps_runAll (within_resumeSteps hp))) fun failure hfailure => ?_
    cases failure with
    | none => exact hend core (.pure trivial)
    | some e => exact hend core (.throw (hfailure e rfl))
  · exact hend core (.pure trivial)

theorem within_perform (call : HookCall) : Within (p.perform call) := by
  cases call with
  | setup entry => exact within_setup hp
  | on affinity => exact within_domainOn hp
  | onFinish => exact within_domainOnFinish hp
  | off => exact within_domainOff hp
  | suspend target => exact within_domainSuspend hp
  | resume target => exact within_domainSuspendFinish hp
  | reset | shutDown => exact within_systemTransition hp

end Hooks
end Platform
end PowerFirmware
