import PowerFirmware.Proofs.Settings
import PowerFirmware.Proofs.Suspend.Resuming
import PowerFirmware.Proofs.Wakeup

/-! Hooks called one after the other, by any cores and whatever is answered. Main statements: of all hooks
only a suspend and a resume of the system touch the snapshot, the wakeup sources and the peripherals that
may be held (`Turn.Happens.goes`), and what every turn keeps a whole course of turns keeps
(`Course.induct`). -/

namespace PowerFirmware
open Run

/-- What power state coordination has the platform do. -/
inductive HookCall
  | setup (entry : UInt64)
  | on (affinity : UInt64)
  | onFinish
  | off
  | suspend (target : PowerState)
  | resume (target : PowerState)
  | reset
  | shutDown
  deriving DecidableEq

def Platform.perform {σ κ : Type} [Machine σ] (p : Platform σ κ) : HookCall → Hook σ κ Unit
  | .setup entry => p.setup entry
  | .on affinity => p.domainOn affinity
  | .onFinish => p.domainOnFinish
  | .off => p.domainOff
  | .suspend target => p.domainSuspend target
  | .resume target => p.domainSuspendFinish target
  | .reset => p.systemReset
  | .shutDown => p.systemOff

/-- A controller that has not done anything yet. -/
def Controller.initial {κ : Type} (interrupts : κ) : Controller κ := { snapshot := { interrupts } }

/-- The controller, and all that has happened. -/
structure Moment (κ : Type) where
  controller : Controller κ
  events : List (Event κ)

/-- One hook: which core called it, how it ended, and what was before and after it. -/
structure Turn (κ : Type) where
  core : Nat
  call : HookCall
  outcome : Except PlatformError Unit
  before : Moment κ
  after : Moment κ

variable {κ α β : Type}

/-- In some environment the hook goes just so. -/
def Turn.Happens (e : Turn κ) : Prop :=
  ∃ (env : Environment κ) (region : DmaRegion (History env)), env.core = e.core ∧
    (env.platform region).perform e.call e.before.controller ⟨e.before.events⟩ =
      (.ok (e.outcome, e.after.controller), ⟨e.after.events⟩)

/-- The turns follow one after the other, from the first moment to the last. -/
inductive Course (start : Moment κ) : List (Turn κ) → Moment κ → Prop
  | nil : Course start [] start
  | snoc {turns : List (Turn κ)} {e : Turn κ} : Course start turns e.before → e.Happens →
      Course start (turns ++ [e]) e.after

theorem Course.induct {start s : Moment κ} {turns : List (Turn κ)} {P : List (Turn κ) → Moment κ → Prop}
    (h : Course start turns s) (hstart : P [] start)
    (hturn : ∀ turns e, P turns e.before → e.Happens → P (turns ++ [e]) e.after) : P turns s := by
  induction h with
  | nil => exact hstart
  | snoc _ he ih => exact hturn _ _ ih he

theorem Course.last {start s : Moment κ} {turns : List (Turn κ)} {e : Turn κ} (h : Course start (turns ++ [e]) s) :
    s = e.after ∧ e.Happens ∧ Course start turns e.before := by
  generalize heq : turns ++ [e] = all at h
  cases h with
  | nil => simp at heq
  | snoc h he =>
    obtain ⟨rfl, hlast⟩ := List.append_inj' heq rfl
    cases hlast
    exact ⟨rfl, he, h⟩

theorem Course.of_nil {start s : Moment κ} (h : Course start [] s) : s = start := by
  generalize heq : ([] : List (Turn κ)) = all at h
  cases h with
  | nil => rfl
  | snoc => simp at heq

theorem Course.head {start s : Moment κ} {turns : List (Turn κ)} {e : Turn κ} (h : Course start (e :: turns) s) :
    e.before = start ∧ e.Happens ∧ Course e.after turns s := by
  generalize heq : e :: turns = all at h
  induction h generalizing turns with
  | nil => simp at heq
  | @snoc before f h hf ih =>
    rcases before with _ | ⟨g, before⟩
    · cases heq
      exact ⟨h.of_nil, hf, .nil⟩
    · cases heq
      obtain ⟨hstart, he, hrest⟩ := ih rfl
      exact ⟨hstart, he, hrest.snoc hf⟩

/-! ### Accesses that are no exchanges -/

section Accesses
variable {core : Fin 4} {target : PowerState} {masks : List UInt32} {cells : List Cell}

/-- An access of registers, of the clock or of the enables of the interrupt controller. -/
def Event.isAccess : Event κ → Bool
  | read .. | write .. | tick _ | enableMask .. => true
  | _ => false

theorem Event.isAccess_of_address? {e : Event κ} (h : e.address?.isSome = true) : e.isAccess = true := by
  cases e <;> first | rfl | cases h

theorem reads_address? : ∀ e ∈ reads (κ := κ) cells, e.address?.isSome = true := by
  intro e he
  obtain ⟨x, -, rfl⟩ := List.mem_map.mp he
  rfl

theorem writes_address? : ∀ e ∈ writes (κ := κ) cells, e.address?.isSome = true := by
  intro e he
  obtain ⟨x, -, rfl⟩ := List.mem_map.mp he
  rfl

theorem reads_access : ∀ e ∈ reads (κ := κ) cells, e.isAccess = true :=
  fun e he => e.isAccess_of_address? (reads_address? e he)

theorem writes_access : ∀ e ∈ writes (κ := κ) cells, e.isAccess = true :=
  fun e he => e.isAccess_of_address? (writes_address? e he)

theorem Platform.maskReads_access : ∀ e ∈ Platform.maskReads (κ := κ) masks, e.isAccess = true := by
  intro e he
  obtain ⟨l, hl, he⟩ := List.mem_flatten.mp he
  obtain ⟨i, hi, rfl⟩ := List.mem_iff_getElem.mp hl
  rw [List.getElem_zipWith, List.mem_singleton] at he
  rw [he]
  rfl

/-- A snapshot of the peripherals is taken by reading and writing registers alone. -/
theorem saveEvents_address? {s : Snapshot κ} : ∀ e ∈ s.saveEvents .peripherals, e.address?.isSome = true := by
  have hbank : ∀ (bank : Layout.GpioBank) (image : GpioImage), ∀ e ∈ image.saveEvents (κ := κ) bank,
      e.address?.isSome = true := by
    intro bank image e he
    rcases List.mem_append.mp he with he | he
    · obtain ⟨l, hl, he⟩ := List.mem_flatten.mp he
      obtain ⟨i, hi, rfl⟩ := List.mem_iff_getElem.mp hl
      rw [List.getElem_zipWith] at he
      unfold GpioImage.controlEvents at he
      rcases List.mem_cons.mp he with rfl | he
      · rfl
      · split at he
        · rw [List.mem_singleton.mp he]
          rfl
        · cases he
    · rcases List.mem_append.mp he with he | he
      · exact reads_address? e he
      · exact writes_address? e he
  intro e he
  change e ∈ reads s.flashCells ++ (s.pinImages.flatMap (fun x => x.2.saveEvents x.1) ++
    reads (s.watchdogImages.flatMap fun x => x.2.cells x.1)) at he
  rcases List.mem_append.mp he with he | he
  · exact reads_address? e he
  · rcases List.mem_append.mp he with he | he
    · obtain ⟨x, -, he⟩ := List.mem_flatMap.mp he
      exact hbank _ _ e he
    · exact reads_address? e he

theorem saveEvents_access {s : Snapshot κ} : ∀ e ∈ s.saveEvents .peripherals, e.isAccess = true :=
  fun e he => e.isAccess_of_address? (saveEvents_address? e he)

theorem polled_access {a : Nat} {test : UInt32 → Bool} {L : List (Event κ)} {o : Except PollTimeout Unit}
    (h : Polled a test L o) : ∀ e ∈ L, e.isAccess = true := by
  intro e he
  rcases h.watches e he with ⟨w, rfl⟩ | ⟨t, rfl⟩ <;> rfl

theorem restoresWatchdogs_access {images : List (Nat × WatchdogImage)} {L : List (Event κ)}
    {os : List (Except PollTimeout Unit)} (h : Snapshot.RestoresWatchdogs images L os) :
    ∀ e ∈ L, e.isAccess = true := by
  induction h with
  | nil => exact fun _ he => absurd he List.not_mem_nil
  | cons hdog _ ih =>
    intro e he
    rcases List.mem_append.mp he with he | he
    · cases hdog with
      | same => exact reads_access e he
      | unlocked _ hL =>
        simp only [List.mem_append] at he
        rcases he with he | he | he
        · exact reads_access e he
        · exact writes_access e he
        · exact polled_access hL e he
      | locked _ hL hM =>
        simp only [List.mem_append] at he
        rcases he with he | he | he | he
        · exact reads_access e he
        · exact writes_access e he
        · exact polled_access hL e he
        · exact polled_access hM e he
    · exact ih e he

theorem Event.exchange?_of_access {e : Event κ} (h : e.isAccess = true) : e.exchange? = none := by
  cases e <;> first | rfl | cases h

theorem writes_exchange? : ∀ e ∈ writes (κ := κ) cells, e.exchange? = none :=
  fun e he => e.exchange?_of_access (writes_access e he)

theorem Platform.maskReads_exchange? : ∀ e ∈ Platform.maskReads (κ := κ) masks, e.exchange? = none :=
  fun e he => e.exchange?_of_access (maskReads_access e he)

theorem saveEvents_exchange? {s : Snapshot κ} : ∀ e ∈ s.saveEvents .peripherals, e.exchange? = none :=
  fun e he => e.exchange?_of_access (saveEvents_access e he)

theorem restoresWatchdogs_exchange? {images : List (Nat × WatchdogImage)} {L : List (Event κ)}
    {os : List (Except PollTimeout Unit)} (h : Snapshot.RestoresWatchdogs images L os) : ∀ e ∈ L, e.exchange? = none :=
  fun e he => e.exchange?_of_access (restoresWatchdogs_access h e he)

theorem Platform.leaveEvents_exchange? : ∀ e ∈ Platform.leaveEvents (κ := κ) core target, e.exchange? = none := by
  intro e he
  unfold Platform.leaveEvents at he
  rcases List.mem_append.mp he with he | he <;> split at he
  · rw [List.mem_singleton.mp he]
    rfl
  · cases he
  · cases he
  · rw [List.mem_singleton.mp he]
    rfl

end Accesses

/-! ### What most hooks leave alone -/

section Spared
variable {env : Environment κ} {region : DmaRegion (History env)} {c d : Controller κ} {L M : List (Event κ)}
variable {cmd : Scmi.Command}

/-- The snapshot and the wakeup sources are kept, and no peripheral but the watchdog is set. -/
structure Spares (c d : Controller κ) (L : List (Event κ)) : Prop where
  snapshot : d.snapshot = c.snapshot
  wakeup : d.wakeup = c.wakeup
  peripherals : ∀ p ∈ settings L, p.peripheral = Layout.watchdogInterface

theorem Spares.of_nil (hsnapshot : d.snapshot = c.snapshot) (hwakeup : d.wakeup = c.wakeup) (hL : settings L = []) :
    Spares c d L :=
  ⟨hsnapshot, hwakeup, by rw [hL]; exact fun _ hp => absurd hp List.not_mem_nil⟩

theorem Spares.refl (hL : settings L = []) : Spares c c L := .of_nil rfl rfl hL

theorem Spares.trans {e : Controller κ} (h : Spares c d L) (h' : Spares d e M) : Spares c e (L ++ M) := by
  refine ⟨h'.snapshot.trans h.snapshot, h'.wakeup.trans h.wakeup, fun p hp => ?_⟩
  rw [settings_append] at hp
  rcases List.mem_append.mp hp with hp | hp
  · exact h.peripherals p hp
  · exact h'.peripherals p hp

/-- However it ends, the run spares what most hooks leave alone. -/
def Spared {E : Environment κ} (x : Hook (History E) κ α) : Prop := ∀ c, Acts x c fun _ d L => Spares c d L

namespace Spared

theorem pure {a : α} : Spared (E := env) (Pure.pure a : Hook (History env) κ α) := fun _ => .pure (.refl rfl)

theorem throw {e : PlatformError} : Spared (E := env) (throw e : Hook (History env) κ α) := fun _ => .throw (.refl rfl)

theorem bind {x : Hook (History env) κ α} {f : α → Hook (History env) κ β} (hx : Spared x)
    (hf : ∀ a, Spared (f a)) : Spared (x >>= f) := by
  refine fun c => .bind ((hx c).imp fun r d L hL => ?_)
  cases r with
  | error e => exact hL
  | ok a => exact (hf a d).imp fun _ _ _ hM => hL.trans hM

theorem ite {b : Prop} [Decidable b] {x y : Hook (History env) κ α} (hx : Spared x) (hy : Spared y) :
    Spared (if b then x else y) := by
  split
  · exact hx
  · exact hy

theorem get : Spared (E := env) (get : Hook (History env) κ (Controller κ)) := fun _ => .get (.refl rfl)

theorem modify {g : Controller κ → Controller κ} (hsnapshot : ∀ c, (g c).snapshot = c.snapshot)
    (hwakeup : ∀ c, (g c).wakeup = c.wakeup) : Spared (E := env) (modify g : Hook (History env) κ PUnit) :=
  fun c => .modify (.of_nil (hsnapshot c) (hwakeup c) rfl)

theorem run {x : Run (History env) α} (h : Does x fun _ L => settings L = []) :
    Spared (liftM x : Hook (History env) κ α) :=
  fun _ => .run (h.imp fun _ _ hL => .refl hL)

theorem send (h : ∀ p ∈ cmd.policies, p.peripheral = Layout.watchdogInterface) :
    Spared ((env.platform region).send cmd) := by
  refine fun c => acts_send.imp ?_
  rintro r d L ⟨hL, hd⟩
  rw [hd]
  refine ⟨rfl, rfl, fun p hp => ?_⟩
  cases r with
  | error e =>
    rw [hL.settings_of_error] at hp
    cases hp
  | ok _ =>
    rw [hL.settings_of_ok, List.flatMap_cons, List.flatMap_nil, List.append_nil] at hp
    exact h p hp

theorem thisCore : Spared (env.platform region).thisCore := by
  refine .bind (.run (.view fun _ => rfl)) fun core => ?_
  split
  · exact .pure
  · exact .throw

/-- A command that sets no peripheral. -/
theorem other (h : cmd.policies = []) : Spared ((env.platform region).send cmd) :=
  .send (by rw [h]; exact fun _ hp => absurd hp List.not_mem_nil)

theorem setEntry {core : Fin 4} {flags : Scmi.VectorFlags} : Spared ((env.platform region).setEntry core flags) :=
  .bind .get fun _ => .other rfl

theorem event {e : Event κ} (hy : ∀ events, env.Yields events e) (he : e.policies = []) :
    Spared (liftM (Run.update (·.add [e]) : Run (History env) Unit) : Hook (History env) κ Unit) :=
  .run (.did hy (by rw [PowerFirmware.settings, List.flatMap_cons, he]; rfl))

theorem setup {entry : UInt64} : Spared ((env.platform region).setup entry) := by
  refine .bind (.modify (fun _ => rfl) fun _ => rfl) fun _ => .bind .setEntry fun _ => .bind (.other rfl) fun _ =>
    .bind (.other rfl) fun _ => .bind (.other rfl) fun _ => .bind (.other rfl) fun _ => .bind (.other rfl) fun _ =>
    .bind (.other rfl) fun _ => .bind (.send fun p hp => ?_) fun _ => .run (.log rfl)
  rw [List.mem_singleton.mp hp]

theorem domainOn {affinity : UInt64} : Spared ((env.platform region).domainOn affinity) := by
  unfold Platform.domainOn
  split
  · refine .bind .get fun c => ?_
    dsimp only
    refine .ite (.bind .setEntry fun _ => .bind (.modify (fun _ => rfl) fun _ => rfl) fun _ => ?_) ?_ <;>
      exact .bind (.other rfl) fun _ => .bind (.other rfl) fun _ => .bind (.other rfl) fun _ => .run (.log rfl)
  · exact .throw

theorem domainOnFinish : Spared (env.platform region).domainOnFinish :=
  .bind .thisCore fun _ => .bind (.other rfl) fun _ => .bind (.event (fun _ => trivial) rfl) fun _ =>
    .event (fun _ => trivial) rfl

theorem domainOff : Spared (env.platform region).domainOff :=
  .bind .thisCore fun _ => .bind (.event (fun _ => trivial) rfl) fun _ => .bind (.event (fun _ => trivial) rfl) fun _ =>
    .bind (.other rfl) fun _ => .bind (.other rfl) fun _ => .bind (.other rfl) fun _ => .run (.log rfl)

theorem systemTransition {state : Scmi.SystemPower} : Spared ((env.platform region).systemTransition state) :=
  .bind (.event (fun _ => trivial) rfl) fun _ => .other rfl

/-- A core that there is not is told so, and nothing is done. -/
theorem noCore {f : Fin 4 → Hook (History env) κ α} (h : ¬env.core < 4) :
    Spared ((env.platform region).thisCore >>= f) := by
  refine fun c => .bind (.bind (.run (.view fun _ => ?_)))
  dsimp only [Environment.platform]
  rw [dif_neg h]
  exact .throw (.refl rfl)

end Spared

section Suspend
variable {core : Fin 4} {target : PowerState} {r : Except PlatformError Unit}

theorem settings_leave {a b : Scmi.Client} {entry : UInt64}
    (h : Sends a (Platform.leaveCommands core target entry) L r b) : settings L = [] := by
  refine h.settings_eq_nil fun cmd hcmd => ?_
  unfold Platform.leaveCommands at hcmd
  split at hcmd
  · rw [List.mem_singleton.mp hcmd]
    rfl
  · cases hcmd

theorem Platform.Suspends.spares (h : Suspends core target c r d L) (hon : target.system.isOff = false) :
    Spares c d L := by
  cases h with
  | stays h => exact .of_nil rfl rfl (settings_leave h)
  | leaves h hsystem =>
    rw [if_neg (by rw [hon]; exact Bool.false_ne_true)] at hsystem
    obtain ⟨-, rfl, rfl⟩ := hsystem
    refine .of_nil rfl rfl ?_
    rw [settings_append, settings_leave h, settings_append, settings_eq_nil Platform.leaveEvents_exchange?]
    rfl

theorem Platform.Resumes.spares (h : Resumes core target c r d L) (hon : target.system.isOff = false) :
    Spares c d L := by
  cases h with
  | system hoff => rw [hon] at hoff; cases hoff
  | core =>
    refine .refl ?_
    split <;> rfl

end Suspend
end Spared

/-! ### Turns -/

/-- How a turn goes, and the events it adds. -/
inductive Turn.Goes (e : Turn κ) (L : List (Event κ)) : Prop
  | spares : (∀ target, target.system.isOff = true → e.call = .suspend target ∨ e.call = .resume target →
      4 ≤ e.core) → Spares e.before.controller e.after.controller L → Goes e L
  | suspends {core : Fin 4} {target : PowerState} : e.core = core.val → e.call = .suspend target →
      target.system.isOff = true →
      Platform.Suspends core target e.before.controller e.outcome e.after.controller L → Goes e L
  | resumes {core : Fin 4} {target : PowerState} : e.core = core.val → e.call = .resume target →
      target.system.isOff = true →
      Platform.Resumes core target e.before.controller e.outcome e.after.controller L → Goes e L

theorem Turn.Happens.goes {e : Turn κ} (h : e.Happens) :
    ∃ L, e.after.events = e.before.events ++ L ∧ e.Goes L := by
  obtain ⟨env, region, hcore, heq⟩ := h
  obtain ⟨core, call, outcome, before, after⟩ := e
  simp only at hcore heq
  have hspared : ∀ {x : Hook (History env) κ Unit}, Spared x →
      x before.controller ⟨before.events⟩ = (.ok (outcome, after.controller), ⟨after.events⟩) →
      ∃ L, after.events = before.events ++ L ∧ Spares before.controller after.controller L := by
    intro x hx hxeq
    obtain ⟨L, hL, -, hspares⟩ := (hx before.controller).answered hxeq
    exact ⟨L, congrArg History.events hL, hspares⟩
  have hother : ∀ {x : Hook (History env) κ Unit}, Spared x →
      x before.controller ⟨before.events⟩ = (.ok (outcome, after.controller), ⟨after.events⟩) →
      (∀ target, call ≠ .suspend target ∧ call ≠ .resume target) →
      ∃ L, after.events = before.events ++ L ∧ Turn.Goes ⟨core, call, outcome, before, after⟩ L := by
    intro x hx hxeq hcall
    obtain ⟨L, hL, hspares⟩ := hspared hx hxeq
    exact ⟨L, hL, .spares (fun target _ h => (h.elim (hcall target).1 (hcall target).2).elim) hspares⟩
  cases call with
  | setup entry => exact hother .setup heq fun _ => ⟨nofun, nofun⟩
  | on affinity => exact hother .domainOn heq fun _ => ⟨nofun, nofun⟩
  | onFinish => exact hother .domainOnFinish heq fun _ => ⟨nofun, nofun⟩
  | off => exact hother .domainOff heq fun _ => ⟨nofun, nofun⟩
  | reset => exact hother .systemTransition heq fun _ => ⟨nofun, nofun⟩
  | shutDown => exact hother .systemTransition heq fun _ => ⟨nofun, nofun⟩
  | suspend target =>
    by_cases hlt : env.core < 4
    · have hval : env.core = (⟨env.core, hlt⟩ : Fin 4).val := rfl
      obtain ⟨L, hL, -, hsuspends⟩ := (Platform.acts_domainSuspend hval).answered heq
      refine ⟨L, congrArg History.events hL, ?_⟩
      rcases hoff : target.system.isOff with _ | _
      · refine .spares ?_ (hsuspends.spares hoff)
        rintro _ hoff' (⟨⟨⟩⟩ | ⟨⟨⟩⟩)
        rw [hoff] at hoff'
        cases hoff'
      · exact .suspends hcore.symm rfl hoff hsuspends
    · obtain ⟨L, hL, hspares⟩ := hspared (.noCore hlt) heq
      exact ⟨L, hL, .spares (fun _ _ _ => hcore ▸ Nat.le_of_not_lt hlt) hspares⟩
  | resume target =>
    by_cases hlt : env.core < 4
    · have hval : env.core = (⟨env.core, hlt⟩ : Fin 4).val := rfl
      obtain ⟨L, hL, -, hresumes⟩ := (Platform.acts_domainSuspendFinish hval).answered heq
      refine ⟨L, congrArg History.events hL, ?_⟩
      rcases hoff : target.system.isOff with _ | _
      · refine .spares ?_ (hresumes.spares hoff)
        rintro _ hoff' (⟨⟨⟩⟩ | ⟨⟨⟩⟩)
        rw [hoff] at hoff'
        cases hoff'
      · exact .resumes hcore.symm rfl hoff hresumes
    · obtain ⟨L, hL, hspares⟩ := hspared (.noCore hlt) heq
      exact ⟨L, hL, .spares (fun _ _ _ => hcore ▸ Nat.le_of_not_lt hlt) hspares⟩

/-! ### Courses -/

section Kept
variable {c d : Controller κ} {core : Fin 4} {target : PowerState} {r : Except PlatformError Unit} {L : List (Event κ)}

open WakeupPolicy

theorem Platform.SetsWakeup.cleared {masks : List UInt32} {flags : Scmi.WakeupFlags} {mode : Scmi.SleepMode}
    {entering : Bool} (h : SetsWakeup core masks flags mode entering c r d L) :
    d.wakeup.cleared = c.wakeup.cleared := by
  cases h with
  | unarmed => rfl
  | armed => exact cleared_handshake.trans cleared_evaluate

theorem Platform.HandsOver.cleared (h : HandsOver core c r d L) : d.wakeup.cleared = c.wakeup.cleared := by
  cases h with
  | unmasked => rfl
  | masked _ _ h => exact h.cleared.trans cleared_mark

theorem Platform.Suspends.cleared (h : Suspends core target c r d L) : d.wakeup.cleared = c.wakeup.cleared := by
  cases h with
  | stays => rfl
  | leaves _ hsystem =>
    split at hsystem
    · cases hsystem with
      | held h => exact h.cleared
      | saved h => exact h.cleared
    · rw [hsystem.2.1]

theorem Platform.Resumes.cleared (h : Resumes core target c r d L) : d.wakeup.cleared = c.wakeup.cleared := by
  cases h with
  | core => rfl
  | system _ h =>
    cases h with
    | steps hback => exact hback.cleared

theorem Platform.Resumes.pinWakeup (h : Resumes core target c r d L) (hoff : target.system.isOff = true) :
    d.snapshot.pinWakeup = false := by
  cases h with
  | core hon => rw [hoff] at hon; cases hon
  | system _ h =>
    cases h with
    | steps => rfl

/-- The peripherals are always those of the start, apart from their marks. -/
theorem Course.cleared {start s : Moment κ} {turns : List (Turn κ)} (h : Course start turns s) :
    s.controller.wakeup.cleared = start.controller.wakeup.cleared := by
  refine h.induct (P := fun _ s => s.controller.wakeup.cleared = start.controller.wakeup.cleared) rfl ?_
  intro turns e ih he
  obtain ⟨L, -, hgoes⟩ := he.goes
  refine Eq.trans ?_ ih
  cases hgoes with
  | spares _ h => rw [h.wakeup]
  | suspends _ _ _ h => exact h.cleared
  | resumes _ _ _ h => exact h.cleared

end Kept

/-- Every suspend of the system is followed by a resume by the same core and from the same state. -/
def Balanced (turns : List (Turn κ)) : Prop :=
  ∀ before e after target, turns = before ++ e :: after → e.call = .suspend target → target.system.isOff = true →
    ∃ f ∈ after, f.core = e.core ∧ f.call = .resume target

/-- A mark that a pin can wake the system is from a suspend of the system that was not followed by its
    resume. -/
theorem Course.pinWakeup {start s : Moment κ} {turns : List (Turn κ)} (h : Course start turns s)
    (hstart : start.controller.snapshot.pinWakeup = false) : s.controller.snapshot.pinWakeup = true →
      ∃ before e after target, turns = before ++ e :: after ∧ e.core < 4 ∧ e.call = .suspend target ∧
        target.system.isOff = true ∧ ∀ f ∈ after, ¬(f.core = e.core ∧ f.call = .resume target) := by
  refine h.induct (P := fun turns s => s.controller.snapshot.pinWakeup = true →
      ∃ before e after target, turns = before ++ e :: after ∧ e.core < 4 ∧ e.call = .suspend target ∧
        target.system.isOff = true ∧ ∀ f ∈ after, ¬(f.core = e.core ∧ f.call = .resume target)) ?_ ?_
  · intro hpin
    rw [hstart] at hpin
    cases hpin
  · intro turns f ih hf hpin
    obtain ⟨L, -, hgoes⟩ := hf.goes
    cases hgoes with
    | spares hcall hspares =>
      rw [hspares.snapshot] at hpin
      obtain ⟨before, e, after, target, rfl, hcore, hsuspend, hoff, hafter⟩ := ih hpin
      refine ⟨before, e, after ++ [f], target, by simp, hcore, hsuspend, hoff, fun g hg => ?_⟩
      rcases List.mem_append.mp hg with hg | hg
      · exact hafter g hg
      · rw [List.mem_singleton.mp hg]
        rintro ⟨hsame, hresume⟩
        have := hcall target hoff (.inr hresume)
        omega
    | @suspends core target hcore hcall hoff =>
      exact ⟨turns, f, [], target, rfl, hcore ▸ core.isLt, hcall, hoff, fun _ hg => absurd hg List.not_mem_nil⟩
    | resumes _ _ hoff hresumes =>
      rw [hresumes.pinWakeup hoff] at hpin
      cases hpin

theorem Balanced.pinWakeup {start s : Moment κ} {turns : List (Turn κ)} (hbalanced : Balanced turns)
    (h : Course start turns s) (hstart : start.controller.snapshot.pinWakeup = false) :
    s.controller.snapshot.pinWakeup = false := by
  by_contra hpin
  obtain ⟨before, e, after, target, rfl, -, hcall, hoff, hafter⟩ := h.pinWakeup hstart (by simpa using hpin)
  obtain ⟨f, hf, hresume⟩ := hbalanced before e after target rfl hcall hoff
  exact hafter f hf hresume

/-! ### Playing hooks -/

/-- The turns that calls make in an environment, if all of them answer. -/
def Environment.play (env : Environment κ) (region : DmaRegion (History env)) :
    List HookCall → Moment κ → Option (List (Turn κ) × Moment κ)
  | [], s => some ([], s)
  | call :: calls, s =>
    match (env.platform region).perform call s.controller ⟨s.events⟩ with
    | (.ok (outcome, controller), t) =>
      (env.play region calls ⟨controller, t.events⟩).map fun x =>
        (⟨env.core, call, outcome, s, ⟨controller, t.events⟩⟩ :: x.1, x.2)
    | _ => none

theorem course_of_play {env : Environment κ} {region : DmaRegion (History env)} {start : Moment κ} :
    ∀ {calls : List HookCall} {s t : Moment κ} {before turns : List (Turn κ)}, Course start before s →
      env.play region calls s = some (turns, t) → Course start (before ++ turns) t
  | [], s, t, before, turns, hbefore, h => by
    cases h
    rw [List.append_nil]
    exact hbefore
  | call :: calls, s, t, before, turns, hbefore, h => by
    rw [Environment.play] at h
    split at h
    · rename_i outcome controller u heq
      obtain ⟨⟨rest, t'⟩, hrest, hx⟩ := Option.map_eq_some_iff.mp h
      cases hx
      have hfirst := hbefore.snoc (e := ⟨env.core, call, outcome, s, ⟨controller, u.events⟩⟩) ⟨env, region, rfl, heq⟩
      rw [List.append_cons]
      exact course_of_play hfirst hrest
    · cases h

theorem calls_of_play {env : Environment κ} {region : DmaRegion (History env)} :
    ∀ {calls : List HookCall} {s t : Moment κ} {turns : List (Turn κ)}, env.play region calls s = some (turns, t) →
      turns.map (fun e => (e.core, e.call)) = calls.map fun call => (env.core, call)
  | [], s, t, turns, h => by
    cases h
    rfl
  | call :: calls, s, t, turns, h => by
    rw [Environment.play] at h
    split at h
    · obtain ⟨⟨rest, t'⟩, hrest, hx⟩ := Option.map_eq_some_iff.mp h
      cases hx
      rw [List.map_cons, List.map_cons, calls_of_play hrest]
    · cases h

/-- A suspend of the system and its resume. -/
theorem balanced_pair {turns : List (Turn κ)} {core : Nat} {target : PowerState}
    (h : turns.map (fun e => (e.core, e.call)) = [(core, .suspend target), (core, .resume target)]) :
    Balanced turns := by
  obtain ⟨e, rest, rfl, he, hrest⟩ := List.map_eq_cons_iff.mp h
  obtain ⟨f, rest, rfl, hf, hnil⟩ := List.map_eq_cons_iff.mp hrest
  obtain rfl := List.map_eq_nil_iff.mp hnil
  obtain ⟨hcore, hsuspend⟩ := Prod.mk.inj he
  obtain ⟨hcore', hresume⟩ := Prod.mk.inj hf
  intro before g after target' heq hcall _
  rcases before with _ | ⟨e', _ | ⟨f', before⟩⟩
  · cases heq
    rw [hsuspend] at hcall
    cases hcall
    exact ⟨f, List.mem_singleton_self f, hcore'.trans hcore.symm, hresume⟩
  · cases heq
    rw [hresume] at hcall
    cases hcall
  · simp at heq

end PowerFirmware
