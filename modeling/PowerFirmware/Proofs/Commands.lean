import PowerFirmware.Proofs.Suspend.Entering

/-! What the operations of power management put to the System Manager, a suspend and a resume apart. Main
statement: a core that is powered on is given its boot vector first if that is still due, and is started
only once the vector has been accepted (`acts_domainOn`). -/

namespace PowerFirmware

/-- The controller once a core has its boot vector. -/
def Controller.giveBoot {κ : Type} (c : Controller κ) (core : Fin 4) : Controller κ :=
  { c with bootPending := c.bootPending.setIfInBounds core false }

theorem Controller.isBootPending_eq {κ : Type} (c : Controller κ) (core : Fin 4) :
    c.isBootPending core = c.bootPending.get core := by
  rw [isBootPending, List.getD_eq_getElem?_getD, List.getElem?_eq_getElem (by simp [core.isLt])]
  simp
  rfl

theorem Controller.isBootPending_self {κ : Type} (c : Controller κ) {core : Fin 4} :
    (c.giveBoot core).isBootPending core = false := by
  rw [isBootPending, giveBoot, Vector.toList_setIfInBounds, List.getD_eq_getElem?_getD, List.getElem?_set_self']
  cases c.bootPending.toList[core.val]? <;> rfl

theorem Controller.isBootPending_other {κ : Type} (c : Controller κ) {core core' : Fin 4} (h : core ≠ core') :
    (c.giveBoot core').isBootPending core = c.isBootPending core := by
  rw [isBootPending, giveBoot, Vector.toList_setIfInBounds, List.getD_eq_getElem?_getD,
    List.getElem?_set_ne (Fin.val_ne_of_ne h.symm), ← List.getD_eq_getElem?_getD]
  rfl

/-- Clearing an entry that there is. -/
theorem Controller.giveBoot_eq {κ : Type} {c : Controller κ} {core : Fin 4} (h : core.val < 4) :
    { c with bootPending := c.bootPending.set core false h } = c.giveBoot core := by
  simp [giveBoot, Vector.setIfInBounds, Vector.set, Array.setIfInBounds]

namespace Platform
open Run

variable {κ : Type} {env : Environment κ} {region : DmaRegion (History env)} {c d : Controller κ} {core : Fin 4}
variable {r : Except PlatformError Unit} {L M : List (Event κ)} {cmd : Scmi.Command} {cmds cmds' : List Scmi.Command}

/-! ### Hooks that only send -/

/-- The commands are sent one after the other until one is refused, and nothing else is done. -/
def OnlySends {E : Environment κ} (cmds : List Scmi.Command) (x : Hook (History E) κ Unit) : Prop :=
  ∀ c, Acts x c fun r d L => Sends c.client cmds L r d.client ∧ d = { c with client := d.client }

namespace OnlySends

theorem send : OnlySends [cmd] ((env.platform region).send cmd) := fun _ => acts_send

theorem log {level : Level} {message : String} :
    OnlySends (E := env) [] (log level message : Run (History env) Unit) :=
  fun _ => .run (.log ⟨.done, rfl⟩)

theorem bind {x : Hook (History env) κ Unit} {f : Unit → Hook (History env) κ Unit} (hx : OnlySends cmds x)
    (hf : OnlySends cmds' (f ())) : OnlySends (cmds ++ cmds') (x >>= f) := by
  refine fun c => .bind ((hx c).imp ?_)
  rintro r d L ⟨hL, hd⟩
  cases r with
  | error e => exact ⟨hL.stop, hd⟩
  | ok _ =>
    refine (hf d).imp ?_
    rintro r e M ⟨hM, he⟩
    refine ⟨hL.append hM, ?_⟩
    rw [he, hd]

end OnlySends

/-! ### Commands -/

def allowEventsCommand (cpu : UInt32) : Scmi.Command := .nonIrqWakeSet cpu 0 (Layout.debugWakeup ||| Layout.eventWakeup)

def corePolicyCommand (core : Fin 4) (setting : Scmi.LpmSetting) : Scmi.Command :=
  .domainPolicySet (Layout.cpuOf core) [⟨Layout.domainOf core, setting, 0⟩]

/-- The policy that holds after boot. -/
def setupCommands (entry : UInt64) : List Scmi.Command :=
  [.resetVectorSet (Layout.cpuOf Layout.bootCore) .boot entry, allowEventsCommand (Layout.cpuOf Layout.bootCore),
    allowEventsCommand Layout.cluster.cpu, .domainPolicySet Layout.cluster.cpu runModePolicy,
    corePolicyCommand Layout.bootCore .onRun, .sleepModeSet (Layout.cpuOf Layout.bootCore) .gic .wait,
    .sleepModeSet Layout.cluster.cpu .gic .wait,
    .peripheralPolicySet Layout.cluster.cpu [⟨Layout.watchdogInterface, .onRunWaitStop⟩]]

def bootCommand (core : Fin 4) (entry : UInt64) : Scmi.Command := .resetVectorSet (Layout.cpuOf core) .boot entry

/-- A core is started, and what wakes it and when its domain stays on follows. -/
def startCommands (core : Fin 4) : List Scmi.Command :=
  [.cpuStart (Layout.cpuOf core), allowEventsCommand (Layout.cpuOf core), corePolicyCommand core .onRun]

def offCommands (core : Fin 4) : List Scmi.Command :=
  [corePolicyCommand core .onRunWaitStop, .irqWakeSet (Layout.cpuOf core) 0 WakeupPolicy.allMasked,
    .sleepModeSet (Layout.cpuOf core) .gpc .suspend]

/-! ### Hooks -/

theorem acts_setup {entry : UInt64} : Acts ((env.platform region).setup entry) c fun r d L =>
    Sends c.client (setupCommands entry) L r d.client ∧ d = { c with client := d.client, entry } := by
  refine .bind (.modify (.bind (.bind (.get (acts_send.imp ?_)))))
  rintro r d L ⟨hL, hd⟩
  cases r with
  | error e => exact ⟨hL.stop, hd⟩
  | ok _ =>
    refine ((?_ : OnlySends (setupCommands entry).tail _) d).imp ?_
    · exact .bind .send (.bind .send (.bind .send (.bind .send (.bind .send (.bind .send (.bind .send .log))))))
    · rintro r e M ⟨hM, he⟩
      refine ⟨hL.append hM, ?_⟩
      rw [he, hd]

/-- How powering a core on goes. -/
inductive PowersOn (core : Fin 4) (c : Controller κ) :
    Except PlatformError Unit → Controller κ → List (Event κ) → Prop
  | refused {e : PlatformError} {a : Scmi.Client} {L : List (Event κ)} : c.isBootPending core = true →
      Sends c.client [bootCommand core c.entry] L (.error e) a → PowersOn core c (.error e) { c with client := a } L
  | first {r : Except PlatformError Unit} {a b : Scmi.Client} {L M : List (Event κ)} : c.isBootPending core = true →
      Sends c.client [bootCommand core c.entry] L (.ok ()) a → Sends a (startCommands core) M r b →
      PowersOn core c r { c.giveBoot core with client := b } (L ++ M)
  | again {r : Except PlatformError Unit} {a : Scmi.Client} {L : List (Event κ)} : c.isBootPending core = false →
      Sends c.client (startCommands core) L r a → PowersOn core c r { c with client := a } L

theorem acts_domainOn {affinity : UInt64} (hcore : coreOfAffinity affinity = core.val) :
    Acts ((env.platform region).domainOn affinity) c (PowersOn core c) := by
  obtain ⟨core, hlt⟩ := core
  obtain rfl : coreOfAffinity affinity = core := hcore
  unfold domainOn
  rw [dif_pos hlt]
  refine .bind (.get ?_)
  dsimp only
  split
  · rename_i hpending
    have hpending : c.isBootPending _ = true := (c.isBootPending_eq ⟨_, hlt⟩).trans hpending
    refine .bind (.bind (.get (acts_send.imp ?_)))
    rintro r d L ⟨hL, hd⟩
    cases r with
    | error e =>
      rw [hd]
      exact .refused hpending hL
    | ok _ =>
      refine .bind (.modify (((?_ : OnlySends (startCommands ⟨_, hlt⟩) _) _).imp ?_))
      · exact .bind .send (.bind .send (.bind .send .log))
      · rintro r e M ⟨hM, he⟩
        have hfirst : PowersOn ⟨_, hlt⟩ c r { c.giveBoot ⟨_, hlt⟩ with client := e.client } (L ++ M) :=
          .first hpending hL hM
        rw [← Controller.giveBoot_eq hlt] at hfirst
        rw [he, hd]
        exact hfirst
  · rename_i hpending
    have hpending : c.isBootPending _ = false := (c.isBootPending_eq ⟨_, hlt⟩).trans (Bool.eq_false_iff.mpr hpending)
    refine ((?_ : OnlySends (startCommands ⟨_, hlt⟩) _) c).imp ?_
    · exact .bind .send (.bind .send (.bind .send .log))
    · rintro r d L ⟨hL, hd⟩
      rw [hd]
      exact .again hpending hL

theorem acts_domainOn_outside {affinity : UInt64} (hcore : ¬coreOfAffinity affinity < 4) :
    Acts ((env.platform region).domainOn affinity) c fun r d L => r = .error .invalidArgument ∧ d = c ∧ L = [] := by
  unfold domainOn
  rw [dif_neg hcore]
  exact .throw ⟨rfl, rfl, rfl⟩

theorem acts_domainOnFinish (hcore : env.core = core.val) :
    Acts (env.platform region).domainOnFinish c fun r d L => d = { c with client := d.client } ∧
      ∃ M, L = M ++ (if r.isOk then [.initCore core, .enableInterface core] else []) ∧
        Sends c.client [.sleepModeSet (Layout.cpuOf core) .gic .wait] M r d.client := by
  refine .bind (acts_thisCore hcore (.bind (acts_send.imp ?_)))
  rintro r d L ⟨hL, hd⟩
  cases r with
  | error e => exact ⟨hd, L, (List.append_nil L).symm, hL⟩
  | ok _ =>
    refine .bind (.run (.did (fun _ => trivial) (.run (.did (fun _ => trivial) ?_))))
    exact ⟨hd, L, by simp [Except.isOk, Except.toBool], hL⟩

theorem acts_domainOff (hcore : env.core = core.val) :
    Acts (env.platform region).domainOff c fun r d L => d = { c with client := d.client } ∧
      ∃ M, L = .disableInterface core :: .powerDownCluster clusterOff :: M ∧
        Sends c.client (offCommands core) M r d.client := by
  refine .bind (acts_thisCore hcore (.bind (.run (.did (fun _ => trivial) (.bind (.run (.did (fun _ => trivial) ?_)))))))
  refine ((?_ : OnlySends (offCommands core) _) c).imp ?_
  · exact .bind .send (.bind .send (.bind .send .log))
  · rintro r d L ⟨hL, hd⟩
    exact ⟨hd, L, rfl, hL⟩

theorem acts_systemTransition {state : Scmi.SystemPower} :
    Acts ((env.platform region).systemTransition state) c fun r d L => d = { c with client := d.client } ∧
      ∃ M, L = .disableGroups :: M ∧ Sends c.client [.systemPowerSet .forceful state] M r d.client := by
  refine .bind (.run (.did (fun _ => trivial) (acts_send.imp ?_)))
  rintro r d L ⟨hL, hd⟩
  exact ⟨hd, L, rfl, hL⟩

/-- A core that there is not is told so, and nothing is done. -/
theorem acts_noCore {α : Type} {f : Fin 4 → Hook (History env) κ α} (h : ¬env.core < 4) :
    Acts ((env.platform region).thisCore >>= f) c fun r d L => r = .error .invalidArgument ∧ d = c ∧ L = [] := by
  refine .bind (.bind (.run (.view fun _ => ?_)))
  dsimp only [Environment.platform]
  rw [dif_neg h]
  exact .throw ⟨rfl, rfl, rfl⟩

end Platform
end PowerFirmware
