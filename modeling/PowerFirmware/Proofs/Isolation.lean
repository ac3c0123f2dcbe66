import PowerFirmware.Proofs.BootVector

/-! Cores apart from each other. Main statement: once the system has been set up and while everything is
accepted, what the System Manager and the interrupt controller keep of a core, and whether it still boots,
follow from the hooks about that core alone, in their order (`cores_isolated`). -/

namespace PowerFirmware
open Run Platform WakeupPolicy

variable {κ : Type} {L M : List (Event κ)} {core core' : Fin 4} {c d : Controller κ} {r : Except PlatformError Unit}
variable {target : PowerState} {e : Turn κ} {entry : UInt64} {isPending : Bool} {call : HookCall} {n : Nat}

/-! ### What a hook does to its core -/

/-- Whether a turn is about the core: it powers the core on, or the core calls it. -/
def Turn.concerns (core : Fin 4) (e : Turn κ) : Bool :=
  match e.call with
  | .on affinity => coreOfAffinity affinity == core.val
  | call => call.isOfCaller && e.core == core.val

/-- What a hook about the core asks for that names it, by the warm entry and by whether the core is still
    given its boot vector. -/
def HookCall.commands (core : Fin 4) (entry : UInt64) (isPending : Bool) : HookCall → List Scmi.Command
  | .on _ => (if isPending then [bootCommand core entry] else []) ++ startCommands core
  | .onFinish => [.sleepModeSet (Layout.cpuOf core) .gic .wait]
  | .off => offCommands core
  | .suspend target => leaveCommands core target entry ++ if target.system.isOff then coreSleepCommands core else []
  | .resume target => if target.system.isOff then coreWakeCommands core else []
  | .setup _ | .reset | .shutDown => []

/-- How a hook leaves the interface of its core, if it switches it. -/
def HookCall.switch? : HookCall → Option Bool
  | .onFinish => some true
  | .off => some false
  | .suspend target => if target.core.isOff then some false else none
  | .resume target => if target.core.isOff then some true else none
  | _ => none

def HookCall.isOn : HookCall → Bool
  | .on _ => true
  | _ => false

/-- What is kept of a core: the System Manager's record, whether the core is still given its boot vector,
    and whether its interface is enabled. -/
structure CoreState where
  record : Scmi.CpuRecord
  isPending : Bool
  interface : Option Bool

def Moment.coreState (core : Fin 4) (s : Moment κ) : CoreState :=
  ⟨cpuRecord (Layout.cpuOf core) s.events, s.controller.isBootPending core, interfaceState core s.events⟩

namespace CoreState

/-- After the system has been set up. -/
def booted (core : Fin 4) (entry : UInt64) : CoreState :=
  ⟨.follow (Layout.cpuOf core) {} (setupCommands entry), core ≠ Layout.bootCore, none⟩

/-- After one more hook about the core. -/
def after (core : Fin 4) (entry : UInt64) (s : CoreState) (call : HookCall) : CoreState where
  record := (call.commands core entry s.isPending).foldl Scmi.CpuRecord.after s.record
  isPending := s.isPending && !call.isOn
  interface := call.switch?.or s.interface

/-- A core that runs sleeps by waiting and is woken through the interrupt controller, by its interface; one
    that is off or that suspended the system is suspended, and woken by the System Manager's own masks. -/
def Fits (s : CoreState) : HookCall → Prop
  | .onFinish => s.record.sleep = some (.gic, .wait) ∧ s.interface = some true
  | .off => s.record.sleep = some (.gpc, .suspend) ∧ s.interface = some false
  | .suspend target =>
    (target.system.isOff = true → s.record.sleep = some (Scmi.WakeupFlags.gpc.union Scmi.WakeupFlags.resumeCpu, .suspend)) ∧
      (target.core.isOff = true → s.interface = some false)
  | .resume target =>
    (target.system.isOff = true → s.record.sleep = some (Scmi.WakeupFlags.gic.union Scmi.WakeupFlags.resumeCpu, .wait)) ∧
      (target.core.isOff = true → s.interface = some true)
  | _ => True

theorem fits_after {s : CoreState} : (s.after core entry call).Fits call := by
  cases call with
  | setup | on | reset | shutDown => trivial
  | onFinish | off => exact ⟨rfl, rfl⟩
  | suspend target =>
    refine ⟨fun hoff => ?_, fun hoff => ?_⟩
    · simp [after, HookCall.commands, hoff, coreSleepCommands, Scmi.CpuRecord.after]
    · simp [after, HookCall.switch?, hoff]
  | resume target =>
    refine ⟨fun hoff => ?_, fun hoff => ?_⟩
    · simp [after, HookCall.commands, hoff, coreWakeCommands, Scmi.CpuRecord.after]
    · simp [after, HookCall.switch?, hoff]

end CoreState

theorem HookCall.cpu?_commands : ∀ cmd ∈ call.commands core entry isPending, cmd.cpu? = some (Layout.cpuOf core) := by
  cases call with
  | setup | reset | shutDown => exact fun _ h => absurd h List.not_mem_nil
  | on affinity =>
    cases isPending <;> simp [commands, startCommands, bootCommand, allowEventsCommand, corePolicyCommand, Scmi.Command.cpu?]
  | onFinish => simp [commands, Scmi.Command.cpu?]
  | off => simp [commands, offCommands, corePolicyCommand, Scmi.Command.cpu?]
  | suspend target =>
    cases hcore : target.core.isOff <;> cases hoff : target.system.isOff <;>
      simp [commands, leaveCommands, coreSleepCommands, Scmi.Command.cpu?, hcore, hoff]
  | resume target => cases hoff : target.system.isOff <;> simp [commands, coreWakeCommands, Scmi.Command.cpu?, hoff]

theorem HookCall.fits_commands : ∀ cmd ∈ call.commands core entry isPending, cmd.fits = true := by
  cases call with
  | setup | reset | shutDown => exact fun _ h => absurd h List.not_mem_nil
  | on affinity =>
    cases isPending <;> simp [commands, startCommands, bootCommand, allowEventsCommand, corePolicyCommand, Scmi.Command.fits]
  | onFinish => simp [commands, Scmi.Command.fits]
  | off => simp [commands, offCommands, corePolicyCommand, Scmi.Command.fits, allMasked, wakeBanks]
  | suspend target =>
    cases hcore : target.core.isOff <;> cases hoff : target.system.isOff <;>
      simp [commands, leaveCommands, coreSleepCommands, Scmi.Command.fits, allMasked, wakeBanks, hcore, hoff]
  | resume target => cases hoff : target.system.isOff <;> simp [commands, coreWakeCommands, Scmi.Command.fits, hoff]

/-! ### What a turn does to each core -/

theorem Sends.accepted_of_all {a b : Scmi.Client} {cmds : List Scmi.Command} (h : Sends a cmds L r b)
    (hfits : ∀ cmd ∈ cmds, cmd.fits = true) (hall : AllAccepted L) : r = .ok () ∧ acceptedCommands L = cmds := by
  obtain rfl := h.ok hfits hall
  exact ⟨rfl, h.accepted_eq⟩

theorem interfaceState_eq {b : Option Bool} (h : switches L = (b.map (core'.val, ·)).toList) :
    interfaceState core L = if core' = core then b else none := by
  rw [interfaceState, h]
  cases b with
  | none => simp
  | some b => by_cases heq : core' = core <;> simp [heq, Fin.val_inj]

namespace Platform

theorem PowersOn.accepted_eq (h : PowersOn core c r d L) (hall : AllAccepted L) (affinity : UInt64) :
    acceptedCommands L = HookCall.commands core c.entry (c.isBootPending core) (.on affinity) ∧
      d.isBootPending core = false := by
  have hboot : ∀ cmd ∈ [bootCommand core c.entry], cmd.fits = true := by simp [bootCommand, Scmi.Command.fits]
  have hfits : ∀ cmd ∈ HookCall.commands core c.entry false (.on affinity), cmd.fits = true := HookCall.fits_commands
  cases h with
  | refused _ h => cases h.ok hboot hall
  | first hpending h hstart =>
    rw [allAccepted_append] at hall
    rw [accepted_append, h.accepted_eq, (hstart.accepted_of_all hfits hall.2).2, hpending]
    exact ⟨rfl, c.isBootPending_self⟩
  | again hpending hstart =>
    rw [(hstart.accepted_of_all hfits hall).2, hpending]
    exact ⟨rfl, hpending⟩

theorem PowersOn.pending (h : PowersOn core' c r d L) (hall : AllAccepted L) (core : Fin 4) :
    d.isBootPending core = (c.isBootPending core && !decide (core' = core)) := by
  by_cases hsame : core' = core
  · subst hsame
    rw [(h.accepted_eq hall 0).2, decide_eq_true rfl, Bool.not_true, Bool.and_false]
  · rw [(h.leavesOff (Ne.symm hsame)).pending, decide_eq_false hsame, Bool.not_false, Bool.and_true]

theorem PowersOn.switches (h : PowersOn core c r d L) : switches L = [] := by
  cases h with
  | refused _ h => exact h.switches
  | first _ h hstart => rw [switches_append, h.switches, hstart.switches]; rfl
  | again _ hstart => exact hstart.switches

theorem Suspends.ok (h : Suspends core target c r d L) (htable : c.wakeup.cleared = table) (hall : AllAccepted L) :
    r = .ok () := by
  cases h with
  | stays h =>
    have hfits : ∀ cmd ∈ HookCall.commands core c.entry false (.suspend target), cmd.fits = true :=
      HookCall.fits_commands
    cases h.ok (fun cmd hcmd => hfits cmd (List.mem_append_left _ hcmd)) hall
  | leaves _ hsystem =>
    rw [allAccepted_append, allAccepted_append] at hall
    split at hsystem
    · exact hsystem.ok htable hall.2.2
    · exact hsystem.1

theorem Suspends.filter_accepted (h : Suspends core' target c (.ok ()) d L) :
    (acceptedCommands L).filter (·.names (Layout.cpuOf core)) =
      if core' = core then HookCall.commands core' c.entry isPending (.suspend target) else [] := by
  have hcpu : ∀ cmd ∈ HookCall.commands core' c.entry isPending (.suspend target),
      cmd.cpu? = some (Layout.cpuOf core') := HookCall.cpu?_commands
  have hleave : (leaveCommands core' target c.entry).filter (·.names (Layout.cpuOf core)) =
      if core' = core then leaveCommands core' target c.entry else [] :=
    filter_names fun cmd hcmd => hcpu cmd (List.mem_append_left _ hcmd)
  rcases hoff : target.system.isOff with _ | _
  · cases h with
    | leaves h hsystem =>
      rw [hoff, if_neg Bool.false_ne_true] at hsystem
      rw [hsystem.2.2, accepted_append, h.accepted_eq, accepted_append, accepted_eq_nil leaveEvents_exchange?,
        List.filter_append, hleave, HookCall.commands, hoff]
      simp [acceptedCommands, exchanges]
  · obtain ⟨masks, keep, hcommands⟩ := h.accepted_eq hoff
    rw [hcommands, List.filter_append, hleave, filter_sleepCommands, HookCall.commands, if_pos hoff]
    split <;> rfl

theorem Suspends.switches (h : Suspends core target c (.ok ()) d L) :
    switches L = ((HookCall.suspend target).switch?.map (core.val, ·)).toList := by
  have hleave : PowerFirmware.switches (leaveEvents (κ := κ) core target) =
      ((HookCall.suspend target).switch?.map (core.val, ·)).toList := by
    unfold leaveEvents
    show _ = (Option.map _ (if target.core.isOff then some false else none)).toList
    cases target.core.isOff <;> cases target.cluster.isRun <;> rfl
  cases h with
  | @leaves _ _ _ _ M h hsystem =>
    have hrest : PowerFirmware.switches M = [] := by
      split at hsystem
      · exact hsystem.switches
      · rw [hsystem.2.2]
        rfl
    rw [switches_append, switches_append, h.switches, hleave, hrest, List.append_nil, List.nil_append]

theorem Resumes.filter_accepted (h : Resumes core' target c r d L) (htable : c.wakeup.cleared = table)
    (hall : AllAccepted L) : (acceptedCommands L).filter (·.names (Layout.cpuOf core)) =
      if core' = core then HookCall.commands core' entry isPending (.resume target) else [] := by
  have hlast : acceptedCommands (κ := κ) (if target.core.isOff then [.enableInterface core'.val] else []) = [] := by
    split <;> rfl
  cases h with
  | system hoff h =>
    rw [allAccepted_append] at hall
    obtain ⟨o₂, o₃, rfl⟩ := h.ok htable hall.1
    rw [accepted_append, h.accepted_eq.1, hlast, List.append_nil, filter_wakeCommands, HookCall.commands, if_pos hoff]
  | core hon =>
    rw [hlast, HookCall.commands, hon]
    simp

theorem Resumes.switches (h : Resumes core target c r d L) :
    switches L = ((HookCall.resume target).switch?.map (core.val, ·)).toList := by
  have hlast : PowerFirmware.switches (κ := κ) (if target.core.isOff then [.enableInterface core.val] else []) =
      ((HookCall.resume target).switch?.map (core.val, ·)).toList := by
    show _ = (Option.map _ (if target.core.isOff then some true else none)).toList
    cases target.core.isOff <;> rfl
  cases h with
  | system _ h => rw [switches_append, h.switches, hlast, List.nil_append]
  | core => exact hlast

end Platform

/-- What a turn does to the core: nothing unless it is about it, and otherwise what the hook does. -/
structure Turn.Affects (core : Fin 4) (e : Turn κ) (L : List (Event κ)) : Prop where
  commands : (acceptedCommands L).filter (·.names (Layout.cpuOf core)) = if e.concerns core
    then e.call.commands core e.before.controller.entry (e.before.controller.isBootPending core) else []
  pending : e.after.controller.isBootPending core =
    (e.before.controller.isBootPending core && !(e.concerns core && e.call.isOn))
  interface : interfaceState core L = if e.concerns core then e.call.switch? else none

/-- A hook about one core. -/
theorem Turn.Affects.of_core (hconcerns : ∀ core : Fin 4, e.concerns core = decide (core' = core))
    (hcommands : ∀ core : Fin 4, (acceptedCommands L).filter (·.names (Layout.cpuOf core)) = if core' = core
      then e.call.commands core' e.before.controller.entry (e.before.controller.isBootPending core') else [])
    (hpending : ∀ core : Fin 4, e.after.controller.isBootPending core =
      (e.before.controller.isBootPending core && !(decide (core' = core) && e.call.isOn)))
    (hswitches : switches L = (e.call.switch?.map (core'.val, ·)).toList) (core : Fin 4) : e.Affects core L := by
  refine ⟨?_, by rw [hconcerns]; exact hpending core, ?_⟩
  · rw [hcommands, hconcerns]
    by_cases heq : core' = core
    · subst heq
      simp
    · simp [heq]
  · rw [interfaceState_eq hswitches, hconcerns]
    simp only [decide_eq_true_eq]

/-- A hook about one core whose commands all name that core. -/
theorem Turn.Affects.of_commands (hconcerns : ∀ core : Fin 4, e.concerns core = decide (core' = core))
    (hcommands : acceptedCommands L =
      e.call.commands core' e.before.controller.entry (e.before.controller.isBootPending core'))
    (hpending : ∀ core : Fin 4, e.after.controller.isBootPending core =
      (e.before.controller.isBootPending core && !(decide (core' = core) && e.call.isOn)))
    (hswitches : switches L = (e.call.switch?.map (core'.val, ·)).toList) (core : Fin 4) : e.Affects core L :=
  .of_core hconcerns (fun _ => by rw [hcommands, filter_names HookCall.cpu?_commands]) hpending hswitches core

/-- A hook about no core. -/
theorem Turn.Affects.of_none (hconcerns : ∀ core : Fin 4, e.concerns core = false)
    (hcommands : ∀ cmd ∈ acceptedCommands L, cmd.cpu? = none)
    (hpending : e.after.controller.bootPending = e.before.controller.bootPending) (hswitches : switches L = [])
    (core : Fin 4) : e.Affects core L := by
  refine ⟨?_, ?_, ?_⟩
  · rw [hconcerns]
    refine List.filter_eq_nil_iff.mpr fun cmd hcmd => ?_
    rw [Scmi.Command.names, hcommands cmd hcmd]
    exact Bool.false_ne_true
  · rw [hconcerns, Controller.isBootPending, hpending, Bool.false_and, Bool.not_false, Bool.and_true]
    rfl
  · rw [hconcerns, interfaceState, hswitches]
    rfl

theorem Turn.concerns_on {affinity : UInt64} (h : e.call = .on affinity) :
    e.concerns core = (coreOfAffinity affinity == core.val) := by
  simp only [Turn.concerns, h]

theorem Turn.concerns_of_caller (h : e.call.isOfCaller = true) : e.concerns core = (e.core == core.val) := by
  unfold Turn.concerns
  generalize e.call = call at h
  cases call with
  | onFinish | off | suspend | resume => rfl
  | setup | on | reset | shutDown => cases h

theorem beq_val (h : n = core'.val) : (n == core.val) = decide (core' = core) := by
  rw [h, Bool.eq_iff_iff, beq_iff_eq, decide_eq_true_eq, Fin.val_inj]

theorem Turn.concerns_eq (hcaller : e.call.isOfCaller = true) (hcore : e.core = core'.val) :
    e.concerns core = decide (core' = core) :=
  (Turn.concerns_of_caller hcaller).trans (beq_val hcore)

/-- Every hook but the first set up does to the cores what hooks do to the core that they are about. -/
theorem Turn.Makes.affects (h : e.Makes L) (htable : e.before.controller.wakeup.cleared = table)
    (hall : AllAccepted L) (hcall : ∀ v, e.call ≠ .setup v) : ∀ core, e.Affects core L := by
  have kept : e.after.controller = { e.before.controller with client := e.after.controller.client } →
      e.call.isOn = false → ∀ core core' : Fin 4, e.after.controller.isBootPending core =
        (e.before.controller.isBootPending core && !(decide (core' = core) && e.call.isOn)) := by
    intro hafter hon core core'
    rw [hafter, hon, Bool.and_false, Bool.not_false, Bool.and_true]
    rfl
  cases h with
  | setup h => exact absurd h (hcall _)
  | @on affinity core' h hcore hpowers =>
    have hconcerns : ∀ core, e.concerns core = decide (core' = core) := fun core => by
      rw [Turn.concerns_on h, beq_val hcore]
    refine .of_commands hconcerns ?_ (fun core => ?_) ?_
    · rw [h]
      exact (hpowers.accepted_eq hall affinity).1
    · rw [h, hpowers.pending hall]
      simp [HookCall.isOn]
    · rw [h]
      exact hpowers.switches
  | @onFinish core' M h hcore hsends hafter hL =>
    rw [hL, allAccepted_append] at hall
    obtain ⟨hok, hcommands⟩ := hsends.accepted_of_all (by simp [Scmi.Command.fits]) hall.1
    refine .of_commands (fun _ => Turn.concerns_eq (by rw [h]; rfl) hcore) ?_ (kept hafter (by rw [h]; rfl) · core') ?_
    · rw [hL, accepted_append, hcommands, h, hok]
      rfl
    · rw [hL, switches_append, hsends.switches, h, hok]
      rfl
  | @off core' M h hcore hsends hafter hL =>
    rw [hL, allAccepted_cons rfl, allAccepted_cons rfl] at hall
    have hfits : ∀ cmd ∈ HookCall.commands core' e.before.controller.entry false .off, cmd.fits = true :=
      HookCall.fits_commands
    refine .of_commands (fun _ => Turn.concerns_eq (by rw [h]; rfl) hcore) ?_ (kept hafter (by rw [h]; rfl) · core') ?_
    · rw [hL, accepted_cons rfl, accepted_cons rfl, (hsends.accepted_of_all hfits hall).2, h]
      rfl
    · rw [hL, h]
      show (core'.val, false) :: switches (.powerDownCluster clusterOff :: M) = _
      rw [switches_cons rfl, hsends.switches]
      rfl
  | @suspend target core' h hcore hsuspends =>
    rw [hsuspends.ok htable hall] at hsuspends
    refine .of_core (fun _ => Turn.concerns_eq (by rw [h]; rfl) hcore) (fun core => ?_) (fun core => ?_) ?_
    · rw [h]
      exact hsuspends.filter_accepted
    · rw [h, (hsuspends.leavesOff core).pending]
      simp [HookCall.isOn]
    · rw [h]
      exact hsuspends.switches
  | @resume target core' h hcore hresumes =>
    refine .of_core (fun _ => Turn.concerns_eq (by rw [h]; rfl) hcore) (fun core => ?_) (fun core => ?_) ?_
    · rw [h]
      exact hresumes.filter_accepted htable hall
    · rw [h, (hresumes.leavesOff core).pending]
      simp [HookCall.isOn]
    · rw [h]
      exact hresumes.switches
  | @transition state M h hsends hafter hL =>
    rw [hL, allAccepted_cons rfl] at hall
    refine .of_none (fun core => ?_) ?_ (by rw [hafter]) ?_
    · rcases h with ⟨h, -⟩ | ⟨h, -⟩ <;> simp only [Turn.concerns, h] <;> rfl
    · rw [hL, accepted_cons rfl, (hsends.accepted_of_all (by simp [Scmi.Command.fits]) hall).2]
      simp [Scmi.Command.cpu?]
    · rw [hL, switches_cons rfl, hsends.switches]
  | noCore h houtcome hafter hL =>
    refine .of_none (fun core => ?_) (by rw [hL]; exact fun _ h => absurd h List.not_mem_nil) (by rw [hafter]) (by rw [hL]; rfl)
    have hlt := core.isLt
    rcases h with ⟨affinity, h, hcore⟩ | ⟨h, hcore⟩
    · rw [Turn.concerns_on h, beq_eq_false_iff_ne]
      omega
    · rw [Turn.concerns_of_caller h, beq_eq_false_iff_ne]
      omega

theorem Turn.Affects.coreState (h : e.Affects core L) (hL : e.after.events = e.before.events ++ L) :
    e.after.coreState core = if e.concerns core
      then (e.before.coreState core).after core e.before.controller.entry e.call else e.before.coreState core := by
  have hstate : e.after.coreState core = ⟨((acceptedCommands L).filter (·.names (Layout.cpuOf core))).foldl
      Scmi.CpuRecord.after (cpuRecord (Layout.cpuOf core) e.before.events), e.after.controller.isBootPending core,
      (interfaceState core L).or (interfaceState core e.before.events)⟩ := by
    rw [Moment.coreState, hL, cpuRecord_append, interfaceState_append]
    rfl
  rw [hstate, h.commands, h.pending, h.interface]
  cases e.concerns core with
  | false =>
    rw [Bool.false_and, Bool.not_false, Bool.and_true]
    rfl
  | true =>
    rw [Bool.true_and]
    rfl

/-! ### Courses -/

variable {s t : Moment κ} {turns : List (Turn κ)}

theorem Course.grows (h : Course s turns t) : ∃ L, t.events = s.events ++ L := by
  refine h.induct (P := fun _ t => ∃ L, t.events = s.events ++ L) ⟨[], (List.append_nil _).symm⟩ ?_
  rintro turns e ⟨L, hL⟩ he
  obtain ⟨M, hM, -⟩ := he.makes
  exact ⟨L ++ M, by rw [hM, hL, List.append_assoc]⟩

/-- While everything is accepted, every turn of a course does to the cores what its hook does, and finds the
    warm entry of the start. -/
theorem Course.affects (h : Course s turns t) (htable : s.controller.wakeup.cleared = table)
    (hcalls : ∀ e ∈ turns, ∀ v, e.call ≠ .setup v) (hall : AllAccepted t.events) :
    t.controller.entry = s.controller.entry ∧ ∀ e ∈ turns, e.before.controller.entry = s.controller.entry ∧
      ∃ L, e.after.events = e.before.events ++ L ∧ AllAccepted L ∧ ∀ core, e.Affects core L := by
  induction h with
  | nil => exact ⟨rfl, fun _ he => absurd he List.not_mem_nil⟩
  | @snoc turns e h he ih =>
    obtain ⟨L, hL, hmakes⟩ := he.makes
    rw [hL, allAccepted_append] at hall
    obtain ⟨hentry, hturns⟩ := ih (fun f hf => hcalls f (List.mem_append_left _ hf)) hall.1
    have hcall := hcalls e (List.mem_append_right _ List.mem_cons_self)
    have hkept : e.after.controller.entry = e.before.controller.entry := by
      rcases hmakes.entry with ⟨v, hv, -⟩ | ⟨-, hkept⟩
      · exact absurd hv (hcall v)
      · exact hkept
    refine ⟨hkept.trans hentry, fun f hf => ?_⟩
    rcases List.mem_append.mp hf with hf | hf
    · exact hturns f hf
    · obtain rfl := List.mem_singleton.mp hf
      exact ⟨hentry, L, hL, hall.2, hmakes.affects (h.cleared.trans htable) hall.2 hcall⟩

theorem Course.coreState (h : Course s turns t)
    (hturns : ∀ e ∈ turns, e.before.controller.entry = entry ∧
      ∃ L, e.after.events = e.before.events ++ L ∧ AllAccepted L ∧ ∀ core, e.Affects core L) :
    t.coreState core =
      ((turns.filter (·.concerns core)).map (·.call)).foldl (CoreState.after core entry) (s.coreState core) := by
  induction h with
  | nil => rfl
  | @snoc turns e _ _ ih =>
    obtain ⟨hentry, L, hL, -, haffects⟩ := hturns e (List.mem_append_right _ List.mem_cons_self)
    rw [List.filter_append, List.map_append, List.foldl_append,
      ← ih fun f hf => hturns f (List.mem_append_left _ hf), (haffects core).coreState hL, hentry]
    cases hconcerns : e.concerns core <;> simp [hconcerns]

/-- A turn puts no command to the System Manager that names a core which the turn is not about. -/
theorem Turn.Affects.asks (hL : e.after.events = e.before.events ++ L) (hall : AllAccepted L)
    (h : ∀ core, e.Affects core L) :
    Asks (fun cmd => ∀ core, cmd.cpu? = some (Layout.cpuOf core) → e.concerns core = true) e.events := by
  have hevents : e.events = L := by rw [Turn.events, hL, List.drop_left]
  rw [hevents]
  intro x hx cmd hcmd core hcpu
  have hmem : cmd ∈ (acceptedCommands L).filter (·.names (Layout.cpuOf core)) :=
    List.mem_filter.mpr ⟨hall.mem_accepted hx hcmd, by rw [Scmi.Command.names, hcpu, beq_self_eq_true]⟩
  rw [(h core).commands] at hmem
  by_contra hconcerns
  rw [if_neg hconcerns] at hmem
  cases hmem

/-- What setting the system up leaves of each core. -/
theorem Turn.Happens.booted {k : κ} (he : e.Happens) (hstart : e.before = ⟨Controller.initial k, []⟩)
    (hcall : e.call = .setup entry) (hall : AllAccepted e.after.events) (core : Fin 4) :
    e.after.controller.entry = entry ∧ e.after.coreState core = .booted core entry := by
  obtain ⟨env, region, -, heq⟩ := he
  rw [hcall, hstart] at heq
  have hacts : Acts ((env.platform region).setup entry) (Controller.initial k) fun r d L =>
      Sends ({} : Scmi.Client) (setupCommands entry) L r d.client ∧
        d = { Controller.initial k with client := d.client, entry } := acts_setup
  obtain ⟨L, hL, -, hsends, hafter⟩ := hacts.answered heq
  have hevents : e.after.events = L := congrArg History.events hL
  have hcommands : acceptedCommands L = setupCommands entry := by
    refine (hsends.accepted_of_all ?_ (hevents ▸ hall)).2
    simp [setupCommands, allowEventsCommand, corePolicyCommand, runModePolicy, Scmi.Command.fits]
  have hpending : ∀ core : Fin 4, (Controller.initial k).isBootPending core = decide (core ≠ Layout.bootCore) :=
    show ∀ core : Fin 4, secondaryCores.toList.getD core false = decide (core ≠ Layout.bootCore) by decide
  rw [Moment.coreState, cpuRecord, interfaceState, hevents, hcommands, hsends.switches, hafter]
  refine ⟨rfl, ?_⟩
  rw [CoreState.booted, ← hpending]
  rfl

/-- After the system has been set up and while everything is accepted, no hook puts a command to the System
    Manager that names a core other than its own, and what is kept of a core follows from the hooks about
    that core alone: whatever is done to other cores in between, and in whichever order, is no part of it.
    In it each hook leaves the core asleep and its interface switched as fits what the hook is for. -/
theorem cores_isolated {k : κ} {first : Turn κ} (hcourse : Course ⟨Controller.initial k, []⟩ (first :: turns) t)
    (hsetup : first.call = .setup entry) (hcalls : ∀ e ∈ turns, ∀ v, e.call ≠ .setup v)
    (haccepted : AllAccepted t.events) (core : Fin 4) :
    (∀ e ∈ turns, Asks (fun cmd => ∀ core, cmd.cpu? = some (Layout.cpuOf core) → e.concerns core = true) e.events) ∧
      t.coreState core =
        ((turns.filter (·.concerns core)).map (·.call)).foldl (CoreState.after core entry) (.booted core entry) ∧
      ∀ e ∈ turns, e.concerns core = true → (e.after.coreState core).Fits e.call := by
  obtain ⟨hstart, hfirst, hrest⟩ := hcourse.head
  have hone : Course first.before [first] first.after := .snoc .nil hfirst
  have htable : first.after.controller.wakeup.cleared = table := hone.cleared.trans (by rw [hstart]; rfl)
  obtain ⟨L, hL⟩ := hrest.grows
  have hbooted := hfirst.booted hstart hsetup (allAccepted_append.mp (hL ▸ haccepted)).1 core
  obtain ⟨-, hturns⟩ := hrest.affects htable hcalls haccepted
  rw [hbooted.1] at hturns
  refine ⟨fun e he => ?_, ?_, fun e he hconcerns => ?_⟩
  · obtain ⟨-, L, hL, hall, haffects⟩ := hturns e he
    exact Turn.Affects.asks hL hall haffects
  · rw [hrest.coreState hturns, hbooted.2]
  · obtain ⟨-, L, hL, -, haffects⟩ := hturns e he
    rw [(haffects core).coreState hL, if_pos hconcerns]
    exact CoreState.fits_after

/-- The environment of a core in which everything is accepted. -/
def accepting (core : Nat) : Environment Unit := { lined 0x3ff 0 with core }

/-- A core off, and the system still running. -/
def coreOff : PowerState := ⟨.off, .run, .run⟩

/-- The first core sets the system up and powers on two others, which take turns: one is suspended and
    resumed while the other goes off and is powered on again. -/
def interleaved : List (Nat × List HookCall) :=
  [(0, [.setup Layout.imageBase, .on 0x200, .on 0x100]), (1, [.onFinish, .suspend coreOff]), (2, [.onFinish, .off]),
    (0, [.on 0x200]), (1, [.resume coreOff]), (2, [.onFinish])]

/-- The turns that cores make one after the other, if all of them answer. -/
def playAll : List (Nat × List HookCall) → Moment Unit → Option (List (Turn Unit) × Moment Unit)
  | [], s => some ([], s)
  | (core, calls) :: rest, s => do
    let (turns, s) ← (accepting core).play noRegion calls s
    let (later, t) ← playAll rest s
    return (turns ++ later, t)

theorem course_of_playAll {start : Moment Unit} : ∀ {plan : List (Nat × List HookCall)} {s t : Moment Unit}
    {before turns : List (Turn Unit)}, Course start before s → playAll plan s = some (turns, t) →
      Course start (before ++ turns) t
  | [], s, t, before, turns, hbefore, h => by
    cases h
    rw [List.append_nil]
    exact hbefore
  | (core, calls) :: rest, s, t, before, turns, hbefore, h => by
    obtain ⟨⟨first, s'⟩, hfirst, h⟩ := Option.bind_eq_some_iff.mp h
    obtain ⟨⟨later, t'⟩, hlater, h⟩ := Option.bind_eq_some_iff.mp h
    cases h
    rw [← List.append_assoc]
    exact course_of_playAll (course_of_play hbefore hfirst) hlater

theorem play_interleaved : (playAll interleaved ⟨Controller.initial (), []⟩).map (fun x => (x.1.map (·.call),
    (exchanges x.2.events).all fun y => y.verdict? = some (.ok ()),
    ([1, 2] : List (Fin 4)).map fun core => (x.1.tail.filter (·.concerns core)).map (·.call))) =
    some (interleaved.flatMap (·.2), true,
      [[.on 0x100, .onFinish, .suspend coreOff, .resume coreOff], [.on 0x200, .onFinish, .off, .on 0x200, .onFinish]]) := by
  decide +kernel

/-- Each of the two cores is left as by its own hooks. -/
theorem cores_isolated_interleaved : ∃ first turns t,
    Course ⟨Controller.initial (), []⟩ (first :: turns) t ∧ first.call = .setup Layout.imageBase ∧
    (∀ e ∈ turns, ∀ v, e.call ≠ .setup v) ∧ AllAccepted t.events ∧
    t.coreState 1 = ([.on 0x100, .onFinish, .suspend coreOff, .resume coreOff] : List HookCall).foldl
      (CoreState.after 1 Layout.imageBase) (.booted 1 Layout.imageBase) ∧
    t.coreState 2 = ([.on 0x200, .onFinish, .off, .on 0x200, .onFinish] : List HookCall).foldl
      (CoreState.after 2 Layout.imageBase) (.booted 2 Layout.imageBase) := by
  obtain ⟨⟨all, t⟩, hplay, hseen⟩ := Option.map_eq_some_iff.mp play_interleaved
  obtain ⟨hturns, hseen⟩ := Prod.mk.inj hseen
  obtain ⟨haccepted, hseen⟩ := Prod.mk.inj hseen
  obtain ⟨first, turns, rfl, hsetup, hrest⟩ := List.map_eq_cons_iff.mp hturns
  obtain ⟨hown₁, hown₂⟩ : ((turns.filter (·.concerns 1)).map (·.call)) = _ ∧ _ := by simpa using hseen
  have hcourse : Course ⟨Controller.initial (), []⟩ (first :: turns) t := course_of_playAll .nil hplay
  have haccepted : AllAccepted t.events := fun x hx =>
    show x.verdict? = some (.ok ()) from of_decide_eq_true (List.all_eq_true.mp haccepted x hx)
  have hcalls : ∀ e ∈ turns, ∀ v, e.call ≠ .setup v := by
    intro e he v hv
    have hmem : e.call ∈ turns.map (·.call) := List.mem_map_of_mem he
    rw [hrest, hv] at hmem
    simp at hmem
  refine ⟨first, turns, t, hcourse, hsetup, hcalls, haccepted, ?_, ?_⟩
  · rw [(cores_isolated hcourse hsetup hcalls haccepted 1).2.1, hown₁]
  · rw [(cores_isolated hcourse hsetup hcalls haccepted 2).2.1, hown₂]

end PowerFirmware
