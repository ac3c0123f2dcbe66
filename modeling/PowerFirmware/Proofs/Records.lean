import PowerFirmware.Proofs.Hooks

/-! What the parts of the system keep by what has happened: the System Manager what it has accepted for a
CPU, and the interrupt controller which interfaces are enabled. Main statements: if everything is accepted,
a suspend and a resume of the system go to their end (`SuspendsSystem.ok`, `ResumesSystem.ok`), and then
these are the commands that have been accepted (`SuspendsSystem.accepted_eq`,
`ResumesSystem.accepted_eq`). -/

namespace PowerFirmware
open WakeupPolicy

variable {κ : Type} {L M : List (Event κ)} {a b : Scmi.Client} {cmd : Scmi.Command} {cmds : List Scmi.Command}
variable {r : Except PlatformError Unit} {x : Exchange} {cpu : UInt32} {c d : Controller κ} {core : Fin 4}

/-! ### Accepted commands -/

/-- The command of an exchange, if it was accepted. -/
def Exchange.accepted? (x : Exchange) : Option Scmi.Command :=
  x.command?.filter fun cmd => (Scmi.verdict cmd x.outcome).isOk

/-- All commands that the System Manager has accepted, the latest last. -/
def acceptedCommands (L : List (Event κ)) : List Scmi.Command := (exchanges L).filterMap Exchange.accepted?

/-- Nothing was put to the System Manager that it did not accept. -/
def AllAccepted (L : List (Event κ)) : Prop := ∀ x ∈ exchanges L, x.IsAccepted

@[simp] theorem accepted_append : acceptedCommands (L ++ M) = acceptedCommands L ++ acceptedCommands M := by
  rw [acceptedCommands, exchanges_append, List.filterMap_append]
  rfl

theorem accepted_cons {e : Event κ} (h : e.exchange? = none) : acceptedCommands (e :: L) = acceptedCommands L := by
  rw [acceptedCommands, exchanges_cons h]
  rfl

theorem accepted_eq_nil (h : ∀ e ∈ L, e.exchange? = none) : acceptedCommands L = [] := by
  rw [acceptedCommands, exchanges_eq_nil h]
  rfl

theorem allAccepted_append : AllAccepted (L ++ M) ↔ AllAccepted L ∧ AllAccepted M := by
  simp only [AllAccepted, exchanges_append, List.mem_append, or_imp, forall_and]

theorem allAccepted_cons {e : Event κ} (h : e.exchange? = none) : AllAccepted (e :: L) ↔ AllAccepted L := by
  rw [AllAccepted, exchanges_cons h]
  rfl

theorem AllAccepted.mem_accepted (h : AllAccepted L) (hx : x ∈ exchanges L) (hcmd : x.command? = some cmd) :
    cmd ∈ acceptedCommands L := by
  have hok : Scmi.verdict cmd x.outcome = .ok () := by
    have hx := h x hx
    rw [Exchange.IsAccepted, Exchange.verdict?, hcmd] at hx
    exact Option.some.inj hx
  refine List.mem_filterMap.mpr ⟨x, hx, ?_⟩
  rw [Exchange.accepted?, hcmd, Option.filter_some, hok]
  rfl

theorem Sends.accepted_eq (h : Sends a cmds L (.ok ()) b) : acceptedCommands L = cmds := by
  generalize ho : (.ok () : Except PlatformError Unit) = o at h
  induction h with
  | done => rfl
  | tooLong => cases ho
  | refused => cases ho
  | @accepted _ _ cmd cmds x L _ _ hx hok _ ih =>
    have hfirst : x.accepted? = some cmd := by
      rw [Exchange.accepted?, command?_request hx, Option.filter_some, hok]
      rfl
    show List.filterMap _ (x :: exchanges L) = _
    rw [List.filterMap_cons_some hfirst]
    exact congrArg _ (ih ho)

theorem Sends.ok (h : Sends a cmds L r b) (hfits : ∀ cmd ∈ cmds, cmd.fits = true) (hall : AllAccepted L) : r = .ok () := by
  rcases h.verdicts hfits with ⟨hr, -⟩ | ⟨M, x, e, rfl, -, hx, -⟩
  · exact hr
  · have hx' : x.IsAccepted := hall x (by simp [mem_exchanges])
    rw [Exchange.IsAccepted, hx] at hx'
    cases hx'

/-- What the System Manager has accepted for peripherals is what its commands set. -/
theorem settings_eq_accepted : settings L = (acceptedCommands L).flatMap (·.policies) := by
  rw [settings_eq_flatMap, acceptedCommands, List.filterMap_eq_flatMap_toList, List.flatMap_assoc]
  refine List.flatMap_congr fun x _ => ?_
  rw [Exchange.policies, Exchange.accepted?]
  rcases x.command? with _ | cmd
  · rfl
  · rw [Option.filter_some]
    dsimp only
    split
    · exact (List.append_nil _).symm
    · rfl

/-! ### Commands for a CPU -/

def Scmi.Command.names (cpu : UInt32) (cmd : Scmi.Command) : Bool := cmd.cpu? == some cpu

theorem cpuOf_inj {core' : Fin 4} : Layout.cpuOf core = Layout.cpuOf core' ↔ core = core' := by
  decide +revert

theorem cluster_ne_cpuOf : Layout.cluster.cpu ≠ Layout.cpuOf core := by
  decide +revert

/-- Commands that all name one core name no other. -/
theorem filter_names {core' : Fin 4} (h : ∀ cmd ∈ cmds, cmd.cpu? = some (Layout.cpuOf core)) :
    cmds.filter (·.names (Layout.cpuOf core')) = if core = core' then cmds else [] := by
  split
  · rename_i heq
    refine List.filter_eq_self.mpr fun cmd hcmd => ?_
    rw [Scmi.Command.names, h cmd hcmd, heq, beq_self_eq_true]
  · rename_i hne
    refine List.filter_eq_nil_iff.mpr fun cmd hcmd => ?_
    rw [Scmi.Command.names, h cmd hcmd, beq_iff_eq, Option.some_inj, cpuOf_inj]
    exact hne

/-! ### Records of CPUs -/

/-- What the System Manager keeps of a CPU: its reset vector, when each domain follows it, by which masks
    interrupts wake it, and how it sleeps. What has not been set is not known. -/
structure Scmi.CpuRecord where
  vector : Option (VectorFlags × UInt64) := none
  policy : UInt32 → Option DomainPolicy := fun _ => none
  mask : Nat → Option UInt32 := fun _ => none
  sleep : Option (WakeupFlags × SleepMode) := none

namespace Scmi.CpuRecord
variable {s : CpuRecord} {xs ys : List Command}

/-- The record after a command for its CPU. A table and a row of masks replace what they name. -/
def after (s : CpuRecord) : Command → CpuRecord
  | .resetVectorSet _ flags vector => { s with vector := some (flags, vector) }
  | .domainPolicySet _ table =>
    { s with policy := fun domain => (table.reverse.find? (·.domain == domain)).or (s.policy domain) }
  | .irqWakeSet _ index masks =>
    { s with mask := fun bank => if bank < index.toNat then s.mask bank else masks[bank - index.toNat]?.or (s.mask bank) }
  | .sleepModeSet _ flags mode => { s with sleep := some (flags, mode) }
  | _ => s

/-- The record of the CPU after commands, of which those count that name it. -/
def follow (cpu : UInt32) (s : CpuRecord) (cmds : List Command) : CpuRecord :=
  (cmds.filter (·.names cpu)).foldl after s

theorem follow_append : follow cpu s (xs ++ ys) = follow cpu (follow cpu s xs) ys := by
  rw [follow, List.filter_append, List.foldl_append]
  rfl

theorem follow_eq (h : xs.filter (·.names cpu) = ys) : follow cpu s xs = ys.foldl after s := by
  rw [follow, h]

/-- The last masks that a CPU is given stand. -/
theorem mask_allMasked (cpu : UInt32) {bank : Nat} (h : bank < wakeBanks) :
    (s.after (.irqWakeSet cpu 0 allMasked)).mask bank = some 0xffffffff := by
  simp [after, allMasked, h]

end Scmi.CpuRecord

/-- The record of a CPU by all commands that were accepted. -/
def cpuRecord (cpu : UInt32) (L : List (Event κ)) : Scmi.CpuRecord := .follow cpu {} (acceptedCommands L)

theorem cpuRecord_append : cpuRecord cpu (L ++ M) = (cpuRecord cpu L).follow cpu (acceptedCommands M) := by
  rw [cpuRecord, accepted_append, Scmi.CpuRecord.follow_append]
  rfl

/-! ### Interfaces of cores -/

/-- Which interface is switched, and whether it is enabled then. -/
def Event.switch? : Event κ → Option (Nat × Bool)
  | enableInterface core => some (core, true)
  | disableInterface core => some (core, false)
  | _ => none

def switches (L : List (Event κ)) : List (Nat × Bool) := L.filterMap Event.switch?

/-- Whether the interface of a core is enabled, if it has been switched. -/
def interfaceState (core : Nat) (L : List (Event κ)) : Option Bool :=
  ((switches L).reverse.find? (·.1 == core)).map (·.2)

@[simp] theorem switches_append : switches (L ++ M) = switches L ++ switches M := List.filterMap_append

theorem switches_cons {e : Event κ} (h : e.switch? = none) : switches (e :: L) = switches L :=
  List.filterMap_cons_none h

theorem switches_eq_nil (h : ∀ e ∈ L, e.isAccess = true) : switches L = [] := by
  refine List.filterMap_eq_nil_iff.mpr fun e he => ?_
  have hacc := h e he
  cases e <;> first | rfl | cases hacc

theorem Sends.switches (h : Sends a cmds L r b) : switches L = [] := by
  refine List.filterMap_eq_nil_iff.mpr fun e he => ?_
  obtain ⟨x, rfl⟩ := h.managers e he
  rfl

theorem interfaceState_append {core : Nat} :
    interfaceState core (L ++ M) = (interfaceState core M).or (interfaceState core L) := by
  rw [interfaceState, switches_append, List.reverse_append, List.find?_append, Option.map_or]
  rfl

/-! ### Suspends and resumes that are accepted -/

namespace Platform

section Wakeup
variable {masks : List UInt32} {flags : Scmi.WakeupFlags} {mode : Scmi.SleepMode} {entering : Bool}

theorem fits_handshake {p : WakeupPolicy} (h : p.cleared = table) :
    (Scmi.Command.peripheralPolicySet Layout.cluster.cpu (p.handshake entering).1).fits = true :=
  decide_eq_true (Nat.le_trans (length_handshake_le h) (by decide))

theorem fits_irqWakeSet {cpu : UInt32} (h : masks.length = wakeBanks) :
    (Scmi.Command.irqWakeSet cpu 0 masks).fits = true := decide_eq_true (h ▸ by decide)

/-- No table of what sets wakeup is too long. -/
theorem fits_setWakeup {p : WakeupPolicy} (hmasks : masks.length = wakeBanks) (h : p.cleared = table) :
    ∀ cmd ∈ armCommands core masks flags mode ++
      [.peripheralPolicySet Layout.cluster.cpu (p.handshake entering).1], cmd.fits = true := by
  intro cmd hcmd
  simp only [armCommands, List.cons_append, List.nil_append, List.mem_cons, List.not_mem_nil, or_false] at hcmd
  rcases hcmd with rfl | rfl | rfl | rfl
  · exact fits_irqWakeSet hmasks
  · rfl
  · rfl
  · exact fits_handshake h

theorem SetsWakeup.ok (h : SetsWakeup core masks flags mode entering c r d L) (hmasks : masks.length = wakeBanks)
    (htable : c.wakeup.cleared = table) (hall : AllAccepted L) : r = .ok () :=
  h.sends.ok (fits_setWakeup hmasks htable) hall

theorem HandsOver.ok (h : HandsOver core c r d L) (htable : c.wakeup.cleared = table) (hall : AllAccepted L) :
    r = .ok () := by
  cases h with
  | unmasked h =>
    refine h.ok (fun cmd hcmd => ?_) hall
    rw [List.mem_singleton.mp hcmd]
    rfl
  | masked _ hlength h =>
    rw [allAccepted_append, allAccepted_append] at hall
    exact h.ok hlength (cleared_mark.trans htable) hall.2.2

theorem SetsWakeup.switches (h : SetsWakeup core masks flags mode entering c r d L) : switches L = [] := h.sends.switches

theorem HandsOver.switches (h : HandsOver core c r d L) : switches L = [] := by
  cases h with
  | unmasked h => exact h.switches
  | masked h _ h' => rw [switches_append, switches_append, h.switches, switches_eq_nil maskReads_access, h'.switches]; rfl

end Wakeup

/-- What has been accepted once the system is suspended, by the masks of the enabled lines, the
    peripherals that are held and whether the wakeup domain stays on. -/
def sleepCommands (core : Fin 4) (masks is : List UInt32) (keep : Bool) : List Scmi.Command :=
  .irqWakeSet (Layout.cpuOf core) 0 allMasked :: (armCommands core masks .gpc .suspend ++
    [.peripheralPolicySet Layout.cluster.cpu (is.map fun i => ⟨i, .onRunWaitStop⟩),
      .domainPolicySet Layout.cluster.cpu (suspendPolicy keep)])

/-- What has been accepted once the system is resumed, by the peripherals that are put back. -/
def wakeCommands (core : Fin 4) (is : List UInt32) : List Scmi.Command :=
  armCommands core allMasked .gic .wait ++
    [.peripheralPolicySet Layout.cluster.cpu (is.map fun i => ⟨i, .onAlways⟩),
      .domainPolicySet Layout.cluster.cpu runModePolicy]

section Names
variable {core' : Fin 4} {masks is : List UInt32} {keep : Bool}

/-- Which of the commands of a suspend are about its core. -/
def coreSleepCommands (core : Fin 4) : List Scmi.Command :=
  [.irqWakeSet (Layout.cpuOf core) 0 allMasked,
    .sleepModeSet (Layout.cpuOf core) (Scmi.WakeupFlags.gpc.union Scmi.WakeupFlags.resumeCpu) .suspend]

/-- Which of the commands of a resume are about its core. -/
def coreWakeCommands (core : Fin 4) : List Scmi.Command :=
  [.sleepModeSet (Layout.cpuOf core) (Scmi.WakeupFlags.gic.union Scmi.WakeupFlags.resumeCpu) .wait]

/-- Which of the commands of a resume are about the cluster. -/
def clusterWakeCommands (is : List UInt32) : List Scmi.Command :=
  [.irqWakeSet Layout.cluster.cpu 0 allMasked, .sleepModeSet Layout.cluster.cpu .gic .wait,
    .peripheralPolicySet Layout.cluster.cpu (is.map fun i => ⟨i, .onAlways⟩),
    .domainPolicySet Layout.cluster.cpu runModePolicy]

theorem filter_sleepCommands : (sleepCommands core masks is keep).filter (·.names (Layout.cpuOf core')) =
    if core = core' then coreSleepCommands core else [] := by
  have hcluster : (Layout.cluster.cpu == Layout.cpuOf core') = false := beq_false_of_ne cluster_ne_cpuOf
  by_cases heq : core = core'
  · subst heq
    simp [sleepCommands, armCommands, coreSleepCommands, Scmi.Command.names, Scmi.Command.cpu?, hcluster]
  · have hcore : (Layout.cpuOf core == Layout.cpuOf core') = false := beq_false_of_ne (mt cpuOf_inj.mp heq)
    simp [sleepCommands, armCommands, Scmi.Command.names, Scmi.Command.cpu?, hcluster, hcore, heq]

theorem filter_wakeCommands : (wakeCommands core is).filter (·.names (Layout.cpuOf core')) =
    if core = core' then coreWakeCommands core else [] := by
  have hcluster : (Layout.cluster.cpu == Layout.cpuOf core') = false := beq_false_of_ne cluster_ne_cpuOf
  by_cases heq : core = core'
  · subst heq
    simp [wakeCommands, armCommands, coreWakeCommands, Scmi.Command.names, Scmi.Command.cpu?, hcluster]
  · have hcore : (Layout.cpuOf core == Layout.cpuOf core') = false := beq_false_of_ne (mt cpuOf_inj.mp heq)
    simp [wakeCommands, armCommands, Scmi.Command.names, Scmi.Command.cpu?, hcluster, hcore, heq]

theorem filter_wakeCommands_cluster :
    (wakeCommands core is).filter (·.names Layout.cluster.cpu) = clusterWakeCommands is := by
  have hcore : (Layout.cpuOf core == Layout.cluster.cpu) = false := beq_false_of_ne cluster_ne_cpuOf.symm
  simp [wakeCommands, armCommands, clusterWakeCommands, Scmi.Command.names, Scmi.Command.cpu?, hcore]

end Names

theorem SuspendsSystem.ok (h : SuspendsSystem core c r d L) (htable : c.wakeup.cleared = table)
    (hall : AllAccepted L) : r = .ok () := by
  cases h with
  | held h =>
    rw [allAccepted_cons rfl] at hall
    exact h.ok htable hall
  | saved _ _ hpolicy =>
    rw [allAccepted_cons rfl, allAccepted_append, allAccepted_append] at hall
    refine hpolicy.ok (fun cmd hcmd => ?_) hall.2.2
    rw [List.mem_singleton.mp hcmd]
    rfl

theorem SuspendsSystem.accepted_eq (h : SuspendsSystem core c (.ok ()) d L) :
    ∃ masks keep, acceptedCommands L = sleepCommands core masks d.wakeup.activeInterfaces keep := by
  cases h with
  | @saved _ _ b s _ _ _ hover _ hpolicy =>
    generalize (s.pinWakeup || b.wakeup.hasWakeupIrq) = keep at hpolicy
    rw [accepted_cons rfl, accepted_append, accepted_append, accepted_eq_nil saveEvents_exchange?, hpolicy.accepted_eq]
    cases hover with
    | @masked _ _ _ masks _ _ hmask _ harm =>
      rw [accepted_append, accepted_append, hmask.accepted_eq, accepted_eq_nil maskReads_exchange?,
        harm.sends.accepted_eq]
      cases harm with
      | armed =>
        refine ⟨masks, keep, ?_⟩
        show _ :: (armCommands core masks .gpc .suspend ++ [.peripheralPolicySet _ (WakeupPolicy.enter _).1] ++ [_]) = _
        rw [enter_fst, List.append_assoc]
        rfl

theorem SuspendsSystem.switches (h : SuspendsSystem core c r d L) : switches L = [] := by
  cases h with
  | held h => rw [switches_cons rfl, h.switches]
  | saved h _ h' =>
    rw [switches_cons rfl, switches_append, switches_append, h.switches, switches_eq_nil saveEvents_access, h'.switches]
    rfl

theorem ResumesSystem.ok {os : List (Except PlatformError Unit)} (h : ResumesSystem core c os d L)
    (htable : c.wakeup.cleared = table) (hall : AllAccepted L) : ∃ o₂ o₃, os = [.ok (), o₂, o₃, .ok ()] := by
  cases h with
  | steps hback _ _ hpolicy =>
    rw [allAccepted_cons rfl, allAccepted_append, allAccepted_cons rfl, allAccepted_append, allAccepted_append,
      allAccepted_append] at hall
    obtain ⟨hback', -, -, -, hpolicy'⟩ := hall
    obtain rfl := hback.ok rfl htable hback'
    obtain rfl := hpolicy.ok (fun cmd hcmd => by rw [List.mem_singleton.mp hcmd]; rfl) hpolicy'
    exact ⟨_, _, rfl⟩

theorem ResumesSystem.accepted_eq {o₂ o₃ : Except PlatformError Unit}
    (h : ResumesSystem core c [.ok (), o₂, o₃, .ok ()] d L) :
    acceptedCommands L = wakeCommands core c.wakeup.activeInterfaces ∧ d.wakeup.activeInterfaces = [] := by
  cases h with
  | steps hback _ hdogs hpolicy =>
    constructor
    · rw [accepted_cons rfl, accepted_append, accepted_cons rfl, accepted_append, accepted_append, accepted_append,
        accepted_eq_nil writes_exchange?, accepted_eq_nil writes_exchange?,
        accepted_eq_nil (restoresWatchdogs_exchange? hdogs), hback.sends.accepted_eq, hpolicy.accepted_eq]
      show armCommands core allMasked .gic .wait ++ [.peripheralPolicySet _ (WakeupPolicy.leave _).1] ++ [_] = _
      rw [leave_fst, List.append_assoc]
      rfl
    · cases hback with
      | armed => exact activeInterfaces_leave

theorem ResumesSystem.switches {os : List (Except PlatformError Unit)} (h : ResumesSystem core c os d L) :
    switches L = [] := by
  cases h with
  | steps hback _ hdogs hpolicy =>
    rw [switches_cons rfl, switches_append, switches_cons rfl, switches_append, switches_append, switches_append,
      switches_eq_nil writes_access, switches_eq_nil writes_access, switches_eq_nil (restoresWatchdogs_access hdogs),
      hback.switches, hpolicy.switches]
    rfl

theorem Suspends.accepted_eq {target : PowerState} (h : Suspends core target c (.ok ()) d L)
    (hoff : target.system.isOff = true) : ∃ masks keep, acceptedCommands L =
      leaveCommands core target c.entry ++ sleepCommands core masks d.wakeup.activeInterfaces keep := by
  cases h with
  | leaves h hsystem =>
    rw [if_pos hoff] at hsystem
    obtain ⟨masks, keep, hcommands⟩ := hsystem.accepted_eq
    refine ⟨masks, keep, ?_⟩
    rw [accepted_append, accepted_append, h.accepted_eq, accepted_eq_nil leaveEvents_exchange?, hcommands]
    rfl

theorem Resumes.accepted_eq {target : PowerState} (h : Resumes core target c (.ok ()) d L)
    (hoff : target.system.isOff = true) :
    acceptedCommands L = wakeCommands core c.wakeup.activeInterfaces ∧ d.wakeup.activeInterfaces = [] := by
  generalize hr : (.ok () : Except PlatformError Unit) = r at h
  cases h with
  | core hon => rw [hoff] at hon; cases hon
  | @system os _ L _ h =>
    have hok : ∀ o ∈ os, o = .ok () := firstFailure_eq_ok.mp hr.symm
    have hlast : acceptedCommands (κ := κ) (if target.core.isOff then [.enableInterface core] else []) = [] := by
      split <;> rfl
    rw [accepted_append, hlast, List.append_nil]
    cases h with
    | steps hback hrelease hdogs hpolicy =>
      obtain rfl := hok _ List.mem_cons_self
      obtain rfl := hok _ (List.mem_cons_of_mem _ (List.mem_cons_of_mem _ (List.mem_cons_of_mem _ List.mem_cons_self)))
      exact (ResumesSystem.steps hback hrelease hdogs hpolicy).accepted_eq

end Platform
end PowerFirmware
