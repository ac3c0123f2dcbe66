import PowerFirmware.Proofs.Records
import PowerFirmware.Proofs.Suspend.Held

/-! A suspend of the system and the resume that follows it. Main statement: if both succeed, the System
Manager is back at the policy of running, and exactly the peripherals that the suspend had held are put
back, each once and in the same order (`suspend_resume_restores`). -/

namespace PowerFirmware
open WakeupPolicy Platform

variable {κ : Type} {core : Fin 4} {target : PowerState} {s : Scmi.CpuRecord} {is masks : List UInt32} {keep : Bool}
variable {e f : Turn κ} {between : List (Event κ)} {p : WakeupPolicy}

/-! ### Peripherals -/

theorem settings_sleep {L : List (Event κ)} {entry : UInt64}
    (h : acceptedCommands L = leaveCommands core target entry ++ sleepCommands core masks is keep) :
    settings L = is.map fun i => ⟨i, .onRunWaitStop⟩ := by
  have hleave : (leaveCommands core target entry).flatMap (·.policies) = [] := by
    rw [leaveCommands]
    split <;> rfl
  rw [settings_eq_accepted, h, List.flatMap_append, hleave]
  show (is.map fun i => _) ++ [] = _
  rw [List.append_nil]

theorem settings_wake {L : List (Event κ)} (h : acceptedCommands L = wakeCommands core is) :
    settings L = is.map fun i => ⟨i, .onAlways⟩ := by
  rw [settings_eq_accepted, h]
  show (is.map fun i => _) ++ [] = _
  rw [List.append_nil]

/-- No interface stands twice in the table. -/
theorem nodup_activeInterfaces (h : p.cleared = table) : p.activeInterfaces.Nodup := by
  have hall : (p.peripherals.map (·.interface)).Nodup := by
    have hinterfaces : p.peripherals.map (·.interface) = p.cleared.map (·.interface) := by
      rw [cleared, List.map_map]
      rfl
    rw [hinterfaces, h]
    decide
  exact hall.sublist (List.filter_sublist.map _)

theorem not_active (h : p.activeInterfaces = []) : ∀ q ∈ p.peripherals, q.active = false := by
  intro q hq
  rw [activeInterfaces, List.map_eq_nil_iff, List.filter_eq_nil_iff] at h
  exact Bool.eq_false_iff.mpr (h q hq)

/-! ### The cycle -/

/-- The policy of running, as a resume leaves it: the cluster is on in run and keeps its cache, the
    network and the wakeup domain are always on, the cluster and the core sleep by waiting and wake through the
    interrupt controller, and by no masks. -/
structure RunsAgain (core : Fin 4) (L : List (Event κ)) : Prop where
  clusterPolicy : (cpuRecord Layout.cluster.cpu L).policy Layout.cluster.domain =
    some ⟨Layout.cluster.domain, .onRun, Layout.retentionBit Layout.clusterCache⟩
  networkPolicy : (cpuRecord Layout.cluster.cpu L).policy Layout.nocDomain = some ⟨Layout.nocDomain, .onAlways, 0⟩
  wakeupPolicy : (cpuRecord Layout.cluster.cpu L).policy Layout.wakeupDomain = some ⟨Layout.wakeupDomain, .onAlways, 0⟩
  cluster : (cpuRecord Layout.cluster.cpu L).sleep = some (.gic, .wait)
  caller : (cpuRecord (Layout.cpuOf core) L).sleep = some (Scmi.WakeupFlags.gic.union Scmi.WakeupFlags.resumeCpu, .wait)
  masks : ∀ bank < wakeBanks, (cpuRecord Layout.cluster.cpu L).mask bank = some 0xffffffff
  callerMasks : ∀ bank < wakeBanks, (cpuRecord (Layout.cpuOf core) L).mask bank = some 0xffffffff

/-- What matters for a CPU is what a suspend and then a resume had accepted last. -/
theorem runsAgain_of_accepted {L : List (Event κ)} {cmds : List Scmi.Command} {held back : List UInt32}
    (h : acceptedCommands L = cmds ++ sleepCommands core masks held keep ++ wakeCommands core back) :
    RunsAgain core L := by
  have hcluster : cpuRecord Layout.cluster.cpu L = (clusterWakeCommands back).foldl Scmi.CpuRecord.after
      (.follow Layout.cluster.cpu {} (cmds ++ sleepCommands core masks held keep)) := by
    rw [cpuRecord, h, Scmi.CpuRecord.follow_append, Scmi.CpuRecord.follow, filter_wakeCommands_cluster]
  have hcore : cpuRecord (Layout.cpuOf core) L = (coreWakeCommands core).foldl Scmi.CpuRecord.after
      ((coreSleepCommands core).foldl Scmi.CpuRecord.after (.follow (Layout.cpuOf core) {} cmds)) := by
    rw [cpuRecord, h, Scmi.CpuRecord.follow_append, Scmi.CpuRecord.follow_append,
      Scmi.CpuRecord.follow_eq filter_wakeCommands, Scmi.CpuRecord.follow_eq filter_sleepCommands, if_pos rfl, if_pos rfl]
  -- The policy of running is the last that was set, and it names each of the three domains once.
  have hpolicy : ∀ domain p, runModePolicy.reverse.find? (·.domain == domain) = some p →
      (cpuRecord Layout.cluster.cpu L).policy domain = some p := by
    intro domain p hlast
    rw [hcluster]
    show (runModePolicy.reverse.find? (·.domain == domain)).or _ = _
    rw [hlast]
    rfl
  constructor
  · exact hpolicy _ _ (by decide)
  · exact hpolicy _ _ (by decide)
  · exact hpolicy _ _ (by decide)
  · rw [hcluster]
    rfl
  · rw [hcore]
    rfl
  · rw [hcluster]
    exact fun bank hbank => Scmi.CpuRecord.mask_allMasked Layout.cluster.cpu hbank
  · rw [hcore]
    exact fun bank hbank => Scmi.CpuRecord.mask_allMasked (Layout.cpuOf core) hbank

/-- A suspend of the system that succeeds is undone by a resume that succeeds: by what the System Manager
    accepted last it is at the policy of running, and the peripherals set to always on are those that the
    suspend had held, each once and in the same order. In between nothing is asked of it, and the resume
    may find the registers and the interrupt controller in any state. -/
theorem suspend_resume_restores (he : e.Happens) (hf : f.Happens) (hcontroller : f.before.controller = e.after.controller)
    (hevents : f.before.events = e.after.events ++ between) (hbetween : ∀ x ∈ between, x.exchange? = none)
    (hcore : e.core = core.val) (hcore' : f.core = core.val) (hsuspend : e.call = .suspend target)
    (hresume : f.call = .resume target) (hoff : target.system.isOff = true) (hok : e.outcome = .ok ())
    (hok' : f.outcome = .ok ()) (htable : e.before.controller.wakeup.cleared = table) :
    RunsAgain core f.after.events ∧
      (∃ is : List UInt32, is.Nodup ∧ settings e.events = (is.map fun i => ⟨i, .onRunWaitStop⟩) ∧
        settings f.events = is.map fun i => ⟨i, .onAlways⟩) ∧
      ∀ q ∈ f.after.controller.wakeup.peripherals, q.active = false := by
  obtain ⟨L, hL, hsuspends⟩ := he.suspending hcore hsuspend hoff
  obtain ⟨M, hM, hresumes⟩ := hf.resuming hcore' hresume hoff
  have htable' := hsuspends.cleared.trans htable
  rw [hok] at hsuspends
  rw [hok', hcontroller] at hresumes
  obtain ⟨masks, keep, hsleep⟩ := hsuspends.accepted_eq hoff
  obtain ⟨hwake, hnone⟩ := hresumes.accepted_eq hoff
  have heL : e.events = L := by rw [Turn.events, hL, List.drop_left]
  have hfM : f.events = M := by rw [Turn.events, hM, List.drop_left]
  have haccepted : acceptedCommands f.after.events =
      (acceptedCommands e.before.events ++ leaveCommands core target e.before.controller.entry) ++
        sleepCommands core masks e.after.controller.wakeup.activeInterfaces keep ++
        wakeCommands core e.after.controller.wakeup.activeInterfaces := by
    rw [hM, hevents, hL, accepted_append, accepted_append, accepted_append, accepted_eq_nil hbetween, hsleep, hwake,
      List.append_nil]
    simp only [List.append_assoc]
  exact ⟨runsAgain_of_accepted haccepted,
    ⟨_, nodup_activeInterfaces htable', heL ▸ settings_sleep hsleep, hfM ▸ settings_wake hwake⟩, not_active hnone⟩

/-- All lines are enabled at the suspend and none at the resume. -/
theorem play_restores : (((lined 0x3ff 0xffffffff).play Platform.noRegion [.suspend .allOff]
    ⟨Controller.initial (), []⟩).bind fun x =>
      ((lined 0x3ff 0).play Platform.noRegion [.resume .allOff] x.2).map fun y => (x.1 ++ y.1).map fun e =>
        (e.core, e.call, e.outcome)) =
    some [(1, .suspend .allOff, .ok ()), (1, .resume .allOff, .ok ())] := by decide +kernel

theorem suspend_resume_restores_relined : ∃ e f : Turn Unit, e.Happens ∧ f.Happens ∧ f.before = e.after ∧
    e.before = ⟨Controller.initial (), []⟩ ∧ (e.call, e.outcome) = (.suspend .allOff, .ok ()) ∧
    (f.call, f.outcome) = (.resume .allOff, .ok ()) ∧ RunsAgain 1 f.after.events ∧
    (∃ is : List UInt32, is.Nodup ∧ settings e.events = (is.map fun i => ⟨i, .onRunWaitStop⟩) ∧
      settings f.events = is.map fun i => ⟨i, .onAlways⟩) ∧
    ∀ q ∈ f.after.controller.wakeup.peripherals, q.active = false := by
  obtain ⟨⟨first, s⟩, hfirst, hx⟩ := Option.bind_eq_some_iff.mp play_restores
  obtain ⟨⟨second, t⟩, hsecond, hseen⟩ := Option.map_eq_some_iff.mp hx
  have hcourse := course_of_play (course_of_play .nil hfirst) hsecond
  rw [List.nil_append] at hcourse
  dsimp only at hseen
  generalize first ++ second = turns at hcourse hseen
  obtain ⟨e, turns, rfl, h₁, hseen⟩ := List.map_eq_cons_iff.mp hseen
  obtain ⟨f, turns, rfl, h₂, hseen⟩ := List.map_eq_cons_iff.mp hseen
  obtain rfl := List.map_eq_nil_iff.mp hseen
  simp only [Prod.mk.injEq] at h₁ h₂
  obtain ⟨hcore, hcall, hok⟩ := h₁
  obtain ⟨hcore', hcall', hok'⟩ := h₂
  have hone : e.core = (1 : Fin 4).val := hcore
  have hnothing : ∀ x ∈ ([] : List (Event Unit)), x.exchange? = none := fun _ h => absurd h List.not_mem_nil
  obtain ⟨hstart, he, hrest⟩ := hcourse.head
  obtain ⟨hafter, hf, -⟩ := hrest.head
  obtain ⟨hruns, hheld, hactive⟩ := suspend_resume_restores he hf (by rw [hafter]) (by rw [hafter, List.append_nil])
    hnothing hone hcore' hcall hcall' rfl hok hok' (by rw [hstart]; rfl)
  exact ⟨e, f, he, hf, hafter, hstart, by rw [hcall, hok], by rw [hcall', hok'], hruns, hheld, hactive⟩

end PowerFirmware
