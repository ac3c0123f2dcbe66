import PowerFirmware.Proofs.Answers
import PowerFirmware.Proofs.Hooks
import PowerFirmware.Proofs.Suspend.Contents
import PowerFirmware.Proofs.Wakeup

/-! What a suspend of the system asks for while everything is accepted. Main statement: after whatever
happened, if only each suspend of the system was followed by its resume, the requests are given by the
lines enabled and the registers as they are now (`domainSuspend_policy`). -/

namespace PowerFirmware
open Run Cells Contents WakeupPolicy

variable {κ : Type} {env : Environment κ} {masksOf : κ → Nat → UInt32} {m : Contents} {L M past : List (Event κ)}

/-! ### Answers -/

section Answering
variable {region : DmaRegion (History env)} {core : Fin 4} {target : PowerState} {masks : List UInt32}

theorem concludes_saveContext {set : ContextSet} : Concludes ((env.platform region).saveContext set) :=
  .bind .get fun _ => .bind (.run (answers_save fun _ => .access)) fun _ => .modify

theorem concludes_setWakeup {flags : Scmi.WakeupFlags} {mode : Scmi.SleepMode} {entering : Bool} :
    Concludes ((env.platform region).setWakeup core masks flags mode entering) :=
  .bind .modify fun _ => .bind concludes_send fun _ => .bind concludes_send fun _ => .bind concludes_send fun _ =>
    .bind .get fun _ => .bind .modify fun _ => .bind concludes_send fun _ => .run .update

theorem concludes_suspendSystem : Concludes ((env.platform region).suspendSystem core) :=
  .bind (.bind concludes_saveContext fun _ => .bind concludes_send fun _ => .bind .get fun _ =>
      .bind (.run (.bind (.mapM (fun _ => .bind .access fun _ => .pure) _) fun _ => .pure)) fun _ =>
      .bind .modify fun _ => concludes_setWakeup) fun _ =>
    .bind concludes_saveContext fun _ => .bind .get fun _ => .bind concludes_send fun _ => .run .update

theorem concludes_domainSuspend : Concludes ((env.platform region).domainSuspend target) := by
  refine .bind (.bind (.run .view) fun core => ?_) fun core => ?_
  · split
    · exact .pure
    · exact .throw
  · have hsystem : Concludes (if target.system.isOff then (env.platform region).suspendSystem core else pure ()) :=
      .ite concludes_suspendSystem .pure
    have hpower : ∀ word, Answers (Run.update ((env.platform region).cpu.powerDownCluster word)) := fun _ => .update
    have hcluster := Concludes.ite (b := (!target.cluster.isRun) = true)
      (.bind (.run (hpower (if target.cluster.isRetention then Platform.clusterRetention else Platform.clusterOff)))
        fun _ => hsystem) hsystem
    exact .ite (.bind (.bind .get fun _ => concludes_send) fun _ => .bind (.run .update) fun _ => hcluster) hcluster

end Answering

/-! ### Requests -/

namespace Platform

variable {c d : Controller κ} {core : Fin 4} {target : PowerState} {r : Except PlatformError Unit} {E : Nat → UInt32}

/-- What handing wakeup over asks for, by the lines enabled. -/
def handOverCommands (core : Fin 4) (E : Nat → UInt32) : List Scmi.Command :=
  [.irqWakeSet (Layout.cpuOf core) 0 (List.replicate wakeBanks 0xffffffff),
    .irqWakeSet Layout.cluster.cpu 0 ((List.range wakeBanks).map fun bank => ~~~E (bank + 1)),
    .sleepModeSet (Layout.cpuOf core) .resumeCpu .suspend, .sleepModeSet Layout.cluster.cpu .gpc .suspend,
    .peripheralPolicySet Layout.cluster.cpu ((heldInterfaces E).map fun i => ⟨i, .onRunWaitStop⟩)]

/-- What a suspend of the system asks for, by the lines enabled and by the policy that it sets in the end. -/
def suspendCommands (core : Fin 4) (target : PowerState) (entry : UInt64) (E : Nat → UInt32)
    (policy : List Scmi.DomainPolicy) : List Scmi.Command :=
  (if target.core.isOff then [.resetVectorSet (Layout.cpuOf core) .resume entry] else []) ++
    (handOverCommands core E ++ [.domainPolicySet Layout.cluster.cpu policy])

/-- A pin has its interrupt enabled, or a line of the wakeup domain is enabled. -/
def NeedsWakeup (m : Contents) : Prop :=
  (∃ bank ∈ Layout.gpioBanks, ∃ pin < bank.pins, m.registers (GpioImage.pinAddress bank pin) ≠ 0) ∨
    ∃ bank < wakeBanks, m.masks (bank + 1) &&& domainLines.getD bank 0 ≠ 0

theorem masks_of_reads : ∀ {is : List Nat} {ws : List UInt32}, ws.length = is.length →
    m.Consistent masksOf (List.zipWith (fun bank mask => [.enableMask (bank + 1) (~~~mask)]) is ws).flatten →
    ws = is.map fun bank => ~~~m.masks (bank + 1)
  | [], [], _, _ => rfl
  | [], _ :: _, hlength, _ => absurd hlength (by simp)
  | _ :: _, [], hlength, _ => absurd hlength (by simp)
  | i :: is, w :: ws, hlength, h => by
    obtain ⟨hw, hws⟩ := h
    change m.masks (i + 1) = ~~~w at hw
    rw [List.map_cons, hw, UInt32.not_not, ← masks_of_reads (Nat.succ.inj hlength) hws]

theorem handOver_sendable (core : Fin 4) (E : Nat → UInt32) :
    ∀ cmd ∈ handOverCommands core E, cmd.fits = true ∧ cmd.replyWords = 0 := by
  have hheld : (heldInterfaces E).length ≤ table.length := by
    rw [heldInterfaces, List.length_map]
    exact List.length_filter_le _ _
  intro cmd hcmd
  simp only [handOverCommands, List.mem_cons, List.not_mem_nil, or_false] at hcmd
  rcases hcmd with rfl | rfl | rfl | rfl | rfl
  · exact ⟨rfl, rfl⟩
  · exact ⟨rfl, rfl⟩
  · exact ⟨rfl, rfl⟩
  · exact ⟨rfl, rfl⟩
  · refine ⟨decide_eq_true ?_, rfl⟩
    rw [List.length_map]
    exact Nat.le_trans hheld (by decide)

theorem HandsOver.accepted (h : HandsOver core c r d L) (haccepts : env.AcceptsAll) (allowed : env.Allows past L)
    (hc : m.Consistent masksOf L) (htable : c.wakeup.cleared = table) : r = .ok () ∧
      commands L = (handOverCommands core m.masks).map some ∧
      d.wakeup.hasWakeupIrq = leavesWakeup (masksFor m.masks) := by
  cases h with
  | unmasked h =>
    have hr := h.accepted_all haccepts allowed fun cmd hcmd =>
      handOver_sendable core m.masks cmd (List.mem_singleton.mp hcmd ▸ List.mem_cons_self)
    cases hr
  | @masked r a d masks L M hall hlength harm =>
    rw [Environment.allows_append, Environment.allows_append] at allowed
    rw [consistent_append, hall.quiet.replay, consistent_append] at hc
    obtain rfl : masks = masksFor m.masks := masks_of_reads (hlength.trans List.length_range.symm) hc.2.1
    have hsends := harm.sends
    rw [enter_mark htable] at hsends
    obtain rfl := hsends.accepted_all haccepts allowed.2.2 fun cmd hcmd =>
      handOver_sendable core m.masks cmd (List.mem_cons_of_mem _ hcmd)
    refine ⟨rfl, ?_, harm.hasWakeupIrq⟩
    rw [commands_append, commands_append, hall.commands_eq, commands_eq_nil maskReads_exchange?, hsends.commands_eq]
    rfl

theorem SuspendsSystem.accepted (h : SuspendsSystem core c r d L) (haccepts : env.AcceptsAll)
    (allowed : env.Allows past L) (hc : m.Consistent masksOf L) (htable : c.wakeup.cleared = table)
    (hpins : c.snapshot.pinWakeup = false) : r = .ok () ∧ ∃ keep x M, (keep = true ↔ NeedsWakeup m) ∧
      commands L = (handOverCommands core m.masks ++
        [Scmi.Command.domainPolicySet Layout.cluster.cpu (suspendPolicy keep)]).map some ∧
      L = .saveGic d.snapshot.interrupts :: (M ++ (d.snapshot.saveEvents .peripherals ++ [.manager x])) := by
  cases h with
  | @held k e d L h => cases (h.accepted haccepts allowed.2 hc.2 htable).1
  | @saved k r b s a L M h hs hsends =>
    obtain ⟨-, hc⟩ := hc
    change m.Consistent masksOf (L ++ (s.saveEvents .peripherals ++ M)) at hc
    have allowed := allowed.2
    rw [Environment.allows_append, Environment.allows_append] at allowed
    rw [consistent_append, h.quiet.replay, consistent_append] at hc
    obtain ⟨hhand, hsave, -⟩ := hc
    obtain ⟨-, hcommands, hirq⟩ := h.accepted haccepts allowed.1 hhand htable
    obtain rfl := hsends.accepted_all haccepts allowed.2.2 fun cmd hcmd => by
      rw [List.mem_singleton.mp hcmd]
      exact ⟨rfl, rfl⟩
    obtain ⟨-, hstand, -⟩ := Snapshot.stand_of_saveGroups hs.full hsave
    have hkeep : (s.pinWakeup || b.wakeup.hasWakeupIrq) = true ↔ NeedsWakeup m := by
      have hpin : s.pinWakeup = s.pins.any GpioImage.canWake := by
        rw [hs.pinWakeup, h.snapshot]
        show (c.snapshot.pinWakeup || _) = _
        rw [hpins]
        rfl
      rw [Bool.or_eq_true, hpin, Snapshot.any_canWake_iff (hs.banks rfl) (hs.full rfl) (hstand rfl), hirq,
        leavesWakeup_masksFor]
      rfl
    have hk : k = s.interrupts := by
      rw [hs.interrupts rfl, h.snapshot]
    obtain ⟨x, rfl, -, -⟩ := hsends.one rfl
    refine ⟨rfl, _, x, L, hkeep, ?_, by rw [hk]⟩
    show commands (L ++ (s.saveEvents .peripherals ++ [.manager x])) = _
    rw [commands_append, commands_append, hcommands, commands_eq_nil saveEvents_exchange?, hsends.commands_eq,
      List.map_append]
    rfl

theorem leave_sendable (entry : UInt64) :
    ∀ cmd ∈ leaveCommands core target entry, cmd.fits = true ∧ cmd.replyWords = 0 := by
  intro cmd hcmd
  unfold leaveCommands at hcmd
  split at hcmd
  · rw [List.mem_singleton.mp hcmd]
    exact ⟨rfl, rfl⟩
  · cases hcmd

theorem Suspends.accepted (h : Suspends core target c r d L) (hoff : target.system.isOff = true)
    (haccepts : env.AcceptsAll) (allowed : env.Allows past L) (hc : m.Consistent masksOf L)
    (htable : c.wakeup.cleared = table) (hpins : c.snapshot.pinWakeup = false) : r = .ok () ∧ ∃ keep x M,
      (keep = true ↔ NeedsWakeup m) ∧
      commands L = (suspendCommands core target c.entry m.masks (suspendPolicy keep)).map some ∧
      L = M ++ (d.snapshot.saveEvents .peripherals ++ [.manager x]) ∧ .saveGic d.snapshot.interrupts ∈ M := by
  cases h with
  | stays h => cases h.accepted_all haccepts allowed (leave_sendable c.entry)
  | @leaves _ _ _ L M h hsystem =>
    rw [if_pos hoff] at hsystem
    rw [Environment.allows_append, Environment.allows_append] at allowed
    rw [consistent_append, h.quiet.replay, consistent_append, quiet_leaveEvents.replay] at hc
    obtain ⟨hr, keep, x, N, hkeep, hcommands, rfl⟩ := hsystem.accepted haccepts allowed.2.2 hc.2.2 htable hpins
    refine ⟨hr, keep, x, L ++ (leaveEvents core target ++ .saveGic d.snapshot.interrupts :: N), hkeep, ?_, ?_, ?_⟩
    · rw [commands_append, commands_append, h.commands_eq, commands_eq_nil leaveEvents_exchange?, hcommands]
      simp only [suspendCommands, leaveCommands, List.map_append, List.nil_append]
    · simp only [List.append_assoc, List.cons_append]
    · simp

/-- Once every suspend of the system has been followed by its resume, whatever was refused meanwhile, a
    suspend of the system that is accepted asks for what the enabled lines and the registers say, and for
    the policy only once the interrupt controller and the peripherals have been saved as they are. By that
    policy the cluster and the network are held in run, wait and stop, the network keeps its memory, and the
    wakeup domain is always on exactly if a pin or one of its lines can wake the system. -/
theorem domainSuspend_policy {k : κ} {events : List (Event κ)} {turns : List (Turn κ)} {s : Moment κ}
    (hcourse : Course ⟨Controller.initial k, events⟩ turns s) (hbalanced : Balanced turns)
    (region : DmaRegion (History env)) (hplain : env.Plain masksOf m) (haccepts : env.AcceptsAll)
    (hcore : env.core = core.val) (hoff : target.system.isOff = true) (past : History env) :
    ∃ d L keep x M, (env.platform region).domainSuspend target s.controller past = (.ok (.ok (), d), past.add L) ∧
      (keep = true ↔ NeedsWakeup (past.contents masksOf m)) ∧
      commands L = (suspendCommands core target s.controller.entry (past.contents masksOf m).masks
        [⟨Layout.cluster.domain, .onRunWaitStop, 0⟩,
          ⟨Layout.nocDomain, .onRunWaitStop, Layout.retentionBit Layout.nocMemory⟩,
          ⟨Layout.wakeupDomain, if keep then .onAlways else .onRunWaitStop, 0⟩]).map some ∧
      L = M ++ (d.snapshot.saveEvents .peripherals ++ [.manager x]) ∧ .saveGic d.snapshot.interrupts ∈ M ∧
      d.snapshot.Holds masksOf (past.contents masksOf m) := by
  have htable : s.controller.wakeup.cleared = table := hcourse.cleared
  have hpins : s.controller.snapshot.pinWakeup = false := hbalanced.pinWakeup hcourse rfl
  have hdoes : Does (((env.platform region).domainSuspend target).run s.controller) fun x =>
      Suspends core target s.controller x.1 x.2 := acts_domainSuspend hcore
  obtain ⟨⟨r, d⟩, L, heq, allowed, h⟩ := hdoes.answers (concludes_domainSuspend s.controller) past
  have hc := hplain.consistent allowed
  obtain ⟨rfl, keep, x, M, hkeep, hcommands, hL, hsave⟩ := h.accepted hoff haccepts allowed hc htable hpins
  refine ⟨d, L, keep, x, M, heq, hkeep, hcommands, hL, hsave, ?_⟩
  obtain ⟨-, hcaptures⟩ := h.captures hoff hc
  cases hcaptures with
  | all h => exact h

theorem acceptsAll_beforeLoss : beforeLoss.AcceptsAll := by
  intro L cmd token hreply
  have hheader : Scmi.Header.decode (cmd.opcode token) = cmd.header token := Scmi.Header.decode_encode _
  have hstatus : (Scmi.Status.ofWord Scmi.Status.success.word != .success) = false := by decide
  show Scmi.verdict cmd (.ok ⟨cmd.opcode token, Scmi.Status.success.word, 0⟩) = .ok ()
  rw [Scmi.verdict, hheader]
  simp [Scmi.Command.header, hstatus, hreply]

/-- Also after a suspend and a resume that were refused, the next suspend goes by what is enabled now. No
    peripheral has its line enabled, so those are held that only need their clocks; but there is a pin that can
    wake the system. -/
theorem domainSuspend_policy_afterRefusal : ∃ turns s d L,
    Course ⟨Controller.initial fun _ => 0, []⟩ turns s ∧
    turns.map (fun e => (e.core, e.call)) = [(1, .suspend .allOff), (1, .resume .allOff)] ∧
    turns.map (·.outcome.isOk) = [false, false] ∧
    (beforeLoss.platform noRegion).domainSuspend .allOff s.controller ⟨[]⟩ =
      (.ok (.ok (), d), (⟨[]⟩ : History beforeLoss).add L) ∧
    commands L = ([.resetVectorSet 3 .resume 0, .irqWakeSet 3 0 (List.replicate 15 0xffffffff),
      .irqWakeSet 6 0 ((List.range 15).map fun bank => ~~~UInt32.ofNat (bank + 2)),
      .sleepModeSet 3 .resumeCpu .suspend, .sleepModeSet 6 .gpc .suspend,
      .peripheralPolicySet 6 ([1, 2, 3, 4, 5, 6].map fun i => ⟨i, .onRunWaitStop⟩),
      .domainPolicySet 6 [⟨9, .onRunWaitStop, 0⟩, ⟨16, .onRunWaitStop, 0x2000⟩, ⟨18, .onAlways, 0⟩]] :
        List Scmi.Command).map some := by
  have hrefused : ((denyingMessage 0x8).play noRegion [.suspend .allOff, .resume .allOff]
      ⟨Controller.initial fun _ => 0, []⟩).map (fun x => (x.1.map (·.outcome.isOk), x.2.controller.entry)) =
        some ([false, false], 0) := by decide +kernel
  obtain ⟨⟨turns, s⟩, hplay, hseen⟩ := Option.map_eq_some_iff.mp hrefused
  obtain ⟨houtcomes, hentry⟩ := Prod.mk.inj hseen
  have hcourse := course_of_play .nil hplay
  have hcalls := calls_of_play hplay
  have hneeds : NeedsWakeup ((⟨[]⟩ : History beforeLoss).contents id written) :=
    .inl ⟨⟨0x43810000, 32⟩, by decide, 0, by decide, by decide⟩
  have hcore : beforeLoss.core = (1 : Fin 4).val := rfl
  have hoff : PowerState.allOff.system.isOff = true := rfl
  obtain ⟨d, L, keep, x, M, heq, hkeep, hcommands, -⟩ := domainSuspend_policy hcourse (balanced_pair hcalls) noRegion
    Environment.plain_holding acceptsAll_beforeLoss hcore hoff ⟨[]⟩
  rw [hkeep.mpr hneeds, hentry] at hcommands
  refine ⟨turns, s, d, L, hcourse, hcalls, houtcomes, heq, hcommands.trans (congrArg (List.map some) ?_)⟩
  decide +kernel

end Platform
end PowerFirmware
