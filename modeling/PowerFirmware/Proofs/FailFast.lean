import PowerFirmware.Proofs.Commands
import PowerFirmware.Proofs.Parallel
import PowerFirmware.Proofs.Suspend.Policy

/-! Hooks stop at the first request that is not accepted. Main statement: whatever is replied, a hook other
than a resume asks for a first part of what it asks for when everything is accepted, up to the first request
that is not, and fails as that request did (`perform_failsFast`). -/

namespace PowerFirmware
open Run Platform WakeupPolicy

variable {κ α : Type} {env env' : Environment κ} {region : DmaRegion (History env)} {region' : DmaRegion (History env')}
variable {core : Fin 4} {target : PowerState} {call : HookCall} {L L' M : List (Event κ)} {cmd : Scmi.Command}

/-! ### Hooks side by side -/

theorem Follows.ite {b : Prop} [Decidable b] {x y : Hook (History env) κ α} {x' y' : Hook (History env') κ α}
    (hx : Follows x x') (hy : Follows y y') : Follows (if b then x else y) (if b then x' else y') := by
  split
  · exact hx
  · exact hy

theorem thisCore_eq (hcore : env.core = core.val) (c : Controller κ) (h : History env) :
    (env.platform region).thisCore c h = (.ok (.ok core, c), h) := by
  have hview : (Run.view (env.platform region).cpu.index : Run (History env) Nat) h = (.ok core.val, h) := by
    rw [← hcore]
    rfl
  refine (bind_of_success (liftM_of_ok hview)).trans ?_
  rw [dif_pos core.isLt]
  rfl

theorem Follows.thisCore {f : Fin 4 → Hook (History env) κ α} {f' : Fin 4 → Hook (History env') κ α}
    (hcore : env.core = core.val) (hcore' : env'.core = core.val) (hf : Follows (f core) (f' core)) :
    Follows ((env.platform region).thisCore >>= f) ((env'.platform region').thisCore >>= f') := by
  intro c h h' hc halike
  obtain ⟨r, d, L, a, d', L', hfh, hfh', hend⟩ := hf c h h' hc halike
  exact ⟨r, d, L, a, d', L', (bind_of_success (thisCore_eq hcore c h)).trans hfh,
    (bind_of_success (thisCore_eq hcore' c h')).trans hfh', hend⟩

theorem agree_powerDown (region : DmaRegion (History env)) (region' : DmaRegion (History env')) (word : UInt64) :
    Agree (fun _ => True)
      (Run.update ((env.platform region).cpu.powerDownCluster word) : Run (History env) Unit)
      (Run.update ((env'.platform region').cpu.powerDownCluster word) : Run (History env') Unit) :=
  .did rfl

section Accepting
variable (haccepts : env'.AcceptsAll)
include haccepts

theorem follows_setEntry {flags : Scmi.VectorFlags} :
    Follows ((env.platform region).setEntry core flags) ((env'.platform region').setEntry core flags) :=
  .get fun _ _ => .send haccepts rfl rfl

theorem follows_setup {entry : UInt64} :
    Follows ((env.platform region).setup entry) ((env'.platform region').setup entry) :=
  .bind (.modify fun _ hc => hc) fun _ => .bind (follows_setEntry haccepts) fun _ =>
    .bind (.send haccepts rfl rfl) fun _ => .bind (.send haccepts rfl rfl) fun _ => .bind (.send haccepts rfl rfl) fun _ =>
    .bind (.send haccepts rfl rfl) fun _ => .bind (.send haccepts rfl rfl) fun _ => .bind (.send haccepts rfl rfl) fun _ =>
    .bind (.send haccepts rfl rfl) fun _ => .last .log

theorem follows_domainOn {affinity : UInt64} (h : coreOfAffinity affinity < 4) :
    Follows ((env.platform region).domainOn affinity) ((env'.platform region').domainOn affinity) := by
  unfold domainOn
  rw [dif_pos h, dif_pos h]
  refine .get fun c _ => ?_
  refine .ite (.bind (follows_setEntry haccepts) fun _ => .bind (.modify fun _ hc => hc) fun _ => ?_) ?_ <;>
    exact .bind (.send haccepts rfl rfl) fun _ => .bind (.send haccepts rfl rfl) fun _ =>
      .bind (.send haccepts rfl rfl) fun _ => .last .log

theorem follows_domainOnFinish (hcore : env.core = core.val) (hcore' : env'.core = core.val) :
    Follows (env.platform region).domainOnFinish (env'.platform region').domainOnFinish :=
  .thisCore hcore hcore' (.bind (.send haccepts rfl rfl) fun _ => .run (.did rfl) fun _ _ => .last (.did rfl))

theorem follows_domainOff (hcore : env.core = core.val) (hcore' : env'.core = core.val) :
    Follows (env.platform region).domainOff (env'.platform region').domainOff :=
  .thisCore hcore hcore' (.run (.did rfl) fun _ _ => .run (.did rfl) fun _ _ => .bind (.send haccepts rfl rfl) fun _ =>
    .bind (.send haccepts rfl rfl) fun _ => .bind (.send haccepts rfl rfl) fun _ => .last .log)

theorem follows_systemTransition {state : Scmi.SystemPower} :
    Follows ((env.platform region).systemTransition state) ((env'.platform region').systemTransition state) :=
  .run (.did rfl) fun _ _ => .send haccepts rfl rfl

theorem follows_setWakeup {masks : List UInt32} {flags : Scmi.WakeupFlags} {mode : Scmi.SleepMode} {entering : Bool}
    (hmasks : masks.length = wakeBanks) :
    Follows ((env.platform region).setWakeup core masks flags mode entering)
      ((env'.platform region').setWakeup core masks flags mode entering) := by
  refine .bind (.modify fun _ hc => hc) fun _ => .bind (.send haccepts (fits_irqWakeSet hmasks) rfl) fun _ =>
    .bind (.send haccepts rfl rfl) fun _ => .bind (.send haccepts rfl rfl) fun _ => .get fun c hc => ?_
  exact .bind (.modify fun _ _ => cleared_handshake.trans hc) fun _ =>
    .bind (.send haccepts (fits_handshake hc) rfl) fun _ => .last .log

variable (hbeside : env.Beside env')
include hbeside

omit haccepts in
theorem follows_saveContext {set : ContextSet} :
    Follows ((env.platform region).saveContext set) ((env'.platform region').saveContext set) :=
  .get fun _ _ => .run (agree_save hbeside) fun _ _ => .modify fun _ hc => hc

theorem follows_suspendSystem :
    Follows ((env.platform region).suspendSystem core) ((env'.platform region').suspendSystem core) := by
  refine .bind (.bind (follows_saveContext hbeside) fun _ => .bind (.send haccepts rfl rfl) fun _ => .get fun c hc =>
      .run (agree_capture hbeside) ?_) fun _ => .bind (follows_saveContext hbeside) fun _ => .get fun _ _ =>
    .bind (.send haccepts rfl rfl) fun _ => .last .log
  rintro ⟨masks, wakeup⟩ ⟨hmasks, hwakeup⟩
  simp only at hmasks hwakeup
  subst hwakeup
  exact .bind (.modify fun _ _ => cleared_mark.trans hc) fun _ => follows_setWakeup haccepts hmasks

theorem follows_domainSuspend (hcore : env.core = core.val) (hcore' : env'.core = core.val) :
    Follows ((env.platform region).domainSuspend target) ((env'.platform region').domainSuspend target) := by
  have hsystem : Follows (if target.system.isOff then (env.platform region).suspendSystem core else pure ())
      (if target.system.isOff then (env'.platform region').suspendSystem core else pure ()) :=
    .ite (follows_suspendSystem haccepts hbeside) .pure
  have hcluster := Follows.ite (b := (!target.cluster.isRun) = true)
    (.run (agree_powerDown region region' (if target.cluster.isRetention then clusterRetention else clusterOff))
      fun _ _ => hsystem) hsystem
  exact .thisCore hcore hcore' (.ite (.bind (follows_setEntry haccepts) fun _ => .run (.did rfl) fun _ _ => hcluster) hcluster)

end Accepting

/-- A hook that is called of a core that there is; a resume does not stop at a failure. -/
def HookCall.StopsAtFailure (core : Nat) : HookCall → Prop
  | .on affinity => coreOfAffinity affinity < 4
  | .onFinish | .off | .suspend _ => core < 4
  | .setup _ | .reset | .shutDown => True
  | .resume _ => False

theorem follows_perform (hbeside : env.Beside env') (haccepts : env'.AcceptsAll) (hcall : call.StopsAtFailure env.core) :
    Follows ((env.platform region).perform call) ((env'.platform region').perform call) := by
  have hcore : ∀ h : env.core < 4, env.core = (⟨env.core, h⟩ : Fin 4).val := fun _ => rfl
  cases call with
  | setup entry => exact follows_setup haccepts
  | on affinity => exact follows_domainOn haccepts hcall
  | onFinish => exact follows_domainOnFinish haccepts (hcore hcall) hbeside.core
  | off => exact follows_domainOff haccepts (hcore hcall) hbeside.core
  | suspend target => exact follows_domainSuspend haccepts hbeside (hcore hcall) hbeside.core
  | resume target => exact hcall.elim
  | reset | shutDown => exact follows_systemTransition haccepts

/-! ### What comes after an accepted command -/

/-- Events of the kind `P` come after the command was accepted. -/
def ComesAfter (cmd : Scmi.Command) (P : Event κ → Prop) (L : List (Event κ)) : Prop :=
  ∀ before d after, L = before ++ d :: after → P d → cmd ∈ acceptedCommands before

section ComesAfter
variable {P : Event κ → Prop}

theorem ComesAfter.of_none (h : ∀ d ∈ L, ¬P d) : ComesAfter cmd P L := by
  rintro before d after rfl hd
  exact absurd hd (h d (List.mem_append_right _ List.mem_cons_self))

theorem ComesAfter.of_first (hcmd : cmd ∈ acceptedCommands L) (h : ∀ d ∈ L, ¬P d) : ComesAfter cmd P (L ++ M) := by
  intro before d after heq hd
  obtain ⟨rest, rfl⟩ := prefix_of_split h heq hd
  rw [accepted_append]
  exact List.mem_append_left _ hcmd

end ComesAfter

/-- The interrupt interface of a core is set up or enabled. -/
def Event.IsEntrance : Event κ → Prop
  | initCore _ | enableInterface _ => True
  | _ => False

/-- The interrupt interface of a core is disabled. -/
def Event.IsExit : Event κ → Prop
  | disableInterface _ => True
  | _ => False

theorem not_isExit (h : switches L = []) : ∀ d ∈ L, ¬d.IsExit := by
  intro d hd hexit
  cases d <;> cases hexit
  cases List.filterMap_eq_nil_iff.mp h _ hd

theorem onFinish_ordered {c d : Controller κ} {r : Except PlatformError Unit} {past t : History env} {core : Fin 4}
    (hcore : env.core = core.val) (h : (env.platform region).domainOnFinish c past = (.ok (r, d), t)) :
    ∃ L, t = past.add L ∧ ComesAfter (.sleepModeSet (Layout.cpuOf core) .gic .wait) Event.IsEntrance L := by
  have acts : Acts (env.platform region).domainOnFinish c _ := acts_domainOnFinish hcore
  obtain ⟨_, rfl, -, -, M, rfl, hsends⟩ := acts.answered h
  refine ⟨_, rfl, ?_⟩
  have hnone : ∀ d ∈ M, ¬d.IsEntrance := by
    intro d hd
    obtain ⟨x, rfl⟩ := hsends.managers d hd
    exact id
  cases r with
  | error e =>
    rw [if_neg (by exact Bool.false_ne_true), List.append_nil]
    exact .of_none hnone
  | ok _ => exact .of_first (by rw [hsends.accepted_eq]; exact List.mem_singleton_self _) hnone

theorem suspends_ordered {c d : Controller κ} {r : Except PlatformError Unit} (h : Suspends core target c r d L) :
    ComesAfter (.resetVectorSet (Layout.cpuOf core) .resume c.entry) Event.IsExit L := by
  cases h with
  | stays h => exact .of_none (not_isExit h.switches)
  | @leaves _ _ _ L M h hsystem =>
    by_cases hoff : target.core.isOff = true
    · refine .of_first ?_ (not_isExit h.switches)
      rw [h.accepted_eq, leaveCommands, if_pos hoff]
      exact List.mem_singleton_self _
    · refine .of_none (not_isExit ?_)
      have hleave : switches (leaveEvents (κ := κ) core target) = [] := by
        rw [leaveEvents, if_neg hoff]
        split <;> rfl
      have hM : switches M = [] := by
        split at hsystem
        · exact hsystem.switches
        · rw [hsystem.2.2]
          rfl
      rw [switches_append, switches_append, h.switches, hleave, hM]
      rfl

/-! ### Main statement -/

/-- A run that goes on as another does in which everything is accepted, and stops at the first request that
    is not accepted. -/
structure FailsFast (r : Except PlatformError Unit) (L L' : List (Event κ)) : Prop where
  sent : requests L <+: requests L'
  ok_iff : r = .ok () ↔ AllAccepted L
  complete : r = .ok () → requests L = requests L'
  stopped : ∀ e, r = .error e → ∃ e', e = .scmi e' ∧ StopsAt e' L

theorem EndsBeside.failsFast {c d : Controller κ} {r : Except PlatformError Unit} (h : EndsBeside () c L' r d L) :
    FailsFast r L L' := by
  cases h with
  | alike hL hall =>
    exact ⟨hL.requests ▸ List.prefix_rfl, iff_of_true rfl hall, fun _ => hL.requests, nofun⟩
  | @stopped e _ _ hstops hsent =>
    refine ⟨hsent, iff_of_false (fun hr => by cases hr) hstops.not_allAccepted, nofun, ?_⟩
    rintro _ ⟨⟩
    exact ⟨e, rfl, hstops⟩

/-- Whatever is replied, a hook other than a resume asks for a first part of what it asks for from the same
    state when everything is accepted. It succeeds exactly if all that it asked for was accepted, and else
    stops at the first request that was not and fails as that did. A core is let in only after its sleep
    mode has been accepted, and shut out only after the vector that it resumes by has been. -/
theorem perform_failsFast (region : DmaRegion (History env)) (region' : DmaRegion (History env'))
    (hbeside : env.Beside env') (haccepts : env'.AcceptsAll) (hcall : call.StopsAtFailure env.core) (c : Controller κ)
    (htable : c.wakeup.cleared = table) (past : List (Event κ)) :
    ∃ r d L d' L', (env.platform region).perform call c ⟨past⟩ = (.ok (r, d), (⟨past⟩ : History env).add L) ∧
      (env'.platform region').perform call c ⟨past⟩ = (.ok (.ok (), d'), (⟨past⟩ : History env').add L') ∧
      FailsFast r L L' ∧ ∀ core : Fin 4, env.core = core.val →
        (call = .onFinish → ComesAfter (.sleepModeSet (Layout.cpuOf core) .gic .wait) Event.IsEntrance L) ∧
        ∀ target, call = .suspend target →
          ComesAfter (.resetVectorSet (Layout.cpuOf core) .resume c.entry) Event.IsExit L := by
  obtain ⟨r, d, L, ⟨⟩, d', L', hrun, hrun', -, hends⟩ :=
    follows_perform hbeside haccepts hcall c ⟨past⟩ ⟨past⟩ htable (.refl past)
  refine ⟨r, d, L, d', L', hrun, hrun', hends.failsFast, fun core hcore => ⟨?_, ?_⟩⟩
  · rintro rfl
    obtain ⟨M, hM, hordered⟩ := onFinish_ordered hcore hrun
    rwa [History.add_inj.mp hM]
  · rintro target rfl
    have acts : Acts ((env.platform region).domainSuspend target) c (Suspends core target c) := acts_domainSuspend hcore
    obtain ⟨M, hM, -, hsuspends⟩ := acts.answered hrun
    rw [History.add_inj.mp hM]
    exact suspends_ordered hsuspends

theorem Alike.replay {masksOf : κ → Nat → UInt32} (h : Alike L L') :
    ∀ m : Contents, m.replay masksOf L = m.replay masksOf L' := by
  induction h with
  | nil => exact fun _ => rfl
  | cons he _ ih =>
    intro m
    rw [Contents.replay_cons, Contents.replay_cons, ih]
    cases he <;> rfl

/-- Registers and masks that only hold what they are given do not depend on what is replied. -/
theorem beside_holding {env env' : Environment (Nat → UInt32)} {m : Contents} (h : env'.core = env.core) :
    (env.holding m).Beside (env'.holding m) where
  core := h
  load halike a := by
    show (m.replay id _).registers a = (m.replay id _).registers a
    rw [halike.replay]
  saveGic halike _ := by
    show (m.replay id _).masks = (m.replay id _).masks
    rw [halike.replay]
  enableMask halike bank := by
    show (m.replay id _).masks bank = (m.replay id _).masks bank
    rw [halike.replay]

/-- A suspend of the system of which the first mask is denied. -/
theorem perform_failsFast_denied : ∃ d L d' L',
    ((denyingMessage 0x8).platform noRegion).perform (.suspend .allOff) fresh ⟨[]⟩ =
      (.ok (.error (.scmi (.status .denied)), d), (⟨[]⟩ : History (denyingMessage 0x8)).add L) ∧
    (beforeLoss.platform noRegion).perform (.suspend .allOff) fresh ⟨[]⟩ =
      (.ok (.ok (), d'), (⟨[]⟩ : History beforeLoss).add L') ∧
    requests L <+: requests L' ∧ StopsAt (.status .denied) L ∧
    ComesAfter (.resetVectorSet (Layout.cpuOf 1) .resume 0) Event.IsExit L := by
  obtain ⟨_, _, heq⟩ := exists_of_outcome (show (((denyingMessage 0x8).platform noRegion).perform (.suspend .allOff) fresh
    ⟨[]⟩).1.toOption.map (·.1) = some (.error (.scmi (.status .denied))) by decide +kernel)
  have hbeside : (denyingMessage 0x8).Beside beforeLoss := beside_holding rfl
  have hcall : HookCall.StopsAtFailure (denyingMessage 0x8).core (.suspend .allOff) := Nat.one_lt_succ_succ 2
  obtain ⟨r, d, L, d', L', hrun, hrun', hfast, hordered⟩ := perform_failsFast noRegion noRegion
    hbeside acceptsAll_beforeLoss hcall fresh rfl []
  rw [hrun] at heq
  cases heq
  obtain ⟨_, ⟨⟩, hstops⟩ := hfast.stopped _ rfl
  exact ⟨_, _, d', L', hrun, hrun', hfast.sent, hstops, (hordered 1 rfl).2 _ rfl⟩

end PowerFirmware
