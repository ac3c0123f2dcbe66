import PowerFirmware.Proofs.Commands
import PowerFirmware.Proofs.Records

/-! Who refuses what a hook asks for. Main statement: a status that a hook fails with has been told by the
System Manager during that hook, and so has one that a step of a resume fails with: no table is refused for its
length before it is sent (`told_perform`, `told_resumeSteps`). -/

namespace PowerFirmware
open Run WakeupPolicy

variable {κ : Type} {env : Environment κ} {region : DmaRegion (History env)} {L M : List (Event κ)} {core : Fin 4}
variable {r : Except PlatformError Unit} {c d : Controller κ} {a b : Scmi.Client} {cmds : List Scmi.Command}
variable {target : PowerState}

/-- The System Manager has answered with the status. -/
def Exchange.Tells (x : Exchange) (s : Scmi.Status) : Prop :=
  ∃ response, x.outcome = .ok response ∧ Scmi.Status.ofWord response.status = s

/-- A status that is failed with has been told by the System Manager. -/
def Told (r : Except PlatformError Unit) (L : List (Event κ)) : Prop :=
  ∀ s, r = .error (.scmi (.status s)) → ∃ x, .manager x ∈ L ∧ x.Tells s

theorem told_ok : Told (.ok ()) L := nofun

theorem told_invalidArgument : Told (.error .invalidArgument) L := nofun

theorem Told.imp (h : Told r L) (hLM : ∀ x, .manager x ∈ L → .manager x ∈ M) : Told r M := by
  intro s hs
  obtain ⟨x, hx, htells⟩ := h s hs
  exact ⟨x, hLM x hx, htells⟩

theorem Told.append_left (h : Told r M) : Told r (L ++ M) := h.imp fun _ hx => List.mem_append_right L hx

theorem Told.append_right (h : Told r L) : Told r (L ++ M) := h.imp fun _ hx => List.mem_append_left M hx

theorem Told.cons {e : Event κ} (h : Told r L) : Told r (e :: L) := h.imp fun _ hx => List.mem_cons_of_mem e hx

theorem told_firstFailure {os : List (Except PlatformError Unit)} (h : ∀ o ∈ os, Told o L) :
    Told (firstFailure os) L := by
  induction os with
  | nil => exact told_ok
  | cons o os ih =>
    obtain ⟨ho, hos⟩ := List.forall_mem_cons.mp h
    cases o with
    | error e => exact ho
    | ok _ => exact ih hos

theorem told_mapError {ε : Type} {f : ε → PlatformError} {o : Except ε Unit} (h : ∀ e s, f e ≠ .scmi (.status s)) :
    Told (o.mapError f) L := by
  intro s hs
  cases o with
  | ok _ => cases hs
  | error e => exact absurd (Except.error.inj hs) (h e s)

theorem Exchange.tells_of_verdict {x : Exchange} {cmd : Scmi.Command} {s : Scmi.Status}
    (h : Scmi.verdict cmd x.outcome = .error (.status s)) : x.Tells s := by
  rcases hx : x.outcome with e | response
  · rw [hx] at h
    cases h
  · rw [hx] at h
    dsimp only [Scmi.verdict] at h
    split at h
    · cases h
    · split at h
      · cases h
        exact ⟨response, hx, rfl⟩
      · split at h <;> cases h

/-- Of commands whose tables are not too long, the one that fails has been answered. -/
theorem Sends.told (h : Sends a cmds L r b) (hfits : ∀ cmd ∈ cmds, cmd.fits = true) : Told r L := by
  rintro s rfl
  rcases h.verdicts hfits with ⟨hok, -⟩ | ⟨M, x, e, rfl, -, hx, he⟩
  · cases hok
  · cases he
    obtain ⟨cmd, -, hcmd⟩ := Option.map_eq_some_iff.mp hx
    exact ⟨x, List.mem_append_right M List.mem_cons_self, Exchange.tells_of_verdict hcmd⟩

theorem Sends.told_one {cmd : Scmi.Command} (h : Sends a [cmd] L r b) (hfits : cmd.fits = true) : Told r L :=
  h.told fun _ hcmd => List.mem_singleton.mp hcmd ▸ hfits

/-! ### Hooks -/

namespace Platform

section Wakeup
variable {masks : List UInt32} {flags : Scmi.WakeupFlags} {mode : Scmi.SleepMode} {entering : Bool}

theorem SetsWakeup.told (h : SetsWakeup core masks flags mode entering c r d L) (hmasks : masks.length = wakeBanks)
    (htable : c.wakeup.cleared = table) : Told r L := h.sends.told (fits_setWakeup hmasks htable)

theorem HandsOver.told (h : HandsOver core c r d L) (htable : c.wakeup.cleared = table) : Told r L := by
  cases h with
  | unmasked h => exact h.told_one rfl
  | masked _ hmasks h => exact (h.told hmasks (cleared_mark.trans htable)).append_left.append_left

theorem SuspendsSystem.told (h : SuspendsSystem core c r d L) (htable : c.wakeup.cleared = table) : Told r L := by
  cases h with
  | held h => exact (h.told htable).cons
  | saved _ _ h => exact (h.told_one rfl).append_left.append_left.cons

theorem Suspends.told (h : Suspends core target c r d L) (htable : c.wakeup.cleared = table) : Told r L := by
  have hfits : ∀ cmd ∈ leaveCommands core target c.entry, cmd.fits = true := by
    unfold leaveCommands
    split <;> simp [Scmi.Command.fits]
  cases h with
  | stays h => exact h.told hfits
  | leaves _ h =>
    split at h
    · exact (h.told htable).append_left.append_left
    · rw [h.1]
      exact told_ok

theorem Resumes.told (h : Resumes core target c r d L) (htable : c.wakeup.cleared = table) : Told r L := by
  cases h with
  | core => exact told_ok
  | system _ h =>
    refine Told.append_right (told_firstFailure fun o ho => ?_)
    obtain ⟨hback, -, -, hpolicy⟩ := h
    simp only [List.mem_cons, List.not_mem_nil, or_false] at ho
    rcases ho with rfl | rfl | rfl | rfl
    · exact (hback.told rfl htable).append_right.cons
    · exact told_mapError nofun
    · exact told_mapError nofun
    · exact (hpolicy.told_one rfl).append_left.append_left.append_left.cons.append_left.cons

end Wakeup

theorem PowersOn.told (h : PowersOn core c r d L) : Told r L := by
  have hstart : ∀ cmd ∈ startCommands core, cmd.fits = true := by simp [startCommands, allowEventsCommand,
    corePolicyCommand, Scmi.Command.fits]
  cases h with
  | refused _ h => exact h.told_one rfl
  | first _ _ h => exact (h.told hstart).append_left
  | again _ h => exact h.told hstart

/-- A core that there is not has nothing asked for it. -/
theorem told_of_core {call : Fin 4 → Hook (History env) κ Unit}
    (h : ∀ core : Fin 4, env.core = core.val → Acts ((env.platform region).thisCore >>= call) c fun r _ L => Told r L) :
    Acts ((env.platform region).thisCore >>= call) c fun r _ L => Told r L := by
  by_cases hcore : env.core < 4
  · exact h ⟨env.core, hcore⟩ rfl
  · refine (acts_noCore hcore).imp ?_
    rintro _ _ _ ⟨rfl, -, -⟩
    exact told_invalidArgument

/-- However the System Manager answers, a status that a hook fails with is one of its answers during it. -/
theorem told_perform (call : HookCall) (htable : c.wakeup.cleared = table) :
    Acts ((env.platform region).perform call) c fun r _ L => Told r L := by
  have hoff : ∀ (core : Fin 4), ∀ cmd ∈ offCommands core, cmd.fits = true := fun core => by
    simp [offCommands, corePolicyCommand, Scmi.Command.fits, allMasked, wakeBanks]
  have htransition : ∀ state, Acts ((env.platform region).systemTransition state) c fun r _ L => Told r L := by
    refine fun state => acts_systemTransition.imp ?_
    rintro r d _ ⟨-, M, rfl, h⟩
    exact (h.told_one rfl).cons
  cases call with
  | setup entry => exact acts_setup.imp fun r d L h => h.1.told (by simp [setupCommands, allowEventsCommand,
      corePolicyCommand, runModePolicy, Scmi.Command.fits])
  | on affinity =>
    by_cases hcore : coreOfAffinity affinity < 4
    · have hval : coreOfAffinity affinity = (⟨coreOfAffinity affinity, hcore⟩ : Fin 4).val := rfl
      exact (acts_domainOn hval).imp fun _ _ _ h => h.told
    · refine (acts_domainOn_outside hcore).imp ?_
      rintro _ _ _ ⟨rfl, -, -⟩
      exact told_invalidArgument
  | onFinish =>
    refine told_of_core fun core hcore => (acts_domainOnFinish hcore).imp ?_
    rintro r d _ ⟨-, M, rfl, h⟩
    exact (h.told_one rfl).append_right
  | off =>
    refine told_of_core fun core hcore => (acts_domainOff hcore).imp ?_
    rintro r d _ ⟨-, M, rfl, h⟩
    exact (h.told (hoff core)).cons.cons
  | suspend target =>
    exact told_of_core fun core hcore => (acts_domainSuspend hcore).imp fun _ _ _ h => Suspends.told h htable
  | resume target =>
    exact told_of_core fun core hcore => (acts_domainSuspendFinish hcore).imp fun _ _ _ h => Resumes.told h htable
  | reset => exact htransition _
  | shutDown => exact htransition _

/-- The same goes for the steps of a resume, also for those that fail after another. -/
theorem told_resumeSteps (htable : c.wakeup.cleared = table) :
    ∀ step ∈ (env.platform region).resumeSteps core, Acts step.2 c fun r _ L => Told r L := by
  intro step hstep
  simp only [resumeSteps, List.mem_cons, List.not_mem_nil, or_false] at hstep
  rcases hstep with rfl | rfl | rfl | rfl
  · refine acts_powerUpNetwork.imp ?_
    rintro r d _ ⟨M, rfl, h⟩
    exact (h.told rfl htable).cons
  · refine acts_releaseFlash.imp ?_
    rintro _ _ _ ⟨-, x, -, -, rfl⟩
    exact told_mapError nofun
  · refine acts_restoreContext.imp ?_
    rintro _ _ _ ⟨-, os, rfl, -⟩
    exact told_mapError nofun
  · exact acts_send.imp fun _ _ _ h => h.1.told_one rfl

end Platform
end PowerFirmware
