import PowerFirmware.Proofs.Commands
import PowerFirmware.Proofs.Hooks

/-! What one hook does, whichever it is. Main statement: a hook that happens makes its own requests, in
order and until one is refused, and changes no more of the controller than goes with them
(`Turn.Happens.makes`). -/

namespace PowerFirmware
open Run Platform

variable {κ : Type} {e : Turn κ}

/-- Whether a hook is about the core that calls it. -/
def HookCall.isOfCaller : HookCall → Bool
  | .onFinish | .off | .suspend _ | .resume _ => true
  | _ => false

/-- What a hook does, and the events it adds. -/
inductive Turn.Makes (e : Turn κ) (L : List (Event κ)) : Prop
  | setup {entry : UInt64} : e.call = .setup entry →
      Sends e.before.controller.client (setupCommands entry) L e.outcome e.after.controller.client →
      e.after.controller = { e.before.controller with client := e.after.controller.client, entry } → Makes e L
  | on {affinity : UInt64} {core : Fin 4} : e.call = .on affinity → coreOfAffinity affinity = core.val →
      PowersOn core e.before.controller e.outcome e.after.controller L → Makes e L
  | onFinish {core : Fin 4} {M : List (Event κ)} : e.call = .onFinish → e.core = core.val →
      Sends e.before.controller.client [.sleepModeSet (Layout.cpuOf core) .gic .wait] M e.outcome
        e.after.controller.client →
      e.after.controller = { e.before.controller with client := e.after.controller.client } →
      L = M ++ (if e.outcome.isOk then [.initCore core, .enableInterface core] else []) → Makes e L
  | off {core : Fin 4} {M : List (Event κ)} : e.call = .off → e.core = core.val →
      Sends e.before.controller.client (offCommands core) M e.outcome e.after.controller.client →
      e.after.controller = { e.before.controller with client := e.after.controller.client } →
      L = .disableInterface core :: .powerDownCluster clusterOff :: M → Makes e L
  | suspend {target : PowerState} {core : Fin 4} : e.call = .suspend target → e.core = core.val →
      Suspends core target e.before.controller e.outcome e.after.controller L → Makes e L
  | resume {target : PowerState} {core : Fin 4} : e.call = .resume target → e.core = core.val →
      Resumes core target e.before.controller e.outcome e.after.controller L → Makes e L
  | transition {state : Scmi.SystemPower} {M : List (Event κ)} :
      e.call = .reset ∧ state = .coldReset ∨ e.call = .shutDown ∧ state = .shutdown →
      Sends e.before.controller.client [.systemPowerSet .forceful state] M e.outcome e.after.controller.client →
      e.after.controller = { e.before.controller with client := e.after.controller.client } →
      L = .disableGroups :: M → Makes e L
  | noCore : (∃ affinity, e.call = .on affinity ∧ 4 ≤ coreOfAffinity affinity) ∨ e.call.isOfCaller = true ∧ 4 ≤ e.core →
      e.outcome = .error .invalidArgument → e.after.controller = e.before.controller → L = [] → Makes e L

theorem Turn.Happens.makes (h : e.Happens) : ∃ L, e.after.events = e.before.events ++ L ∧ e.Makes L := by
  obtain ⟨env, region, hcore, heq⟩ := h
  obtain ⟨core, call, outcome, ⟨c, past⟩, ⟨d, events⟩⟩ := e
  simp only at hcore heq
  have happened : ∀ {x : Hook (History env) κ Unit} {Φ : Except PlatformError Unit → Controller κ → List (Event κ) → Prop},
      Acts x c Φ → x c ⟨past⟩ = (.ok (outcome, d), ⟨events⟩) → ∃ L, events = past ++ L ∧ Φ outcome d L := by
    intro x Φ hx hxeq
    obtain ⟨L, hL, -, hΦ⟩ := hx.answered hxeq
    exact ⟨L, congrArg History.events hL, hΦ⟩
  have hreal : ∀ {x : Fin 4 → Hook (History env) κ Unit} {Φ : Fin 4 → Except PlatformError Unit → Controller κ →
      List (Event κ) → Prop}, (∀ core : Fin 4, env.core = core.val → Acts ((env.platform region).thisCore >>= x) c (Φ core)) →
      ((env.platform region).thisCore >>= x) c ⟨past⟩ = (.ok (outcome, d), ⟨events⟩) →
      ∃ L, events = past ++ L ∧ ((∃ core : Fin 4, env.core = core.val ∧ Φ core outcome d L) ∨
        4 ≤ env.core ∧ outcome = .error .invalidArgument ∧ d = c ∧ L = []) := by
    intro x Φ hx hxeq
    by_cases hlt : env.core < 4
    · obtain ⟨L, hL, hΦ⟩ := happened (hx ⟨env.core, hlt⟩ rfl) hxeq
      exact ⟨L, hL, .inl ⟨⟨env.core, hlt⟩, rfl, hΦ⟩⟩
    · obtain ⟨L, hL, hnone⟩ := happened (acts_noCore hlt) hxeq
      exact ⟨L, hL, .inr ⟨Nat.le_of_not_lt hlt, hnone⟩⟩
  cases call with
  | setup entry =>
    obtain ⟨L, hL, hsends, hd⟩ := happened acts_setup heq
    exact ⟨L, hL, .setup rfl hsends hd⟩
  | on affinity =>
    by_cases hlt : coreOfAffinity affinity < 4
    · have hval : coreOfAffinity affinity = (⟨coreOfAffinity affinity, hlt⟩ : Fin 4).val := rfl
      obtain ⟨L, hL, hpowers⟩ := happened (acts_domainOn hval) heq
      exact ⟨L, hL, .on rfl hval hpowers⟩
    · obtain ⟨L, hL, houtcome, hd, hnil⟩ := happened (acts_domainOn_outside hlt) heq
      exact ⟨L, hL, .noCore (.inl ⟨affinity, rfl, Nat.le_of_not_lt hlt⟩) houtcome hd hnil⟩
  | onFinish =>
    obtain ⟨L, hL, ⟨core, hval, hd, M, rfl, hsends⟩ | ⟨hnone, houtcome, hd, hnil⟩⟩ :=
      hreal (fun core hval => acts_domainOnFinish hval) heq
    · exact ⟨_, hL, .onFinish rfl (hcore.symm.trans hval) hsends hd rfl⟩
    · exact ⟨L, hL, .noCore (.inr ⟨rfl, hcore ▸ hnone⟩) houtcome hd hnil⟩
  | off =>
    obtain ⟨L, hL, ⟨core, hval, hd, M, rfl, hsends⟩ | ⟨hnone, houtcome, hd, hnil⟩⟩ :=
      hreal (fun core hval => acts_domainOff hval) heq
    · exact ⟨_, hL, .off rfl (hcore.symm.trans hval) hsends hd rfl⟩
    · exact ⟨L, hL, .noCore (.inr ⟨rfl, hcore ▸ hnone⟩) houtcome hd hnil⟩
  | suspend target =>
    obtain ⟨L, hL, ⟨core, hval, hsuspends⟩ | ⟨hnone, houtcome, hd, hnil⟩⟩ :=
      hreal (fun core hval => acts_domainSuspend hval) heq
    · exact ⟨L, hL, .suspend rfl (hcore.symm.trans hval) hsuspends⟩
    · exact ⟨L, hL, .noCore (.inr ⟨rfl, hcore ▸ hnone⟩) houtcome hd hnil⟩
  | resume target =>
    obtain ⟨L, hL, ⟨core, hval, hresumes⟩ | ⟨hnone, houtcome, hd, hnil⟩⟩ :=
      hreal (fun core hval => acts_domainSuspendFinish hval) heq
    · exact ⟨L, hL, .resume rfl (hcore.symm.trans hval) hresumes⟩
    · exact ⟨L, hL, .noCore (.inr ⟨rfl, hcore ▸ hnone⟩) houtcome hd hnil⟩
  | reset =>
    obtain ⟨L, hL, hd, M, rfl, hsends⟩ := happened acts_systemTransition heq
    exact ⟨_, hL, .transition (.inl ⟨rfl, rfl⟩) hsends hd rfl⟩
  | shutDown =>
    obtain ⟨L, hL, hd, M, rfl, hsends⟩ := happened acts_systemTransition heq
    exact ⟨_, hL, .transition (.inr ⟨rfl, rfl⟩) hsends hd rfl⟩

end PowerFirmware
