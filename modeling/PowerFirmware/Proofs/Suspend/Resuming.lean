import PowerFirmware.Proofs.Suspend.Entering

/-! What a resume does. Main statement: after a suspend of the system every step that brings it back is
taken, in order and whichever of them fail, and the first failure is kept
(`domainSuspendFinish_completes`). -/

namespace PowerFirmware

/-- How a command to the enclave ends by what its request came to. -/
def Enclave.verdict : Except ChannelError Response → Except Enclave.Error Unit
  | .error e => .error (.channel e)
  | .ok r => if r.status != successStatus then .error (.failed r.status) else .ok ()

namespace Platform
open Run

variable {κ : Type} {env : Environment κ} {region : DmaRegion (History env)} {c d : Controller κ} {core : Fin 4}
variable {r : Except PlatformError Unit} {L M : List (Event κ)} {set : ContextSet} {target : PowerState}

/-! ### Steps -/

theorem acts_restoreContext : Acts ((env.platform region).restoreContext set) c fun r d L =>
    d = { c with snapshot := { c.snapshot with pinWakeup := c.snapshot.pinWakeup && !set.contains .pins } } ∧
      ∃ os, r = (firstFailure os).mapError .timeout ∧ c.snapshot.Restores set L os := by
  refine .bind (.get (.bind (.run (Snapshot.does_restore.imp ?_))))
  rintro ⟨outcome, snapshot⟩ M ⟨hsnapshot, os, houtcome, hM⟩
  simp only at hsnapshot houtcome
  subst hsnapshot houtcome
  refine .bind (.modify ?_)
  dsimp only
  split
  · rename_i hok
    refine .pure ⟨rfl, os, by rw [hok]; rfl, ?_⟩
    simp only [List.append_nil]
    exact hM
  · rename_i t herror
    refine .throw ⟨rfl, os, by rw [herror]; rfl, ?_⟩
    simp only [List.append_nil]
    exact hM

theorem acts_powerUpNetwork : Acts ((env.platform region).powerUpNetwork core) c fun r d L =>
    ∃ M, L = .restoreGic c.snapshot.interrupts :: M ∧
      SetsWakeup core WakeupPolicy.allMasked .gic .wait false c r d M := by
  refine .bind (acts_restoreContext.imp ?_)
  rintro r₁ d₁ L₁ ⟨hd₁, os, hr₁, M, hM, rfl⟩
  cases hM
  subst hd₁ hr₁
  have hwakeup : (c.snapshot.pinWakeup && !ContextSet.interrupts.contains .pins) = c.snapshot.pinWakeup :=
    Bool.and_true _
  rw [hwakeup]
  exact acts_setWakeup.imp fun r d M hM => ⟨M, rfl, hM⟩

/-- A command to the enclave makes one exchange and ends by the verdict on it. -/
theorem does_command {opcode : UInt32} {args : List UInt32} {payload : Nat} :
    Does ((env.platform region).enclave.command opcode args payload) fun o L => ∃ x, L = [.enclave x] ∧
      x.request = ⟨opcode, args⟩ ∧
      o = (Enclave.verdict x.outcome).map fun _ => overlay x.payload (Vector.replicate payload 0) := by
  refine .bind (.enclave fun outcome words => ?_)
  cases outcome with
  | error e => exact .pure ⟨_, rfl, rfl, rfl⟩
  | ok response =>
    refine .bind (.log ?_)
    split
    · rename_i hstatus
      exact .pure ⟨_, rfl, rfl, by rw [Enclave.verdict, if_pos hstatus]; rfl⟩
    · rename_i hstatus
      exact .pure ⟨_, rfl, rfl, by rw [Enclave.verdict, if_neg hstatus]; rfl⟩

theorem acts_releaseFlash : Acts (env.platform region).releaseFlash c fun r d L => d = c ∧
    ∃ x, L = [.enclave x] ∧ x.request = ⟨Enclave.releaseMasterId, []⟩ ∧
      r = (Enclave.verdict x.outcome).mapError .enclave := by
  refine .bind (.run (.bind (does_command.imp ?_)))
  rintro _ _ ⟨x, rfl, hx, rfl⟩
  rcases hv : Enclave.verdict x.outcome with e | _
  · exact .pure (.throw ⟨rfl, x, rfl, hx, by rw [hv]; rfl⟩)
  · exact .pure (.pure ⟨rfl, x, rfl, hx, by rw [hv]; rfl⟩)

/-! ### All steps -/

section All
variable {name : String} {step : Hook (History env) κ Unit} {rest : List (String × Hook (History env) κ Unit)}
variable {Φ : List (Except PlatformError Unit) → Controller κ → List (Event κ) → Prop}

def failure? : Except PlatformError Unit → Option PlatformError
  | .ok _ => none
  | .error e => some e

/-- All steps are taken, with outcomes as `Φ` says, and the first failure is what is yielded. -/
def TakesAll (steps : List (String × Hook (History env) κ Unit)) (c : Controller κ)
    (Φ : List (Except PlatformError Unit) → Controller κ → List (Event κ) → Prop) : Prop :=
  Does ((runAll steps).run c) fun x L => ∃ os, x.1 = failure? (firstFailure os) ∧ Φ os x.2 L

theorem takesAll_nil (h : Φ [] c []) : TakesAll ([] : List (String × Hook (History env) κ Unit)) c Φ :=
  .pure ⟨[], rfl, h⟩

/-- The rest of the steps is taken whether or not a step fails. -/
theorem takesAll_cons (h : Acts step c fun r d L => TakesAll rest d fun os e M => Φ (r :: os) e (L ++ M)) :
    TakesAll ((name, step) :: rest) c Φ := by
  refine .bind (Does.imp h ?_)
  rintro ⟨r, d⟩ L hrest
  cases r with
  | ok _ =>
    refine hrest.imp ?_
    rintro x M ⟨os, hx, hM⟩
    exact ⟨.ok () :: os, hx, hM⟩
  | error e =>
    change Does ((log _ _ : Run (History env) Unit) >>= fun _ =>
      (runAll rest).run d >>= fun x => Pure.pure (some e, x.2)) _
    refine .bind (.log (.bind (hrest.imp ?_)))
    rintro x M ⟨os, -, hM⟩
    refine .pure ⟨.error e :: os, rfl, ?_⟩
    simp only [List.append_nil, List.nil_append]
    exact hM

end All

/-- How a resume of the system goes. The four outcomes are those of handing wakeup back, of freeing the
    flash controllers, of the watchdogs and of the policy. -/
inductive ResumesSystem (core : Fin 4) (c : Controller κ) :
    List (Except PlatformError Unit) → Controller κ → List (Event κ) → Prop
  | steps {o₁ o₄ : Except PlatformError Unit} {b : Controller κ} {a : Scmi.Client} {H W P : List (Event κ)}
      {x : Exchange} {os : List (Except PollTimeout Unit)} :
      SetsWakeup core WakeupPolicy.allMasked .gic .wait false c o₁ b H →
      x.request = ⟨Enclave.releaseMasterId, []⟩ →
      Snapshot.RestoresWatchdogs c.snapshot.watchdogImages W os →
      Sends b.client [.domainPolicySet Layout.cluster.cpu runModePolicy] P o₄ a →
      ResumesSystem core c
        [o₁, (Enclave.verdict x.outcome).mapError .enclave, (firstFailure os).mapError .timeout, o₄]
        { b with client := a, snapshot := { c.snapshot with pinWakeup := false } }
        (.restoreGic c.snapshot.interrupts :: (H ++ (.enclave x ::
          (writes c.snapshot.flashCells ++ (writes c.snapshot.pinCells ++ (W ++ P))))))

theorem SetsWakeup.snapshot {masks : List UInt32} {flags : Scmi.WakeupFlags} {mode : Scmi.SleepMode} {entering : Bool}
    (h : SetsWakeup core masks flags mode entering c r d L) : d.snapshot = c.snapshot := by
  cases h <;> rfl

theorem takesAll_resumeSteps :
    TakesAll ((env.platform region).resumeSteps core) c (ResumesSystem core c) := by
  refine takesAll_cons (acts_powerUpNetwork.imp ?_)
  rintro o₁ b _ ⟨H, rfl, hH⟩
  refine takesAll_cons (acts_releaseFlash.imp ?_)
  rintro _ _ _ ⟨rfl, x, rfl, hx, rfl⟩
  refine takesAll_cons (acts_restoreContext.imp ?_)
  rintro _ _ _ ⟨rfl, os, rfl, W, hW, rfl⟩
  refine takesAll_cons (acts_send.imp ?_)
  rintro o₄ d P ⟨hP, hd⟩
  refine takesAll_nil ?_
  have hwakeup : (c.snapshot.pinWakeup && !ContextSet.peripherals.contains .pins) = false := Bool.and_false _
  rw [hH.snapshot] at hW hd ⊢
  rw [hd, hwakeup]
  have h := ResumesSystem.steps (c := c) hH hx hW hP
  -- Outside the interrupt controller everything is among the peripherals.
  change ResumesSystem core c _ _ (_ :: (H ++ (_ :: ((_ ++ (_ ++ W)) ++ (P ++ [])))))
  rw [List.append_nil, List.append_assoc, List.append_assoc]
  exact h

/-- How a resume goes. -/
inductive Resumes (core : Fin 4) (target : PowerState) (c : Controller κ) :
    Except PlatformError Unit → Controller κ → List (Event κ) → Prop
  | system {os : List (Except PlatformError Unit)} {d : Controller κ} {L : List (Event κ)} :
      target.system.isOff = true → ResumesSystem core c os d L →
      Resumes core target c (firstFailure os) d (L ++ if target.core.isOff then [.enableInterface core] else [])
  | core : target.system.isOff = false →
      Resumes core target c (.ok ()) c (if target.core.isOff then [.enableInterface core] else [])

/-- The interface of the core is enabled whether or not something failed, and the failure is told. -/
theorem acts_finish {Φ : Except PlatformError Unit → Controller κ → List (Event κ) → Prop}
    (h : Φ r c (if target.core.isOff then [.enableInterface core] else [])) :
    Acts (do
      if target.core.isOff then (env.platform region).gic.enableInterface core
      match failure? r with
      | some e => throw e
      | none => return () : Hook (History env) κ Unit) c Φ := by
  rcases hoff : target.core.isOff with _ | _
  · rw [hoff] at h
    cases r with
    | ok _ => exact .pure h
    | error e => exact .throw h
  · rw [hoff] at h
    refine .bind (.run (.did (fun _ => trivial) ?_))
    cases r with
    | ok _ => exact .pure h
    | error e => exact .throw h

theorem acts_domainSuspendFinish (hcore : env.core = core.val) :
    Acts ((env.platform region).domainSuspendFinish target) c (Resumes core target c) := by
  refine .bind (acts_thisCore hcore ?_)
  rcases hoff : target.system.isOff with _ | _
  · exact .bind (.pure (acts_finish (r := .ok ()) (Resumes.core hoff)))
  · refine .bind (.state (takesAll_resumeSteps.imp ?_))
    rintro ⟨_, d⟩ L ⟨os, rfl, hL⟩
    have h := Resumes.system hoff hL
    generalize firstFailure os = r at h ⊢
    cases r with
    | ok _ => exact acts_finish (r := .ok ()) h
    | error e => exact acts_finish (r := .error e) h

/-! ### The order of events -/

theorem SetsWakeup.sends {masks : List UInt32} {flags : Scmi.WakeupFlags} {mode : Scmi.SleepMode} {entering : Bool}
    (h : SetsWakeup core masks flags mode entering c r d L) :
    Sends c.client (armCommands core masks flags mode ++
      [.peripheralPolicySet Layout.cluster.cpu ((c.wakeup.evaluate masks).handshake entering).1]) L r d.client := by
  cases h with
  | unarmed h => exact h.stop
  | armed h h' => exact h.append h'

/-- Neither a wait nor a watchdog involves the enclave. -/
theorem filter_polled {a : Nat} {test : UInt32 → Bool} {o : Except PollTimeout Unit} (h : Polled a test L o) :
    L.filter Event.isEnclave = [] := by
  refine List.filter_eq_nil_iff.mpr fun e he => ?_
  rcases h.watches e he with ⟨w, rfl⟩ | ⟨t, rfl⟩ <;> exact Bool.false_ne_true

theorem filter_watchdogs {images : List (Nat × WatchdogImage)} {os : List (Except PollTimeout Unit)}
    (h : Snapshot.RestoresWatchdogs images L os) : L.filter Event.isEnclave = [] := by
  induction h with
  | nil => rfl
  | cons hdog _ ih =>
    rw [List.filter_append, ih, List.append_nil]
    cases hdog with
    | same => rfl
    | unlocked _ hL =>
      rw [List.filter_append, List.filter_append, filter_polled hL]
      rfl
    | locked _ hL hM =>
      rw [List.filter_append, List.filter_append, List.filter_append, filter_polled hL, filter_polled hM]
      rfl

theorem filter_writes {cells : List Cell} : (writes (κ := κ) cells).filter Event.isEnclave = [] := by
  rw [writes, List.filter_map, List.map_eq_nil_iff, List.filter_eq_nil_iff]
  exact fun _ _ h => Bool.noConfusion h

theorem filter_sends {a b : Scmi.Client} {cmds : List Scmi.Command} (h : Sends a cmds L r b) :
    L.filter Event.isEnclave = [] := by
  refine List.filter_eq_nil_iff.mpr fun e he => ?_
  obtain ⟨x, rfl⟩ := h.managers e he
  exact Bool.false_ne_true

theorem filter_steps (k : κ) (x : Exchange) (flash pins : List Cell) {H W P : List (Event κ)}
    (hH : H.filter Event.isEnclave = []) (hW : W.filter Event.isEnclave = []) (hP : P.filter Event.isEnclave = []) :
    (.restoreGic k :: (H ++ (.enclave x :: (writes flash ++ (writes pins ++ (W ++ P)))))).filter Event.isEnclave =
      [.enclave x] := by
  rw [List.filter_cons_of_neg Bool.false_ne_true, List.filter_append, hH, List.nil_append, List.filter_cons_of_pos rfl,
    List.filter_append, List.filter_append, List.filter_append, filter_writes, filter_writes, hW, hP]
  rfl

/-- A resume of the system restores the interrupt controller, hands wakeup back, has the enclave release
    the flash controllers, writes these, the pins and the watchdogs back, sets the policy of running and
    enables the core's interface, all in this order and whatever fails; and it fails as the first of the
    steps that failed. -/
theorem domainSuspendFinish_completes (region : DmaRegion (History env)) (hcore : env.core = core.val)
    (hoff : target.system.isOff = true) (c : Controller κ) (past : History env) :
    ∃ L outcome, (env.platform region).domainSuspendFinish target c past = (outcome, past.add L) ∧
      env.Allows past.events L ∧
      ((outcome = .error .hung ∧ env.Endless L) ∨
        ∃ r d b first handBack release watchdogs policy o₁ os, outcome = .ok (r, d) ∧
          L = .restoreGic c.snapshot.interrupts :: ((.manager first :: handBack) ++ (.enclave release ::
            (writes c.snapshot.flashCells ++ (writes c.snapshot.pinCells ++ (watchdogs ++ (.manager policy ::
              if target.core.isOff then [.enableInterface core] else [])))))) ∧
          first.request = (Scmi.Command.irqWakeSet Layout.cluster.cpu 0 WakeupPolicy.allMasked).request c.client.token ∧
          SetsWakeup core WakeupPolicy.allMasked .gic .wait false c o₁ b (.manager first :: handBack) ∧
          release.request = ⟨Enclave.releaseMasterId, []⟩ ∧ L.filter Event.isEnclave = [.enclave release] ∧
          Snapshot.RestoresWatchdogs c.snapshot.watchdogImages watchdogs os ∧
          policy.request = (Scmi.Command.domainPolicySet Layout.cluster.cpu runModePolicy).request b.client.token ∧
          r = firstFailure [o₁, (Enclave.verdict release.outcome).mapError .enclave,
            (firstFailure os).mapError .timeout,
            (Scmi.verdict (.domainPolicySet Layout.cluster.cpu runModePolicy) policy.outcome).mapError .scmi]) := by
  have acts : Acts ((env.platform region).domainSuspendFinish target) c (Resumes core target c) :=
    acts_domainSuspendFinish hcore
  obtain ⟨L, outcome, heq, allowed, hend⟩ := acts.outcome past
  refine ⟨L, outcome, heq, allowed, hend.imp_right ?_⟩
  rintro ⟨r, d, hout, h⟩
  refine ⟨r, d, ?_⟩
  cases h with
  | core h => rw [hoff] at h; cases h
  | system _ h =>
    obtain ⟨hback, hrelease, hdogs, hpolicy⟩ := h
    rename_i o₁ o₄ b a H W P release os
    obtain ⟨first, handBack, rfl, hfirst⟩ := hback.sends.first (by decide)
    obtain ⟨policy, rfl, hrequest, rfl⟩ := hpolicy.one (by decide)
    have hlast : (.manager policy :: if target.core.isOff then [.enableInterface core] else []).filter
        (Event.isEnclave (κ := κ)) = [] := by
      cases target.core.isOff <;> rfl
    have hone := filter_steps c.snapshot.interrupts release c.snapshot.flashCells c.snapshot.pinCells
      (filter_sends hback.sends) (filter_watchdogs hdogs) hlast
    refine ⟨b, first, handBack, release, W, policy, o₁, os, hout, ?_, hfirst, hback, hrelease, ?_, hdogs, hrequest, rfl⟩
    · simp only [List.cons_append, List.append_assoc, List.nil_append]
    · simp only [List.cons_append, List.append_assoc, List.nil_append]
      exact hone

/-- A world of which registers stay zero, the System Manager denies some requests, and the enclave is
    silent. -/
def denying (denied : Request → Bool) : Environment κ where
  load _ _ := 0
  tick _ := 0
  manager _ q := (.ok ⟨q.opcode, (if denied q then Scmi.Status.denied else .success).word, 0⟩, [])
  enclave _ _ := (.error .transport, [])
  saveGic _ k := k
  enableMask _ _ := 0
  core := 1
  patience := 1
  budget := .within 0

def noRegion : DmaRegion (History env) := ⟨0, 0, id, id, fun _ => #v[]⟩

theorem exists_of_outcome {α τ σ : Type} {x : Except Fault (α × τ) × σ} {a : α}
    (h : x.1.toOption.map (·.1) = some a) : ∃ d t, x = (.ok (a, d), t) := by
  rcases x with ⟨_ | ⟨a, d⟩, t⟩
  · cases h
  · cases h
    exact ⟨d, t, rfl⟩

/-- The snapshot of a watchdog that will not be seen reconfigured. -/
def unseenWatchdog : Controller Unit := { snapshot := { interrupts := (), watchdogs := [⟨0x2900, 5⟩] } }

/-- Everything fails, everything is attempted, and the first failure is told. -/
theorem domainSuspendFinish_completes_failing : ∃ L d release,
    ((denying fun _ => true).platform noRegion).domainSuspendFinish .allOff unseenWatchdog ⟨[]⟩ =
      (.ok (.error (.scmi (.status .denied)), d), (⟨[]⟩ : History (denying fun _ => true)).add L) ∧
    L.filter Event.isEnclave = [.enclave release] ∧ release.request = ⟨Enclave.releaseMasterId, []⟩ := by
  obtain ⟨d, t, h⟩ := exists_of_outcome (show (((denying fun _ => true).platform noRegion).domainSuspendFinish
    .allOff unseenWatchdog ⟨[]⟩).1.toOption.map (·.1) = some (.error (.scmi (.status .denied))) by decide +kernel)
  have hcore : (denying fun _ => true : Environment Unit).core = (1 : Fin 4).val := rfl
  have hoff : PowerState.allOff.system.isOff = true := rfl
  obtain ⟨L, outcome, heq, -, ⟨rfl, -⟩ | ⟨_, _, -, -, -, release, -, -, -, -, rfl, -, -, -, hrelease, hone, -⟩⟩ :=
    domainSuspendFinish_completes noRegion hcore hoff unseenWatchdog ⟨[]⟩
  · rw [h] at heq
    cases heq
  · rw [h] at heq
    cases heq
    exact ⟨L, d, release, h, hone, hrelease⟩

end Platform
end PowerFirmware
