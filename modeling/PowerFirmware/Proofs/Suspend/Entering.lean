import PowerFirmware.Proofs.Requests
import PowerFirmware.Proofs.Snapshot.Events

/-! What a suspend does, step by step, and where it may stop. Main statement: a suspend of the system
leaves the core, saves the interrupt controller, hands wakeup over, saves the peripherals and sets the
policy, and what follows the first refused request is left out (`acts_domainSuspend`). -/

namespace PowerFirmware.Platform
open Run

variable {κ : Type} {env : Environment κ} {region : DmaRegion (History env)} {c d : Controller κ} {core : Fin 4}
variable {r : Except PlatformError Unit} {L M : List (Event κ)} {set : ContextSet} {target : PowerState}

theorem acts_saveContext : Acts ((env.platform region).saveContext set) c fun r d L => r = .ok () ∧
    ∃ s, d = { c with snapshot := s } ∧ c.snapshot.Retaken set s ∧ L = s.saveEvents set := by
  refine .bind (.get (.bind (.run (Snapshot.does_save.imp ?_))))
  rintro s _ ⟨hs, rfl⟩
  exact .modify ⟨rfl, s, rfl, hs, by simp only [List.nil_append, List.append_nil]⟩

/-! ### Wakeup -/

section Wakeup
variable {masks : List UInt32} {flags : Scmi.WakeupFlags} {mode : Scmi.SleepMode} {entering : Bool}

/-- What a core and the cluster wake by, before the peripherals are held or put back. -/
def armCommands (core : Fin 4) (masks : List UInt32) (flags : Scmi.WakeupFlags) (mode : Scmi.SleepMode) :
    List Scmi.Command :=
  [.irqWakeSet Layout.cluster.cpu 0 masks,
    .sleepModeSet (Layout.cpuOf core) (flags.union Scmi.WakeupFlags.resumeCpu) mode,
    .sleepModeSet Layout.cluster.cpu flags mode]

/-- How setting wakeup goes: the marks of the peripherals change only once everything before their
    request has been accepted. -/
inductive SetsWakeup (core : Fin 4) (masks : List UInt32) (flags : Scmi.WakeupFlags) (mode : Scmi.SleepMode)
    (entering : Bool) (c : Controller κ) : Except PlatformError Unit → Controller κ → List (Event κ) → Prop
  | unarmed {e : PlatformError} {a : Scmi.Client} {L : List (Event κ)} :
      Sends c.client (armCommands core masks flags mode) L (.error e) a →
      SetsWakeup core masks flags mode entering c (.error e)
        { c with client := a, wakeup := c.wakeup.evaluate masks } L
  | armed {r : Except PlatformError Unit} {a b : Scmi.Client} {L M : List (Event κ)} :
      Sends c.client (armCommands core masks flags mode) L (.ok ()) a →
      Sends a [.peripheralPolicySet Layout.cluster.cpu ((c.wakeup.evaluate masks).handshake entering).1] M r b →
      SetsWakeup core masks flags mode entering c r
        { c with client := b, wakeup := ((c.wakeup.evaluate masks).handshake entering).2 } (L ++ M)

theorem acts_setWakeup : Acts ((env.platform region).setWakeup core masks flags mode entering) c
    (SetsWakeup core masks flags mode entering c) := by
  refine .bind (.modify (.bind (acts_send.imp ?_)))
  rintro r₁ d₁ L₁ ⟨h₁, hd₁⟩
  cases r₁ with
  | error e =>
    rw [hd₁]
    exact .unarmed h₁.stop
  | ok _ =>
    refine .bind (acts_send.imp ?_)
    rintro r₂ d₂ L₂ ⟨h₂, hd₂⟩
    cases r₂ with
    | error e =>
      rw [hd₂, hd₁]
      exact .unarmed (h₁.append h₂.stop)
    | ok _ =>
      refine .bind (acts_send.imp ?_)
      rintro r₃ d₃ L₃ ⟨h₃, hd₃⟩
      have harm := h₁.append (h₂.append h₃)
      cases r₃ with
      | error e =>
        rw [hd₃, hd₂, hd₁]
        exact .unarmed harm
      | ok _ =>
        refine .bind (.get (.bind (.modify (.bind (acts_send.imp ?_)))))
        rintro r₄ d₄ L₄ ⟨h₄, hd₄⟩
        rw [hd₃, hd₂, hd₁] at hd₄ h₄
        rw [hd₄]
        have h := SetsWakeup.armed (c := c) harm h₄
        simp only [List.append_assoc] at h
        cases r₄ with
        | error e => exact h
        | ok _ =>
          refine .run (.log ?_)
          simp only [List.append_nil]
          exact h

/-- The enables of the interrupt controller as they are read for the given wake masks. -/
def maskReads (masks : List UInt32) : List (Event κ) :=
  (List.zipWith (fun bank mask => [.enableMask (bank + 1) (~~~mask)]) (List.range wakeBanks) masks).flatten

theorem does_capture {p : WakeupPolicy} : Does (E := env) (p.capture env.gic) fun x L =>
    x.1.length = wakeBanks ∧ x.2 = p.mark x.1 ∧ L = maskReads x.1 := by
  have hread : ∀ bank ∈ List.range wakeBanks, Does (E := env) (do return ~~~(← env.gic.enableMask (bank + 1)))
      fun mask L => True ∧ L = [.enableMask (bank + 1) (~~~mask)] := fun bank _ past =>
    ⟨[.enableMask (bank + 1) (env.enableMask past.events (bank + 1))], rfl, ⟨rfl, trivial⟩, trivial, by
      rw [UInt32.not_not]⟩
  refine .bind ((Does.mapM hread).imp ?_)
  rintro masks _ ⟨hlength, -, rfl⟩
  exact .pure ⟨by simpa using hlength, rfl, by simp [maskReads]⟩

/-- How handing wakeup over goes. -/
inductive HandsOver (core : Fin 4) (c : Controller κ) :
    Except PlatformError Unit → Controller κ → List (Event κ) → Prop
  | unmasked {e : PlatformError} {a : Scmi.Client} {L : List (Event κ)} :
      Sends c.client [.irqWakeSet (Layout.cpuOf core) 0 WakeupPolicy.allMasked] L (.error e) a →
      HandsOver core c (.error e) { c with client := a } L
  | masked {r : Except PlatformError Unit} {a : Scmi.Client} {d : Controller κ} {masks : List UInt32}
      {L M : List (Event κ)} :
      Sends c.client [.irqWakeSet (Layout.cpuOf core) 0 WakeupPolicy.allMasked] L (.ok ()) a →
      masks.length = wakeBanks →
      SetsWakeup core masks .gpc .suspend true { c with client := a, wakeup := c.wakeup.mark masks } r d M →
      HandsOver core c r d (L ++ (maskReads masks ++ M))

theorem acts_handWakeupOver : Acts ((env.platform region).handWakeupOver core) c (HandsOver core c) := by
  refine .bind (acts_send.imp ?_)
  rintro r₁ d₁ L₁ ⟨h₁, hd₁⟩
  cases r₁ with
  | error e =>
    rw [hd₁]
    exact .unmasked h₁
  | ok _ =>
    refine .bind (.get (.bind (.run (does_capture.imp ?_))))
    rintro ⟨masks, wakeup⟩ _ ⟨hmasks, hwakeup, rfl⟩
    simp only at hmasks hwakeup
    refine .bind (.modify (acts_setWakeup.imp ?_))
    rintro r₂ d₂ L₂ h₂
    rw [hwakeup, hd₁] at h₂
    exact .masked h₁ hmasks h₂

end Wakeup

/-! ### The system -/

/-- What is left of a snapshot when only the interrupt controller is saved anew. -/
theorem retaken_interrupts {s s' : Snapshot κ} (h : s.Retaken .interrupts s') :
    s' = { s with interrupts := s'.interrupts } := by
  have hwakeup : s'.pinWakeup = s.pinWakeup := by
    rw [h.pinWakeup]
    exact Bool.or_false _
  cases s'
  simp only [Snapshot.mk.injEq, true_and]
  exact ⟨h.flash rfl, h.pins rfl, h.watchdogs rfl, hwakeup⟩

/-- How suspending the system goes. -/
inductive SuspendsSystem (core : Fin 4) (c : Controller κ) :
    Except PlatformError Unit → Controller κ → List (Event κ) → Prop
  | held {k : κ} {e : PlatformError} {d : Controller κ} {L : List (Event κ)} :
      HandsOver core { c with snapshot := { c.snapshot with interrupts := k } } (.error e) d L →
      SuspendsSystem core c (.error e) d (.saveGic k :: L)
  | saved {k : κ} {r : Except PlatformError Unit} {b : Controller κ} {s : Snapshot κ} {a : Scmi.Client}
      {L M : List (Event κ)} :
      HandsOver core { c with snapshot := { c.snapshot with interrupts := k } } (.ok ()) b L →
      b.snapshot.Retaken .peripherals s →
      Sends b.client [.domainPolicySet Layout.cluster.cpu (suspendPolicy (s.pinWakeup || b.wakeup.hasWakeupIrq))]
        M r a →
      SuspendsSystem core c r { b with client := a, snapshot := s }
        (.saveGic k :: (L ++ (s.saveEvents .peripherals ++ M)))

theorem acts_suspendSystem : Acts ((env.platform region).suspendSystem core) c (SuspendsSystem core c) := by
  refine .bind (.bind (acts_saveContext.imp ?_))
  rintro _ _ _ ⟨rfl, s, rfl, hs, rfl⟩
  rw [retaken_interrupts hs]
  refine acts_handWakeupOver.imp ?_
  intro r₁ d₁ L₁ h₁
  cases r₁ with
  | error e => exact .held h₁
  | ok _ =>
    refine .bind (acts_saveContext.imp ?_)
    rintro _ _ _ ⟨rfl, s₂, rfl, hs₂, rfl⟩
    refine .bind (.get (.bind (acts_send.imp ?_)))
    rintro r₂ d₂ L₂ ⟨h₂, hd₂⟩
    have h := SuspendsSystem.saved (c := c) h₁ hs₂ h₂
    rw [hd₂]
    cases r₂ with
    | error e => exact h
    | ok _ =>
      refine .run (.log ?_)
      simp only [List.append_nil]
      exact h

/-! ### The core -/

theorem acts_thisCore {Φ : Except PlatformError (Fin 4) → Controller κ → List (Event κ) → Prop}
    (hcore : env.core = core.val) (h : Φ (.ok core) c []) : Acts (env.platform region).thisCore c Φ := by
  refine .bind (.run (.view fun _ => ?_))
  dsimp only [Environment.platform]
  split
  · refine .pure ?_
    simp only [hcore, List.append_nil]
    exact h
  · rename_i hlt
    exact absurd (hcore ▸ core.isLt) hlt

/-- What is asked before a core leaves. -/
def leaveCommands (core : Fin 4) (target : PowerState) (entry : UInt64) : List Scmi.Command :=
  if target.core.isOff then [.resetVectorSet (Layout.cpuOf core) .resume entry] else []

/-- How a core leaves, and its cluster with it. -/
def leaveEvents (core : Fin 4) (target : PowerState) : List (Event κ) :=
  (if target.core.isOff then [.disableInterface core] else []) ++
    if target.cluster.isRun then []
    else [.powerDownCluster (if target.cluster.isRetention then clusterRetention else clusterOff)]

/-- How a suspend goes. -/
inductive Suspends (core : Fin 4) (target : PowerState) (c : Controller κ) :
    Except PlatformError Unit → Controller κ → List (Event κ) → Prop
  | stays {e : PlatformError} {a : Scmi.Client} {L : List (Event κ)} :
      Sends c.client (leaveCommands core target c.entry) L (.error e) a →
      Suspends core target c (.error e) { c with client := a } L
  | leaves {r : Except PlatformError Unit} {a : Scmi.Client} {d : Controller κ} {L M : List (Event κ)} :
      Sends c.client (leaveCommands core target c.entry) L (.ok ()) a →
      (if target.system.isOff then SuspendsSystem core { c with client := a } r d M
        else r = .ok () ∧ d = { c with client := a } ∧ M = []) →
      Suspends core target c r d (L ++ (leaveEvents core target ++ M))

/-- What a suspend does once the core has been given its entry. -/
theorem acts_leave {a : Scmi.Client} (h : Sends c.client (leaveCommands core target c.entry) L (.ok ()) a) :
    Acts (do
        if !target.cluster.isRun then
          let word := if target.cluster.isRetention then clusterRetention else clusterOff
          (Run.update ((env.platform region).cpu.powerDownCluster word) : Run (History env) Unit)
        if target.system.isOff then (env.platform region).suspendSystem core : Hook (History env) κ Unit)
      { c with client := a } fun r d M =>
        Suspends core target c r d (L ++ ((if target.core.isOff then [.disableInterface core] else []) ++ M)) := by
  have hsystem : ∀ before : List (Event κ), leaveEvents core target =
      (if target.core.isOff then [.disableInterface core] else []) ++ before →
      Acts (if target.system.isOff then (env.platform region).suspendSystem core else pure ()) { c with client := a }
        fun r d M => Suspends core target c r d
          (L ++ ((if target.core.isOff then [.disableInterface core] else []) ++ (before ++ M))) := by
    intro before hbefore
    split
    · rename_i hoff
      refine acts_suspendSystem.imp fun r d M hM => ?_
      rw [← List.append_assoc _ before, ← hbefore]
      exact .leaves h (by rwa [if_pos hoff])
    · rename_i hoff
      refine .pure ?_
      rw [← List.append_assoc _ before, ← hbefore]
      exact .leaves h (by rw [if_neg hoff]; exact ⟨rfl, rfl, rfl⟩)
  rcases hrun : target.cluster.isRun with _ | _
  · refine .bind (.run (.did (fun _ => trivial) ?_))
    exact hsystem [_] (by simp [leaveEvents, hrun])
  · exact hsystem [] (by simp [leaveEvents, hrun])

theorem acts_domainSuspend (hcore : env.core = core.val) :
    Acts ((env.platform region).domainSuspend target) c (Suspends core target c) := by
  refine .bind (acts_thisCore hcore ?_)
  rcases hoff : target.core.isOff with _ | _
  · have hsends : Sends c.client (leaveCommands core target c.entry) ([] : List (Event κ)) (.ok ()) c.client := by
      rw [leaveCommands, hoff]
      exact .done
    refine (acts_leave hsends).imp fun r d M hM => ?_
    rw [hoff] at hM
    exact hM
  · refine .bind (.bind (.get (acts_send.imp ?_)))
    rintro r₁ d₁ L₁ ⟨h₁, hd₁⟩
    have hsends : Sends c.client (leaveCommands core target c.entry) L₁ r₁ d₁.client := by
      rw [leaveCommands, if_pos hoff]
      exact h₁
    rw [hd₁]
    cases r₁ with
    | error e => exact .stays hsends
    | ok _ =>
      refine .bind (.run (.did (fun _ => trivial) ?_))
      refine (acts_leave hsends).imp fun r d M hM => ?_
      rw [hoff] at hM
      exact hM

end PowerFirmware.Platform
