import PowerFirmware.Bench.Basic
import PowerFirmware.Firmware
import PowerFirmware.Proofs.Limits.Hooks
import PowerFirmware.Proofs.Limits.Refusals

/-! The limits of the whole firmware. Main statements: in any number of hooks and calls to the monitor, one after
the other, nothing is out of range and no channel is given more than it takes (`Firmware.keeps_runAll`), and
this goes for every operation by itself and for the real transports (`limits_unreached`). -/

namespace PowerFirmware
open Run WakeupPolicy

variable {σ κ α : Type} [Machine σ] {p : Platform σ κ}

/-! ### The enclave -/

omit [Machine σ] in
theorem Run.Ends.mapError {ε ε' : Type} {E : ε → Prop} {E' : ε' → Prop} {Q : α → Prop} {f : ε → ε'} {o : Except ε α}
    (h : Ends E Q o) (hf : ∀ e, E e → E' (f e)) : Ends E' Q (o.mapError f) := by
  cases o with
  | ok a => exact h
  | error e => exact hf e h

namespace Platform

theorem ends_socInfo (hp : p.Suffices) : InRange p.socInfo (Ends PlatformError.FromOutside fun info =>
    ∃ bytes, bytes.length = SocInfo.size ∧ info = .ofBytes bytes) :=
  .bind (Enclave.ends_socInfo hp.enclave) fun _ ho => .pure (ho.mapError fun _ he => he)

theorem ends_random (hp : p.Suffices) (out : List UInt8) : InRange (p.random out) fun r =>
    Ends PlatformError.FromOutside (fun _ => True) r.1 ∧ r.2.length = out.length :=
  .bind (Enclave.ends_random hp.enclave out) fun _ h => .pure ⟨h.1.mapError fun _ he => he, h.2⟩

end Platform

/-! ### The monitor -/

namespace AgentTable

theorem keeps_survey {channel : Channel σ} (hchannel : channel.Admits SharedMemory.maxWords) :
    ∀ {ids : List Nat} {t : AgentTable}, Keeps (fun _ => True) (survey channel ids t) fun _ => True
  | [], _ => .pure trivial
  | id :: ids, t => by
    refine .bind (Q := Ends Scmi.Error.FromOutside fun _ => True) (Scmi.meets_query hchannel rfl) fun o _ => ?_
    cases o with
    | ok agent => exact keeps_survey hchannel
    | error e => exact .bind (.run .update) fun _ _ => keeps_survey hchannel

theorem keeps_resolve {channel : Channel σ} (hchannel : channel.Admits SharedMemory.maxWords) {t : AgentTable} :
    Keeps (fun _ => True) (t.resolve channel) fun _ => True := by
  refine .bind (Q := Ends Scmi.Error.FromOutside fun _ => True) (Scmi.meets_query hchannel rfl) fun o _ => ?_
  cases o with
  | error e => exact .pure trivial
  | ok attributes =>
    exact .bind (keeps_survey hchannel) fun _ _ => .bind (.forM fun _ _ => .run .update) fun _ _ => .pure trivial

end AgentTable

namespace Monitor
variable {m : Monitor} {function : UInt32} {a : CallArgs}

omit [Machine σ] in
theorem within_word {x : UInt64} : Within (word x : Hook σ κ UInt32) := .ite (.pure trivial) (.throw trivial)

theorem within_stopCore (hp : p.Suffices) : Within (m.stopCore p a) := by
  unfold stopCore
  split
  · exact .throw trivial
  · split
    · exact .throw trivial
    · exact .bind within_word fun _ _ => .bind (p.within_send hp rfl) fun _ _ => .bind (p.within_send hp rfl) fun _ _ =>
        .pure trivial

theorem within_controlCore (hp : p.Suffices) : Within (m.controlCore p a) := by
  unfold controlCore
  split
  · exact .throw trivial
  · exact .bind within_word fun _ _ => .bind within_word fun _ _ => .bind (p.within_send hp rfl) fun _ _ =>
      .pure trivial
  · exact .bind within_word fun _ _ => .bind (p.within_send hp rfl) fun _ _ => .bind (p.within_send hp rfl) fun _ _ =>
      .pure trivial
  · exact .bind within_word fun _ _ => .bind (Platform.within_request (Scmi.meets_query hp.manager rfl)) fun _ _ =>
      .pure trivial
  · exact within_stopCore hp

theorem within_controlMachine (hp : p.Suffices) : Within (controlMachine p a) := by
  unfold controlMachine
  split
  · exact .throw trivial
  · rename_i command _
    refine .bind within_word fun _ _ => ?_
    cases command with
    | boot | shutdown => exact .bind (p.within_send hp rfl) fun _ _ => .pure trivial

omit [Machine σ] in
theorem within_describeSoc : Within (m.describeSoc : Hook σ κ CallReturn) := by
  unfold describeSoc
  split
  · exact .throw trivial
  · exact .pure trivial

theorem within_dispatch (hp : p.Suffices) : Within (m.dispatch p function a) :=
  .ite (within_controlCore hp) (.ite (within_controlMachine hp) (.ite within_describeSoc (.throw trivial)))

theorem keeps_handle (hp : p.Suffices) : Keeps Controller.Sized (m.handle p function a) fun _ => True := by
  refine .bind (within_dispatch hp) fun o _ => ?_
  cases o with
  | ok r => exact .pure trivial
  | error e => exact .bind (.run .update) fun _ _ => .pure trivial

theorem keeps_init (hp : p.Suffices) : Keeps Controller.Sized (m.init p) fun _ => True := by
  refine .bind .get fun c hc => .bind (.run (AgentTable.keeps_resolve hp.manager c.client trivial)) ?_
  rintro ⟨⟨outcome, agents⟩, client⟩ -
  refine .bind (.set (hc.withClient client)) fun _ _ => ?_
  -- The rest is the same whether or not the agents were found.
  cases outcome
  case' error => refine .bind (.run .update) fun _ _ => ?_
  all_goals
    refine .bind (.run (p.ends_socInfo hp)) fun o _ => ?_
    cases o with
    | ok info => exact .pure trivial
    | error e => exact .bind (.run .update) fun _ _ => .pure trivial

theorem auxiliaryIndex_lt {x : UInt64} {i : Nat} (h : auxiliaryIndex? x = some i) : i < 3 := by
  unfold auxiliaryIndex? at h
  split at h
  · cases h; decide
  · split at h
    · cases h; decide
    · split at h
      · cases h; decide
      · cases h

theorem agentIndex_lt {name : String} {i : Nat} (h : agentNames.idxOf? name = some i) : i < 3 := by
  obtain ⟨hi, -⟩ := List.findIdx?_eq_some_iff_getElem.mp h
  exact hi

end Monitor

/-! ### Cores that there are not -/

/-- The core that a hook is about, if it is about one: the one it names, or else the calling one. -/
def HookCall.core? (caller : Nat) : HookCall → Option Nat
  | .on affinity => some (coreOfAffinity affinity)
  | .onFinish | .off | .suspend _ | .resume _ => some caller
  | .setup _ | .reset | .shutDown => none

omit [Machine σ] in
theorem Platform.thisCore_absent {c : Controller κ} {s : σ} (h : 4 ≤ p.cpu.index s) :
    p.thisCore c s = (.ok (.error .invalidArgument, c), s) := by
  have hview : (Run.view p.cpu.index : Run σ Nat) s = (.ok (p.cpu.index s), s) := rfl
  refine (bind_of_success (liftM_of_ok hview)).trans ?_
  rw [dif_neg (Nat.not_lt.mpr h)]
  rfl

/-- Such a core is refused at once. -/
theorem Platform.perform_absent {call : HookCall} {c : Controller κ} {s : σ} {core : Nat}
    (hcore : call.core? (p.cpu.index s) = some core) (h : 4 ≤ core) :
    p.perform call c s = (.ok (.error .invalidArgument, c), s) := by
  cases call with
  | setup | reset | shutDown => cases hcore
  | on affinity =>
    cases hcore
    show p.domainOn affinity c s = _
    rw [domainOn, dif_neg (Nat.not_lt.mpr h)]
    rfl
  | onFinish | off | suspend | resume =>
    cases hcore
    exact bind_of_failure (thisCore_absent h)

/-! ### Everything, one after the other -/

namespace Firmware

/-- What the firmware is called for. -/
inductive Entry
  | hook (call : HookCall)
  | renewMonitor
  | initMonitor
  | monitor (function : UInt32) (a : CallArgs)

/-- A call, apart from what it returns if it does not fail. -/
def enter (p : Platform σ κ) : Entry → Operation σ κ (Except PlatformError Unit)
  | .hook call => Firmware.hook (p.perform call)
  | .renewMonitor => do
    Firmware.renewMonitor
    return .ok ()
  | .initMonitor => do
    let _ ← Firmware.initMonitor p
    return .ok ()
  | .monitor function a => do
    let _ ← Firmware.handle p function a
    return .ok ()

/-- Calls one after the other, whether or not one fails. -/
def runAll (p : Platform σ κ) : List Entry → Operation σ κ (List (Except PlatformError Unit))
  | [] => return []
  | e :: es => do
    let outcome ← enter p e
    return outcome :: (← runAll p es)

/-- Nothing that the firmware keeps outgrows its table. -/
def Sized (f : Firmware κ) : Prop := f.controller.Sized

omit [Machine σ] in
theorem keeps_onController {x : StateT (Controller κ) (Run σ) α} {Q : α → Prop} (h : Keeps Controller.Sized x Q) :
    Keeps Sized (onController x) Q :=
  .bind .get fun f hf => .bind (.run (h f.controller hf)) fun _ hr => .bind (.set hr.2) fun _ _ => .pure hr.1

theorem keeps_enter (hp : p.Suffices) (e : Entry) :
    Keeps Sized (enter p e) (Ends PlatformError.FromOutside fun _ => True) := by
  cases e with
  | hook call => exact keeps_onController (p.within_perform hp call)
  | renewMonitor => exact .bind (Q := fun _ => True) (fun _ hf => .pure ⟨trivial, hf⟩) fun _ _ => .pure trivial
  | initMonitor =>
    refine .bind (Q := fun _ => True) (.bind .get fun f _ => ?_) fun _ _ => .pure trivial
    refine .bind (keeps_onController (Monitor.keeps_init hp)) fun m _ => ?_
    exact .bind (Q := fun _ => True) (fun _ hf => .pure ⟨trivial, hf⟩) fun _ _ => .pure trivial
  | monitor function a =>
    refine .bind (Q := fun _ => True) (.bind .get fun f _ => ?_) fun _ _ => .pure trivial
    exact keeps_onController (Monitor.keeps_handle hp)

theorem keeps_runAll (hp : p.Suffices) : ∀ es : List Entry,
    Keeps Sized (runAll p es) fun os => ∀ o ∈ os, Ends PlatformError.FromOutside (fun _ => True) o
  | [] => .pure fun _ ho => absurd ho List.not_mem_nil
  | e :: es => .bind (keeps_enter hp e) fun _ ho => .bind (keeps_runAll hp es) fun _ hos =>
    .pure (List.forall_mem_cons.mpr ⟨ho, hos⟩)

end Firmware

/-! ### Main statement -/

/-- Nothing that is done on the platform is out of range or more than a channel takes. Where failures are told
    of, they are no channel's own limit; where a controller is kept, it keeps the sizes of its tables. -/
structure Platform.WithinLimits (p : Platform σ κ) : Prop where
  operations : ∀ op : Scmi.Operation, op.command.fits = true →
    Meets (fun _ => True) Scmi.Error.FromOutside (op.run p.manager) fun _ => True
  tooLong : ∀ op : Scmi.Operation, op.command.fits = false → ∀ a s,
    op.run p.manager a s = (.ok (.error (.status .invalidParameters), a), s)
  hooks : ∀ call, Within (p.perform call)
  steps : ∀ core, ∀ step ∈ p.resumeSteps core, Within step.2
  absent : ∀ call c s core, call.core? (p.cpu.index s) = some core → 4 ≤ core →
    p.perform call c s = (.ok (.error .invalidArgument, c), s)
  handshakes : ∀ c : Controller κ, c.Sized → ∀ entering, (c.wakeup.handshake entering).1.length ≤ table.length
  calls : ∀ m function a, Within (Monitor.dispatch p m function a)
  slots : (∀ x i, auxiliaryIndex? x = some i → i < 3) ∧ ∀ name i, agentNames.idxOf? name = some i → i < 3
  socInfo : InRange p.socInfo (Ends PlatformError.FromOutside fun info =>
    ∃ bytes, bytes.length = SocInfo.size ∧ info = .ofBytes bytes)
  random : ∀ out, InRange (p.random out) fun r =>
    Ends PlatformError.FromOutside (fun _ => True) r.1 ∧ r.2.length = out.length
  trngState : InRange p.enclave.trngState (Ends Enclave.Error.FromOutside fun _ => True)
  releaseFlash : InRange p.enclave.releaseFlash (Ends Enclave.Error.FromOutside fun _ => True)
  course : ∀ interrupts entries,
    InRange ((Firmware.runAll p entries).run { controller := .initial interrupts }) fun r =>
      (∀ o ∈ r.1, Ends PlatformError.FromOutside (fun _ => True) o) ∧ r.2.Sized

theorem Platform.Suffices.withinLimits (hp : p.Suffices) : p.WithinLimits where
  operations _ hfits := Scmi.Operation.meets_run hp.manager hfits
  tooLong _ h a s := Scmi.Operation.run_of_tooLong h a s
  hooks call := p.within_perform hp call
  steps _ := p.within_resumeSteps hp
  absent _ _ _ _ hcore h := p.perform_absent hcore h
  handshakes _ hc _ := length_handshake_le hc.peripherals
  calls _ _ _ := Monitor.within_dispatch hp
  slots := ⟨fun _ _ => Monitor.auxiliaryIndex_lt, fun _ _ => Monitor.agentIndex_lt⟩
  socInfo := p.ends_socInfo hp
  random := p.ends_random hp
  trngState := Enclave.ends_trngState hp.enclave
  releaseFlash := Enclave.ends_releaseFlash hp.enclave
  course interrupts entries := Firmware.keeps_runAll hp entries _ (Controller.sized_initial interrupts)

/-- No limit is come upon from inside. A request of the agent has no more argument words than its kind has room
    for, and none more than the thirty-two that a shared area takes; a messaging unit takes four. If a platform's
    channels take as many, and its interrupt controller has the cores and sixteen banks, then nothing that the
    firmware is asked to do is out of range or too long for a channel, in whatever order and whatever the machine
    does and is replied. And no table of a hook is refused for its length: a status that a hook fails with, or a
    step of a resume, has been told by the System Manager. -/
theorem limits_unreached :
    (∀ cmd : Scmi.Command, cmd.fits = true → cmd.args.length ≤ cmd.room ∧ cmd.room ≤ SharedMemory.maxWords) ∧
    (∀ area : SharedMemory, (area.channel : Channel σ).Admits SharedMemory.maxWords) ∧
    (∀ u : MessagingUnit, (u.channel : Channel σ).Admits MessagingUnit.maxArgs) ∧
    (∀ p : Platform σ κ, p.Suffices → p.WithinLimits) ∧
    ∀ (env : Environment κ) (region : DmaRegion (History env)) (c : Controller κ), c.Sized →
      (∀ call, Acts ((env.platform region).perform call) c fun r _ L => Told r L) ∧
        ∀ core, ∀ step ∈ (env.platform region).resumeSteps core, Acts step.2 c fun r _ L => Told r L :=
  ⟨fun _ hfits => ⟨Scmi.Command.length_args_le hfits, Scmi.Command.room_le _⟩, SharedMemory.admits,
    MessagingUnit.admits, fun _ hp => hp.withinLimits, fun _ _ _ hc =>
      ⟨fun call => Platform.told_perform call hc.peripherals, fun _ => Platform.told_resumeSteps hc.peripherals⟩⟩

/-- The bench with the real transports, the register frames and the lock. -/
def Bench.board : Platform Bench.State InterruptFrames.Image where
  manager := SharedMemory.channel { area := Layout.managerArea, doorbell := Layout.managerUnit + 0x114 }
  enclave := ⟨MessagingUnit.channel { base := Layout.enclaveUnit }, Bench.region 0x1000 SocInfo.size⟩
  gic := (InterruptFrames.controller ⟨Layout.distributor, Layout.redistributors, 4, .millis 10⟩ (fun _ => pure ())
    fun _ => pure ()).synced ⟨Layout.managerLock⟩ Layout.defaultBudget
  cpu := Bench.cpu

theorem Bench.suffices_board : Bench.board.Suffices where
  manager := SharedMemory.admits _
  enclave := MessagingUnit.admits _
  gic := ((InterruptFrames.covers_controller (fun _ => .pure trivial) fun _ => .pure trivial).mono (Nat.le_refl 4)
    (by decide)).synced _ _

/-- The board, and a suspend that the System Manager denies. -/
theorem limits_unreached_board : Bench.board.WithinLimits ∧ ∃ L d,
    ((Platform.denying fun _ => true).platform Platform.noRegion).perform (.suspend .allOff)
        (Controller.initial ({} : InterruptFrames.Image)) ⟨[]⟩ =
      (.ok (.error (.scmi (.status .denied)), d), (⟨[]⟩ : History (Platform.denying fun _ => true)).add L) ∧
    ∃ x, .manager x ∈ L ∧ x.Tells .denied := by
  obtain ⟨-, -, -, hwithin, htold⟩ := limits_unreached (σ := Bench.State) (κ := InterruptFrames.Image)
  refine ⟨hwithin _ Bench.suffices_board, ?_⟩
  obtain ⟨d, t, h⟩ := Platform.exists_of_outcome (show (((Platform.denying fun _ => true).platform
    Platform.noRegion).perform (.suspend .allOff) (Controller.initial ({} : InterruptFrames.Image)) ⟨[]⟩).1.toOption.map
      (·.1) = some (.error (.scmi (.status .denied))) by decide +kernel)
  obtain ⟨hperform, -⟩ := htold (Platform.denying fun _ => true) Platform.noRegion _ (Controller.sized_initial {})
  obtain ⟨L, rfl, -, hL⟩ := (hperform (.suspend .allOff)).answered h
  exact ⟨L, d, h, hL _ rfl⟩

end PowerFirmware
