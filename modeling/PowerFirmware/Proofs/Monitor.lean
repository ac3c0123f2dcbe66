import PowerFirmware.Monitor
import PowerFirmware.Proofs.Answers
import PowerFirmware.Proofs.Settings
import PowerFirmware.Proofs.Suspend.Resuming

/-! What calls to the monitor have the System Manager do. Main statements: a call puts the requests to it
that go with the call, until one is refused (`acts_dispatch`), and a core that is none of the auxiliary
ones is reached exactly by the commands that do not check the number of their core
(`handle_onlyAuxiliary_iff`). -/

namespace PowerFirmware
open Run

namespace Monitor

variable {κ α : Type} {env : Environment κ} {region : DmaRegion (History env)} {m : Monitor} {a : CallArgs}
variable {function : UInt32} {c d : Controller κ} {cmd : Scmi.Command} {L : List (Event κ)} {x : UInt64}

/-! ### Requests -/

/-- A register as the word that it holds. -/
def word? (x : UInt64) : Except PlatformError UInt32 :=
  if x.toNat < UInt32.size then .ok x.toUInt32 else .error .invalidArgument

/-- What a command on an auxiliary core asks for, or why it is refused at once. -/
def coreRequests (m : Monitor) (a : CallArgs) : CoreCommand → Except PlatformError (List Scmi.Command)
  | .resetAddrSet => do
    let flags ← word? a.x3
    let cpu ← word? a.x4
    return [.resetVectorSet cpu ⟨flags⟩ a.x2]
  | .start => do
    let cpu ← word? a.x3
    return [.resetVectorSet cpu .boot a.x2, .cpuStart cpu]
  | .started => do
    let cpu ← word? a.x3
    return [.cpuInfo cpu]
  | .stop =>
    match auxiliaryIndex? a.x3 with
    | none => .error .invalidArgument
    | some i =>
      match m.agents.agent? i with
      | none => .error .notFound
      | some agent => do
        let cpu ← word? a.x3
        return [.cpuStop cpu, .resetAgent agent 0]

def machineRequests (a : CallArgs) (command : MachineCommand) : Except PlatformError (List Scmi.Command) := do
  let machine ← word? a.x2
  match command with
  | .boot => return [.machineBoot machine]
  | .shutdown => return [.machineShutdown machine .graceful]

/-- What a call asks for, or why it is refused at once. -/
def requests (m : Monitor) (function : UInt32) (a : CallArgs) : Except PlatformError (List Scmi.Command) :=
  if function == coreFunction then
    match CoreCommand.ofCode? a.x1 with
    | none => .error .unknownCall
    | some command => m.coreRequests a command
  else if function == machineFunction then
    match MachineCommand.ofCode? a.x1 with
    | none => .error .unknownCall
    | some command => machineRequests a command
  else if function == socInfoFunction then
    match m.socInfo with
    | none => .error .notFound
    | some _ => .ok []
  else .error .unknownCall

/-- The requests are put to the System Manager, or the call is refused without any. -/
inductive Serves (c : Controller κ) :
    Except PlatformError (List Scmi.Command) → Except PlatformError Unit → Controller κ → List (Event κ) → Prop
  | refused {e : PlatformError} : Serves c (.error e) (.error e) c []
  | sent {cmds : List Scmi.Command} {r : Except PlatformError Unit} {b : Scmi.Client} {L : List (Event κ)} :
      Sends c.client cmds L r b → Serves c (.ok cmds) r { c with client := b } L

variable {requests : Except PlatformError (List Scmi.Command)}

/-- A call goes as its requests do. -/
abbrev ActsBy (E : Environment κ) (x : Hook (History E) κ α) (c : Controller κ)
    (requests : Except PlatformError (List Scmi.Command)) : Prop :=
  Acts x c fun r d L => Serves c requests (r.map fun _ => ()) d L

theorem acts_word {f : UInt32 → Hook (History env) κ α} {g : UInt32 → Except PlatformError (List Scmi.Command)}
    (h : ∀ w, ActsBy env (f w) c (g w)) : ActsBy env (word x >>= f) c (word? x >>= g) := by
  unfold word word?
  split
  · exact .bind (.pure (h _))
  · exact .bind (.throw .refused)

theorem acts_done {a : α} : ActsBy env (pure a) c (.ok []) := .pure (.sent .done)

/-- What is sent first comes first. -/
theorem acts_next {cmds : List Scmi.Command} {f : Unit → Hook (History env) κ α}
    (h : ∀ d, ActsBy env (f ()) d (.ok cmds)) :
    ActsBy env ((env.platform region).send cmd >>= f) c (.ok (cmd :: cmds)) := by
  refine .bind (acts_send.imp ?_)
  rintro r d L ⟨hL, hd⟩
  rw [hd]
  cases r with
  | error e => exact .sent hL.stop
  | ok _ =>
    refine (h _).imp ?_
    rintro r' e M hM
    cases hM with
    | sent hM => exact .sent (hL.append hM)

theorem acts_coreStarted : ActsBy env (coreStarted (env.platform region) a) c (m.coreRequests a .started) := by
  refine acts_word fun cpu => .bind (acts_request (.bind (acts_call.imp ?_)))
  rintro o b L hL
  cases o with
  | error e => exact .sent hL
  | ok _ =>
    refine .pure (.pure ?_)
    rw [List.append_nil, List.append_nil]
    exact .sent hL

theorem acts_stopCore : ActsBy env (m.stopCore (env.platform region) a) c (m.coreRequests a .stop) := by
  unfold stopCore
  dsimp only [coreRequests]
  cases auxiliaryIndex? a.x3 with
  | none => exact .throw .refused
  | some i =>
    dsimp only
    cases m.agents.agent? i with
    | none => exact .throw .refused
    | some agent => exact acts_word fun cpu => acts_next fun _ => acts_next fun _ => acts_done

theorem acts_controlCore {command : CoreCommand} (h : CoreCommand.ofCode? a.x1 = some command) :
    ActsBy env (m.controlCore (env.platform region) a) c (m.coreRequests a command) := by
  unfold controlCore
  rw [h]
  cases command with
  | start => exact acts_word fun cpu => acts_next fun _ => acts_next fun _ => acts_done
  | started => exact acts_coreStarted
  | stop => exact acts_stopCore
  | resetAddrSet => exact acts_word fun flags => acts_word fun cpu => acts_next fun _ => acts_done

theorem acts_controlMachine {command : MachineCommand} (h : MachineCommand.ofCode? a.x1 = some command) :
    ActsBy env (controlMachine (env.platform region) a) c (machineRequests a command) := by
  unfold controlMachine
  rw [h]
  refine acts_word fun machine => ?_
  cases command with
  | boot => exact acts_next fun _ => acts_done
  | shutdown => exact acts_next fun _ => acts_done

theorem acts_dispatch :
    ActsBy env (m.dispatch (env.platform region) function a) c (m.requests function a) := by
  unfold dispatch Monitor.requests
  split
  · rcases h : CoreCommand.ofCode? a.x1 with _ | command
    · unfold controlCore
      rw [h]
      exact .throw .refused
    · exact acts_controlCore h
  · split
    · rcases h : MachineCommand.ofCode? a.x1 with _ | command
      · unfold controlMachine
        rw [h]
        exact .throw .refused
      · exact acts_controlMachine h
    · split
      · unfold describeSoc
        cases m.socInfo with
        | none => exact .throw .refused
        | some info => exact acts_done
      · exact .throw .refused

/-! ### Answers -/

theorem concludes_word : Concludes (word x : Hook (History env) κ UInt32) := by
  unfold word
  exact .ite .pure .throw

theorem concludes_cpuInfo {cpu : UInt32} : Concludes (Scmi.Client.cpuInfo (env.platform region).manager cpu) :=
  .bind concludes_call fun _ => .pure

theorem concludes_controlCore : Concludes (m.controlCore (env.platform region) a) := by
  unfold controlCore
  split
  · exact .throw
  · exact .bind concludes_word fun _ => .bind concludes_word fun _ => .bind concludes_send fun _ => .pure
  · exact .bind concludes_word fun _ => .bind concludes_send fun _ => .bind concludes_send fun _ => .pure
  · exact .bind concludes_word fun _ => .bind (concludes_request concludes_cpuInfo) fun _ => .pure
  · unfold stopCore
    split
    · exact .throw
    · split
      · exact .throw
      · exact .bind concludes_word fun _ => .bind concludes_send fun _ => .bind concludes_send fun _ => .pure

theorem concludes_controlMachine : Concludes (controlMachine (env.platform region) a) := by
  unfold controlMachine
  split
  · exact .throw
  · refine .bind concludes_word fun _ => ?_
    split
    · exact .bind concludes_send fun _ => .pure
    · exact .bind concludes_send fun _ => .pure

theorem concludes_describeSoc : Concludes (m.describeSoc : Hook (History env) κ CallReturn) := by
  unfold describeSoc
  split
  · exact .throw
  · exact .pure

theorem concludes_dispatch : Concludes (m.dispatch (env.platform region) function a) :=
  .ite concludes_controlCore (.ite concludes_controlMachine (.ite concludes_describeSoc .throw))

/-- What a call returns by how its function ended. -/
def answerOf : Except PlatformError CallReturn → CallReturn
  | .ok answer => answer
  | .error e => .ofError e

/-- A call is always answered, and goes as its function does. -/
theorem handle_of_dispatch {Φ : Except PlatformError CallReturn → Controller κ → List (Event κ) → Prop}
    (h : Acts (m.dispatch (env.platform region) function a) c Φ) (past : History env) :
    ∃ r d L, m.handle (env.platform region) function a c past = (.ok (answerOf r, d), past.add L) ∧ Φ r d L := by
  have hdoes : Does ((m.handle (env.platform region) function a).run c) fun x L =>
      ∃ r, x.1 = answerOf r ∧ Φ r x.2 L := by
    refine .bind (Does.imp h ?_)
    rintro ⟨_ | answer, d⟩ L hL
    · change Does ((log _ _ : Run (History env) Unit) >>= fun _ => Pure.pure (_, d)) _
      refine .bind (.log (.pure ?_))
      rw [List.append_nil, List.append_nil]
      exact ⟨_, rfl, hL⟩
    · refine .pure ?_
      rw [List.append_nil]
      exact ⟨_, rfl, hL⟩
  have hanswers : Answers ((m.handle (env.platform region) function a).run c) := by
    refine .bind (concludes_dispatch c) ?_
    rintro ⟨_ | answer, d⟩
    · change Answers ((log _ _ : Run (History env) Unit) >>= fun _ => Pure.pure (_, d))
      exact .bind .update fun _ => .pure
    · exact .pure
  obtain ⟨⟨_, d⟩, L, heq, -, r, rfl, h⟩ := hdoes.answers hanswers past
  exact ⟨r, d, L, heq, h⟩

/-- A call is always answered, and goes as its requests do. -/
theorem handle_answers (region : DmaRegion (History env)) (m : Monitor) (function : UInt32) (a : CallArgs)
    (c : Controller κ) (past : History env) :
    ∃ answer d L, m.handle (env.platform region) function a c past = (.ok (answer, d), past.add L) ∧
      ∃ r, Serves c (m.requests function a) r d L := by
  obtain ⟨r, d, L, heq, h⟩ := handle_of_dispatch acts_dispatch past
  exact ⟨answerOf r, d, L, heq, _, h⟩

/-! ### Cores -/

/-- Whether the number is that of an auxiliary core. -/
def isAuxiliary (cpu : UInt32) : Bool := (auxiliaryIndex? cpu.toUInt64).isSome

/-- All that was put to the System Manager are commands, and none of them is about a CPU that is no
    auxiliary core. -/
def OnlyAuxiliary (L : List (Event κ)) : Prop :=
  ∀ o ∈ commands L, ∃ cmd, o = some cmd ∧ ∀ cpu, cmd.cpu? = some cpu → isAuxiliary cpu = true

/-- The core that a command names by a number that is not checked. -/
def unchecked? (a : CallArgs) : CoreCommand → Option UInt32
  | .start | .started => (word? a.x3).toOption
  | .stop => none
  | .resetAddrSet => (word? a.x3).toOption.bind fun _ => (word? a.x4).toOption

/-- The core that a call names by a number that is not checked. -/
def uncheckedCore? (function : UInt32) (a : CallArgs) : Option UInt32 :=
  if function == coreFunction then (CoreCommand.ofCode? a.x1).bind (unchecked? a) else none

theorem toUInt64_of_word? {w : UInt32} (h : word? x = .ok w) : w.toUInt64 = x := by
  unfold word? at h
  split at h
  · rename_i hlt
    cases h
    apply UInt64.toNat_inj.mp
    rw [UInt32.toNat_toUInt64, UInt64.toNat_toUInt32]
    exact Nat.mod_eq_of_lt hlt
  · cases h

section Cores
variable {cpu : UInt32} {cmds : List Scmi.Command} {command : CoreCommand}

/-- A core that is named without a check is what every request is about. -/
theorem coreRequests_of_unchecked (h : unchecked? a command = some cpu) : ∃ first rest,
    m.coreRequests a command = .ok (first :: rest) ∧ first.fits = true ∧
      ∀ cmd ∈ first :: rest, cmd.cpu? = some cpu := by
  cases command with
  | stop => cases h
  | start =>
    rcases hcpu : word? a.x3 with _ | w <;> rw [unchecked?, hcpu] at h <;> cases h
    refine ⟨.resetVectorSet cpu .boot a.x2, [.cpuStart cpu], ?_, rfl, by simp [Scmi.Command.cpu?]⟩
    rw [coreRequests, hcpu]
    rfl
  | started =>
    rcases hcpu : word? a.x3 with _ | w <;> rw [unchecked?, hcpu] at h <;> cases h
    refine ⟨.cpuInfo cpu, [], ?_, rfl, by simp [Scmi.Command.cpu?]⟩
    rw [coreRequests, hcpu]
    rfl
  | resetAddrSet =>
    rcases hflags : word? a.x3 with _ | flags <;> rw [unchecked?, hflags] at h
    · cases h
    · rcases hcpu : word? a.x4 with _ | w <;> rw [hcpu] at h <;> cases h
      refine ⟨.resetVectorSet cpu ⟨flags⟩ a.x2, [], ?_, rfl, by simp [Scmi.Command.cpu?]⟩
      rw [coreRequests, hflags, hcpu]
      rfl

theorem coreRequests_of_checked (h : unchecked? a command = none) (hcmds : m.coreRequests a command = .ok cmds) :
    ∀ cmd ∈ cmds, cmd.cpu? = some cpu → isAuxiliary cpu = true := by
  cases command with
  | start =>
    rcases hcpu : word? a.x3 with _ | w
    · rw [coreRequests, hcpu] at hcmds
      cases hcmds
    · rw [unchecked?, hcpu] at h
      cases h
  | started =>
    rcases hcpu : word? a.x3 with _ | w
    · rw [coreRequests, hcpu] at hcmds
      cases hcmds
    · rw [unchecked?, hcpu] at h
      cases h
  | stop =>
    rcases hindex : auxiliaryIndex? a.x3 with _ | i <;> rw [coreRequests, hindex] at hcmds
    · cases hcmds
    · dsimp only at hcmds
      rcases hagent : m.agents.agent? i with _ | agent <;> rw [hagent] at hcmds
      · cases hcmds
      · rcases hcpu : word? a.x3 with _ | w <;> rw [hcpu] at hcmds <;> cases hcmds
        intro cmd hcmd hcpu'
        simp only [List.mem_cons, List.not_mem_nil, or_false] at hcmd
        rcases hcmd with rfl | rfl
        · cases hcpu'
          rw [isAuxiliary, toUInt64_of_word? hcpu, hindex]
          rfl
        · cases hcpu'
  | resetAddrSet =>
    rcases hflags : word? a.x3 with _ | flags
    · rw [coreRequests, hflags] at hcmds
      cases hcmds
    · rcases hcpu : word? a.x4 with _ | w
      · rw [coreRequests, hflags, hcpu] at hcmds
        cases hcmds
      · rw [unchecked?, hflags, hcpu] at h
        cases h

theorem machineRequests_cpu? {command : MachineCommand} (h : machineRequests a command = .ok cmds) :
    ∀ cmd ∈ cmds, cmd.cpu? = none := by
  unfold machineRequests at h
  rcases hmachine : word? a.x2 with _ | machine <;> rw [hmachine] at h
  · cases h
  · cases command <;> cases h <;> simp [Scmi.Command.cpu?]

theorem requests_of_checked (h : uncheckedCore? function a = none) (hcmds : m.requests function a = .ok cmds) :
    ∀ cmd ∈ cmds, cmd.cpu? = some cpu → isAuxiliary cpu = true := by
  unfold Monitor.requests at hcmds
  unfold uncheckedCore? at h
  split at hcmds
  · rename_i hfunction
    rw [if_pos hfunction] at h
    rcases hcode : CoreCommand.ofCode? a.x1 with _ | command <;> rw [hcode] at h hcmds
    · cases hcmds
    · exact coreRequests_of_checked h hcmds
  · split at hcmds
    · rcases hcode : MachineCommand.ofCode? a.x1 with _ | command <;> rw [hcode] at hcmds
      · cases hcmds
      · intro cmd hcmd hcpu
        rw [machineRequests_cpu? hcmds cmd hcmd] at hcpu
        cases hcpu
    · split at hcmds
      · cases hinfo : m.socInfo <;> rw [hinfo] at hcmds <;> cases hcmds
        exact fun _ hcmd => absurd hcmd List.not_mem_nil
      · cases hcmds

theorem requests_of_unchecked (h : uncheckedCore? function a = some cpu) : ∃ first rest,
    m.requests function a = .ok (first :: rest) ∧ first.fits = true ∧
      ∀ cmd ∈ first :: rest, cmd.cpu? = some cpu := by
  unfold uncheckedCore? at h
  split at h
  · rename_i hfunction
    obtain ⟨command, hcode, hcommand⟩ := Option.bind_eq_some_iff.mp h
    rw [Monitor.requests, if_pos hfunction, hcode]
    exact coreRequests_of_unchecked hcommand
  · cases h

theorem Serves.onlyAuxiliary {r : Except PlatformError Unit} (h : Serves c requests r d L)
    (hrequests : ∀ cmds, requests = .ok cmds → ∀ cmd ∈ cmds, ∀ cpu, cmd.cpu? = some cpu → isAuxiliary cpu = true) :
    OnlyAuxiliary L := by
  cases h with
  | refused => exact fun _ ho => absurd ho List.not_mem_nil
  | @sent cmds r b L h =>
    intro o ho
    obtain ⟨x, hx, rfl⟩ := List.mem_map.mp ho
    obtain ⟨cmd, hcmd, hxcmd⟩ := h.mem_commands hx
    exact ⟨cmd, hxcmd, hrequests cmds rfl cmd hcmd⟩

theorem Serves.first {r : Except PlatformError Unit} {rest : List Scmi.Command}
    (h : Serves c (.ok (cmd :: rest)) r d L) (hfits : cmd.fits = true) : some cmd ∈ commands L := by
  cases h with
  | sent h =>
    obtain ⟨x, M, rfl, hx⟩ := h.first hfits
    exact List.mem_map.mpr ⟨x, mem_exchanges.mpr List.mem_cons_self, command?_request hx⟩

/-- A call keeps to the auxiliary cores exactly if the core that it names without a check, should it name
    one, is auxiliary. -/
theorem handle_onlyAuxiliary_iff (region : DmaRegion (History env)) (m : Monitor) (function : UInt32) (a : CallArgs)
    (c : Controller κ) (past : History env) :
    ∃ answer d L, m.handle (env.platform region) function a c past = (.ok (answer, d), past.add L) ∧
      (OnlyAuxiliary L ↔ ∀ cpu, uncheckedCore? function a = some cpu → isAuxiliary cpu = true) := by
  obtain ⟨answer, d, L, heq, r, hserves⟩ := handle_answers region m function a c past
  refine ⟨answer, d, L, heq, ?_, ?_⟩
  · intro honly cpu hcpu
    obtain ⟨first, rest, hrequests, hfits, hall⟩ := requests_of_unchecked (m := m) hcpu
    rw [hrequests] at hserves
    obtain ⟨cmd, hcmd, hauxiliary⟩ := honly _ (hserves.first hfits)
    cases hcmd
    exact hauxiliary cpu (hall first List.mem_cons_self)
  · intro hauxiliary
    refine hserves.onlyAuxiliary fun cmds hcmds cmd hcmd cpu hcpu => ?_
    rcases hnamed : uncheckedCore? function a with _ | named
    · exact requests_of_checked hnamed hcmds cmd hcmd hcpu
    · obtain ⟨first, rest, hrequests, -, hall⟩ := requests_of_unchecked (m := m) hnamed
      rw [hcmds] at hrequests
      cases hrequests
      rw [hall cmd hcmd] at hcpu
      cases hcpu
      exact hauxiliary cpu hnamed

end Cores

/-- A call that starts an application core at an address of the caller's choice. -/
def startApplicationCore : CallArgs := { x1 := CoreCommand.start.code, x2 := 0x90200000, x3 := 2 }

theorem handle_starts_applicationCore : ∃ answer d L,
    ({} : Monitor).handle ((Platform.denying fun _ => false).platform Platform.noRegion) coreFunction
      startApplicationCore ({ snapshot := { interrupts := () } } : Controller Unit) ⟨[]⟩ =
      (.ok (answer, d), (⟨[]⟩ : History (Platform.denying fun _ => false)).add L) ∧
    commands L = [some (.resetVectorSet 2 .boot 0x90200000), some (.cpuStart 2)] ∧ ¬OnlyAuxiliary L := by
  obtain ⟨answer, d, L, heq, -⟩ := handle_answers Platform.noRegion {} coreFunction startApplicationCore
    ({ snapshot := { interrupts := () } } : Controller Unit)
    (⟨[]⟩ : History (Platform.denying fun _ => false))
  have hcommands : commands (({} : Monitor).handle ((Platform.denying fun _ => false).platform Platform.noRegion)
      coreFunction startApplicationCore ({ snapshot := { interrupts := () } } : Controller Unit) ⟨[]⟩).2.events =
      [some (.resetVectorSet 2 .boot 0x90200000), some (.cpuStart 2)] := by decide +kernel
  rw [heq] at hcommands
  change commands L = _ at hcommands
  refine ⟨answer, d, L, heq, hcommands, fun honly => ?_⟩
  obtain ⟨cmd, hcmd, hcpu⟩ := honly (some (.cpuStart 2)) (by rw [hcommands]; decide)
  cases hcmd
  exact absurd (hcpu 2 rfl) (by decide)

end Monitor
end PowerFirmware
