import PowerFirmware.Proofs.Monitor

/-! The status that a call to the monitor returns. Main statement: it is negative exactly if the call was
refused or the System Manager did not accept a request, it is then the code of the first failure, after
which nothing is sent, and otherwise it is zero, or tells whether a core is running (`handle_status`). -/

namespace PowerFirmware
open Run

namespace Monitor

variable {κ α : Type} {env : Environment κ} {region : DmaRegion (History env)} {m : Monitor} {a : CallArgs}
variable {function : UInt32} {c d : Controller κ} {L : List (Event κ)} {e : PlatformError}

/-- A failure is told by its code. -/
theorem status_ofError (e : PlatformError) : (CallReturn.ofError e).status = e.callCode := by
  cases e with
  | scmi e =>
    cases e with
    | status s => cases s <;> rfl
    | channel _ => rfl
    | badResponse => rfl
  | _ => rfl

/-! ### Refused calls -/

/-- A call that is refused at once, and why: the function or its command is not known, a register that must
    hold a word holds more, the core to be stopped is none of the auxiliary ones or has no agent, or the
    descriptor of the chip is missing. -/
inductive Refused (m : Monitor) (function : UInt32) (a : CallArgs) : PlatformError → Prop
  | function : function ≠ coreFunction → function ≠ machineFunction → function ≠ socInfoFunction →
      Refused m function a .unknownCall
  | coreCommand : function = coreFunction → CoreCommand.ofCode? a.x1 = none → Refused m function a .unknownCall
  | machineCommand : function = machineFunction → MachineCommand.ofCode? a.x1 = none →
      Refused m function a .unknownCall
  | vector : function = coreFunction → CoreCommand.ofCode? a.x1 = some .resetAddrSet →
      UInt32.size ≤ a.x3.toNat ∨ UInt32.size ≤ a.x4.toNat → Refused m function a .invalidArgument
  | core {command : CoreCommand} : function = coreFunction → CoreCommand.ofCode? a.x1 = some command →
      command = .start ∨ command = .started → UInt32.size ≤ a.x3.toNat → Refused m function a .invalidArgument
  | noAuxiliary : function = coreFunction → CoreCommand.ofCode? a.x1 = some .stop → auxiliaryIndex? a.x3 = none →
      Refused m function a .invalidArgument
  | noAgent {i : Nat} : function = coreFunction → CoreCommand.ofCode? a.x1 = some .stop →
      auxiliaryIndex? a.x3 = some i → m.agents.agent? i = none → Refused m function a .notFound
  | machine : function = machineFunction → (MachineCommand.ofCode? a.x1).isSome = true → UInt32.size ≤ a.x2.toNat →
      Refused m function a .invalidArgument
  | descriptor : function = socInfoFunction → m.socInfo = none → Refused m function a .notFound

theorem Refused.code_neg (h : Refused m function a e) : e.callCode < 0 := by
  cases h <;> decide

theorem bind_eq_error {α β : Type} {x : Except PlatformError α} {f : α → Except PlatformError β} :
    (x >>= f) = .error e ↔ x = .error e ∨ ∃ v, x = .ok v ∧ f v = .error e := by
  cases x <;> simp [bind, Except.bind]

theorem word?_eq_error {x : UInt64} : word? x = .error e ↔ e = .invalidArgument ∧ UInt32.size ≤ x.toNat := by
  unfold word?
  split
  · rename_i hlt
    refine ⟨nofun, fun h => ?_⟩
    exact absurd (show x.toNat < UInt32.size from hlt) (Nat.not_lt.mpr h.2)
  · rename_i hnot
    exact ⟨fun h => ⟨(Except.error.inj h).symm, Nat.not_lt.mp hnot⟩, fun h => h.1 ▸ rfl⟩

/-- Where a word is read first, what fails is that reading or what comes after it. -/
theorem word?_bind_eq_error {β : Type} {x : UInt64} {f : UInt32 → Except PlatformError β} :
    (word? x >>= f) = .error e ↔
      (e = .invalidArgument ∧ UInt32.size ≤ x.toNat) ∨ ∃ w, word? x = .ok w ∧ f w = .error e := by
  rw [bind_eq_error, word?_eq_error]

/-- The number of an auxiliary core is a word. -/
theorem toNat_lt_of_auxiliary {x : UInt64} {i : Nat} (h : auxiliaryIndex? x = some i) : x.toNat < UInt32.size := by
  unfold auxiliaryIndex? at h
  split at h
  · rename_i hx
    rw [beq_iff_eq.mp hx]
    decide
  · split at h
    · rename_i hx
      rw [beq_iff_eq.mp hx]
      decide
    · split at h
      · rename_i hx
        rw [beq_iff_eq.mp hx]
        decide
      · cases h

theorem coreRequests_eq_error {command : CoreCommand} (hfunction : function = coreFunction)
    (hcommand : CoreCommand.ofCode? a.x1 = some command) (h : m.coreRequests a command = .error e) :
    Refused m function a e := by
  cases command with
  | start =>
    rcases word?_bind_eq_error.mp h with ⟨rfl, hwide⟩ | ⟨_, -, h⟩
    · exact .core hfunction hcommand (.inl rfl) hwide
    · cases h
  | started =>
    rcases word?_bind_eq_error.mp h with ⟨rfl, hwide⟩ | ⟨_, -, h⟩
    · exact .core hfunction hcommand (.inr rfl) hwide
    · cases h
  | resetAddrSet =>
    rcases word?_bind_eq_error.mp h with ⟨rfl, hwide⟩ | ⟨_, -, h⟩
    · exact .vector hfunction hcommand (.inl hwide)
    · rcases word?_bind_eq_error.mp h with ⟨rfl, hwide⟩ | ⟨_, -, h⟩
      · exact .vector hfunction hcommand (.inr hwide)
      · cases h
  | stop =>
    dsimp only [coreRequests] at h
    split at h
    · rename_i hindex
      cases h
      exact .noAuxiliary hfunction hcommand hindex
    · rename_i i hindex
      split at h
      · rename_i hagent
        cases h
        exact .noAgent hfunction hcommand hindex hagent
      · rcases word?_bind_eq_error.mp h with ⟨-, hwide⟩ | ⟨_, -, h⟩
        · exact absurd (toNat_lt_of_auxiliary hindex) (Nat.not_lt.mpr hwide)
        · cases h

theorem requests_core {command : CoreCommand} (hcommand : CoreCommand.ofCode? a.x1 = some command) :
    m.requests coreFunction a = m.coreRequests a command := by
  rw [Monitor.requests, if_pos (beq_self_eq_true _), hcommand]

theorem requests_machine {command : MachineCommand} (hcommand : MachineCommand.ofCode? a.x1 = some command) :
    m.requests machineFunction a = machineRequests a command := by
  rw [Monitor.requests, if_neg (by decide), if_pos (beq_self_eq_true _), hcommand]

theorem Refused.requests_eq (h : Refused m function a e) : m.requests function a = .error e := by
  cases h with
  | function hcore hmachine hinfo =>
    rw [Monitor.requests, if_neg (by simpa using hcore), if_neg (by simpa using hmachine), if_neg (by simpa using hinfo)]
  | coreCommand hfunction hcommand =>
    rw [hfunction, Monitor.requests, if_pos (beq_self_eq_true _), hcommand]
  | machineCommand hfunction hcommand =>
    rw [hfunction, Monitor.requests, if_neg (by decide), if_pos (beq_self_eq_true _), hcommand]
  | vector hfunction hcommand hwide =>
    rw [hfunction, requests_core hcommand]
    refine word?_bind_eq_error.mpr ?_
    rcases hflags : word? a.x3 with e | flags
    · exact .inl ⟨rfl, (word?_eq_error.mp hflags).2⟩
    · refine .inr ⟨flags, rfl, word?_bind_eq_error.mpr (.inl ⟨rfl, hwide.resolve_left fun hwide => ?_⟩)⟩
      rw [word?_eq_error.mpr ⟨rfl, hwide⟩] at hflags
      cases hflags
  | core hfunction hcommand hwhich hwide =>
    rw [hfunction, requests_core hcommand]
    rcases hwhich with rfl | rfl
    · exact word?_bind_eq_error.mpr (.inl ⟨rfl, hwide⟩)
    · exact word?_bind_eq_error.mpr (.inl ⟨rfl, hwide⟩)
  | noAuxiliary hfunction hcommand hindex =>
    rw [hfunction, requests_core hcommand, coreRequests, hindex]
  | noAgent hfunction hcommand hindex hagent =>
    rw [hfunction, requests_core hcommand, coreRequests, hindex]
    dsimp only
    rw [hagent]
  | machine hfunction hcommand hwide =>
    obtain ⟨command, hcommand⟩ := Option.isSome_iff_exists.mp hcommand
    rw [hfunction, requests_machine hcommand]
    exact word?_bind_eq_error.mpr (.inl ⟨rfl, hwide⟩)
  | descriptor hfunction hinfo =>
    rw [hfunction, Monitor.requests, if_neg (by decide), if_neg (by decide), if_pos (beq_self_eq_true _), hinfo]

/-- Calls that ask for nothing are exactly those that are refused. -/
theorem requests_eq_error : m.requests function a = .error e ↔ Refused m function a e := by
  refine ⟨fun h => ?_, Refused.requests_eq⟩
  unfold Monitor.requests at h
  split at h
  · rename_i hfunction
    have hfunction : function = coreFunction := beq_iff_eq.mp hfunction
    split at h
    · rename_i hcommand
      cases h
      exact .coreCommand hfunction hcommand
    · rename_i hcommand
      exact coreRequests_eq_error hfunction hcommand h
  · rename_i hcore
    split at h
    · rename_i hfunction
      have hfunction : function = machineFunction := beq_iff_eq.mp hfunction
      split at h
      · rename_i hcommand
        cases h
        exact .machineCommand hfunction hcommand
      · rename_i command hcommand
        rcases word?_bind_eq_error.mp h with ⟨rfl, hwide⟩ | ⟨_, -, h⟩
        · exact .machine hfunction (by rw [hcommand]; rfl) hwide
        · cases command <;> cases h
    · rename_i hmachine
      split at h
      · rename_i hfunction
        split at h
        · rename_i hinfo
          cases h
          exact .descriptor (beq_iff_eq.mp hfunction) hinfo
        · cases h
      · rename_i hinfo
        cases h
        exact .function (by simpa using hcore) (by simpa using hmachine) (by simpa using hinfo)

/-! ### Requests that can be sent -/

/-- All that is asked for, if anything is, can be sent. -/
def AllFit (requests : Except PlatformError (List Scmi.Command)) : Prop :=
  ∀ cmds, requests = .ok cmds → ∀ cmd ∈ cmds, cmd.fits = true

section AllFit
variable {cmds : List Scmi.Command}

theorem AllFit.ok (h : ∀ cmd ∈ cmds, cmd.fits = true) : AllFit (.ok cmds) := by
  rintro _ ⟨⟩
  exact h

theorem AllFit.error : AllFit (.error e) := nofun

theorem AllFit.bind {α : Type} {x : Except PlatformError α} {f : α → Except PlatformError (List Scmi.Command)}
    (h : ∀ v, AllFit (f v)) : AllFit (x >>= f) := by
  cases x with
  | error _ => exact .error
  | ok v => exact h v

theorem allFit_coreRequests : ∀ command, AllFit (m.coreRequests a command)
  | .resetAddrSet => .bind fun _ => .bind fun _ => .ok (by simp [Scmi.Command.fits])
  | .start => .bind fun _ => .ok (by simp [Scmi.Command.fits])
  | .started => .bind fun _ => .ok (by simp [Scmi.Command.fits])
  | .stop => by
    dsimp only [coreRequests]
    split
    · exact .error
    · split
      · exact .error
      · exact .bind fun _ => .ok (by simp [Scmi.Command.fits])

theorem allFit_machineRequests : ∀ command, AllFit (machineRequests a command)
  | .boot => .bind fun _ => .ok (by simp [Scmi.Command.fits])
  | .shutdown => .bind fun _ => .ok (by simp [Scmi.Command.fits])

theorem allFit_requests : AllFit (m.requests function a) := by
  unfold Monitor.requests
  split
  · split
    · exact .error
    · exact allFit_coreRequests _
  · split
    · split
      · exact .error
      · exact allFit_machineRequests _
    · split
      · split
        · exact .error
        · exact .ok fun _ h => absurd h List.not_mem_nil
      · exact .error

end AllFit

/-! ### Answers of calls that succeed -/

/-- The run answers as `P` says, if it does not fail. -/
def Gives {E : Environment κ} (P : α → Prop) (x : Hook (History E) κ α) : Prop :=
  ∀ c, Acts x c fun r _ _ => ∀ v, r = .ok v → P v

section Gives
variable {β : Type} {P : β → Prop}

theorem Gives.pure {v : β} (h : P v) : Gives (E := env) P (pure v) := fun _ => .pure fun _ hv => Except.ok.inj hv ▸ h

theorem Gives.throw : Gives (E := env) P (throw e) := fun _ => .throw nofun

theorem Gives.bind {x : Hook (History env) κ α} {f : α → Hook (History env) κ β}
    (hx : Gives (fun _ => True) x) (h : ∀ v, Gives P (f v)) : Gives P (x >>= f) := by
  refine fun c => .bind ((hx c).imp ?_)
  rintro (e | v) d L _
  · exact nofun
  · exact h v d

theorem gives_word {x : UInt64} : Gives (E := env) (fun _ => True) (word x) := by
  unfold word
  split
  · exact .pure trivial
  · exact .throw

theorem gives_send {cmd : Scmi.Command} : Gives (fun _ => True) ((env.platform region).send cmd) :=
  fun _ => acts_send.imp fun _ _ _ _ _ _ => trivial

end Gives

/-- The call asks whether a core is running. -/
def AsksStarted (function : UInt32) (a : CallArgs) : Prop :=
  function = coreFunction ∧ CoreCommand.ofCode? a.x1 = some .started

def IsZero (answer : CallReturn) : Prop := answer.x0 = 0

theorem gives_startCore : Gives IsZero (startCore (env.platform region) a) :=
  .bind gives_word fun _ => .bind gives_send fun _ => .bind gives_send fun _ => .pure rfl

theorem gives_setVector : Gives IsZero (setVector (env.platform region) a) :=
  .bind gives_word fun _ => .bind gives_word fun _ => .bind gives_send fun _ => .pure rfl

theorem gives_stopCore : Gives IsZero (m.stopCore (env.platform region) a) := by
  unfold stopCore
  split
  · exact .throw
  · split
    · exact .throw
    · exact .bind gives_word fun _ => .bind gives_send fun _ => .bind gives_send fun _ => .pure rfl

theorem gives_controlMachine : Gives IsZero (controlMachine (env.platform region) a) := by
  unfold controlMachine
  split
  · exact .throw
  · refine .bind gives_word fun _ => ?_
    split
    · exact .bind gives_send fun _ => .pure rfl
    · exact .bind gives_send fun _ => .pure rfl

theorem gives_describeSoc : Gives (E := env) IsZero m.describeSoc := by
  unfold describeSoc
  split
  · exact .throw
  · exact .pure rfl

/-- Unless it asks whether a core is running, a call that succeeds answers zero. -/
theorem gives_dispatch (h : ¬AsksStarted function a) :
    Gives IsZero (m.dispatch (env.platform region) function a) := by
  unfold dispatch
  split
  · rename_i hfunction
    unfold controlCore
    split
    · exact .throw
    · exact gives_setVector
    · exact gives_startCore
    · rename_i hcommand
      exact absurd ⟨beq_iff_eq.mp hfunction, hcommand⟩ h
    · exact gives_stopCore
  · split
    · exact gives_controlMachine
    · split
      · exact gives_describeSoc
      · exact .throw

/-- The run mode in the reply to a request, which is its first word. -/
def reportedMode (x : Exchange) : Option Scmi.RunMode := Scmi.RunMode.ofCode? (x.payload.headD 0)

theorem overlay_head {n : Nat} (words : List UInt32) :
    (overlay words (Vector.replicate (n + 1) 0))[0] = words.headD 0 := by
  cases words <;> rfl

theorem acts_cpuInfo {cpu : UInt32} {a : Scmi.Client} :
    Acts (Scmi.Client.cpuInfo (env.platform region).manager cpu) a fun o _ L =>
      ∀ info, o = .ok info → ∃ x, L = [.manager x] ∧ info.runMode? = reportedMode x := by
  refine .bind (acts_calls.imp ?_)
  intro o b L hcalls
  cases hcalls with
  | tooLong => exact nofun
  | @exchanged x =>
    cases Scmi.verdict _ x.outcome with
    | error _ => exact nofun
    | ok _ =>
      refine .pure ?_
      rintro info ⟨⟩
      exact ⟨x, rfl, congrArg Scmi.RunMode.ofCode? (overlay_head x.payload)⟩

theorem acts_coreStarted_mode : Acts (coreStarted (env.platform region) a) c fun r _ L =>
    ∀ answer, r = .ok answer →
      ∃ x, L = [.manager x] ∧ answer.x0 = if isRunning (reportedMode x) then 1 else 0 := by
  unfold coreStarted word
  split
  · refine .bind (.pure (.bind (acts_request (acts_cpuInfo.imp ?_))))
    rintro o b L hmode
    cases o with
    | error _ => exact nofun
    | ok info =>
      refine .pure ?_
      rintro answer ⟨⟩
      obtain ⟨x, rfl, hinfo⟩ := hmode info rfl
      exact ⟨x, rfl, by rw [hinfo]⟩
  · exact .bind (.throw nofun)

/-- What a call that succeeds answers: whether a core is running if it asks that, and else zero. -/
def Answered (function : UInt32) (a : CallArgs) (L : List (Event κ)) (answer : CallReturn) : Prop :=
  (¬AsksStarted function a → answer.x0 = 0) ∧
    (AsksStarted function a → ∃ x, L = [.manager x] ∧ answer.x0 = if isRunning (reportedMode x) then 1 else 0)

theorem acts_dispatch_answered : Acts (m.dispatch (env.platform region) function a) c fun r _ L =>
    ∀ answer, r = .ok answer → Answered function a L answer := by
  by_cases hasks : AsksStarted function a
  · have hmode : Acts (m.dispatch (env.platform region) function a) c fun r _ L => ∀ answer, r = .ok answer →
        ∃ x, L = [.manager x] ∧ answer.x0 = if isRunning (reportedMode x) then 1 else 0 := by
      unfold dispatch controlCore
      rw [hasks.1, if_pos (beq_self_eq_true _), hasks.2]
      exact acts_coreStarted_mode
    exact hmode.imp fun r d L h answer hr => ⟨absurd hasks, fun _ => h answer hr⟩
  · exact (gives_dispatch hasks c).imp fun r d L h answer hr => ⟨fun _ => h answer hr, fun h => absurd h hasks⟩

/-! ### Calls -/

/-- How a call goes: it is refused at once, a request is the first that is not accepted, or all requests
    that go with the call are made and accepted. -/
inductive Goes (m : Monitor) (function : UInt32) (a : CallArgs) :
    Except PlatformError CallReturn → List (Event κ) → Prop
  | refused {e : PlatformError} : Refused m function a e → Goes m function a (.error e) []
  | failed {e : Scmi.Error} {M : List (Event κ)} {x : Exchange} : (∀ e, ¬Refused m function a e) →
      (∀ y ∈ exchanges M, y.IsAccepted) → x.verdict? = some (.error e) →
      Goes m function a (.error (.scmi e)) (M ++ [.manager x])
  | succeeded {answer : CallReturn} {cmds : List Scmi.Command} {L : List (Event κ)} :
      m.requests function a = .ok cmds → commands L = cmds.map some → (∀ x ∈ exchanges L, x.IsAccepted) →
      Answered function a L answer → Goes m function a (.ok answer) L

theorem Serves.goes {r : Except PlatformError CallReturn}
    (h : Serves c (m.requests function a) (r.map fun _ => ()) d L)
    (hanswered : ∀ answer, r = .ok answer → Answered function a L answer) : Goes m function a r L := by
  generalize hrequests : m.requests function a = requests at h
  generalize hr : r.map (fun _ => ()) = o at h
  cases h with
  | refused =>
    cases r with
    | error _ =>
      cases hr
      exact .refused (requests_eq_error.mp hrequests)
    | ok _ => cases hr
  | sent h =>
    -- No call asks for a table, so nothing is too long to be sent and what fails is a request that was made.
    rcases h.verdicts (allFit_requests _ hrequests) with ⟨rfl, hall⟩ | ⟨M, x, e, rfl, hall, hx, rfl⟩
    · cases r with
      | error _ => cases hr
      | ok answer => exact .succeeded hrequests h.commands_eq hall (hanswered answer rfl)
    · cases r with
      | error _ =>
        cases hr
        refine .failed (fun _ he => ?_) hall hx
        rw [he.requests_eq] at hrequests
        cases hrequests
      | ok _ => cases hr

/-- The identity of the chip is told from what the monitor remembers. -/
theorem Serves.silent {r : Except PlatformError Unit} (h : Serves c (m.requests socInfoFunction a) r d L) : L = [] := by
  have hrequests : m.requests socInfoFunction a = .ok [] ∨ m.requests socInfoFunction a = .error .notFound := by
    rw [Monitor.requests, if_neg (by decide), if_neg (by decide), if_pos (beq_self_eq_true _)]
    cases m.socInfo with
    | none => exact .inr rfl
    | some _ => exact .inl rfl
  rcases hrequests with hrequests | hrequests <;> rw [hrequests] at h
  · cases h with
    | sent h =>
      cases h
      rfl
  · cases h
    rfl

/-- What the status of a call tells of the events of the call. -/
structure Tells (m : Monitor) (function : UInt32) (a : CallArgs) (status : Int) (L : List (Event κ)) : Prop where
  nonneg_iff : 0 ≤ status ↔ (∀ e, ¬Refused m function a e) ∧ ∀ x ∈ exchanges L, x.IsAccepted
  asked : 0 ≤ status → ∃ cmds, m.requests function a = .ok cmds ∧ commands L = cmds.map some
  zero : 0 ≤ status → ¬AsksStarted function a → status = 0
  running : 0 ≤ status → AsksStarted function a → ∃ x, exchanges L = [x] ∧ (status = 0 ∨ status = 1) ∧
    (status = 1 ↔ reportedMode x = some .start ∨ reportedMode x = some .sleep)
  refused : ∀ e, Refused m function a e → status = e.callCode ∧ status < 0 ∧ L = []
  failed : ∀ M x N, L = M ++ .manager x :: N → ¬x.IsAccepted → N = [] ∧ (∀ y ∈ exchanges M, y.IsAccepted) ∧
    ∃ e, x.verdict? = some (.error e) ∧ status = e.code ∧ status < 0
  silent : function = socInfoFunction → L = []

theorem Tells.of_neg {status : Int} (hneg : status < 0)
    (hfails : ¬((∀ e, ¬Refused m function a e) ∧ ∀ x ∈ exchanges L, x.IsAccepted))
    (hrefused : ∀ e, Refused m function a e → status = e.callCode ∧ L = [])
    (hfailed : ∀ M x N, L = M ++ .manager x :: N → ¬x.IsAccepted →
      N = [] ∧ (∀ y ∈ exchanges M, y.IsAccepted) ∧ ∃ e, x.verdict? = some (.error e) ∧ status = e.code)
    (hsilent : function = socInfoFunction → L = []) : Tells m function a status L where
  nonneg_iff := iff_of_false (Int.not_le.mpr hneg) hfails
  asked h := absurd h (Int.not_le.mpr hneg)
  zero h := absurd h (Int.not_le.mpr hneg)
  running h := absurd h (Int.not_le.mpr hneg)
  refused e he := ⟨(hrefused e he).1, hneg, (hrefused e he).2⟩
  failed M x N heq hx := by
    obtain ⟨hN, hall, e, he, hstatus⟩ := hfailed M x N heq hx
    exact ⟨hN, hall, e, he, hstatus, hneg⟩
  silent := hsilent

theorem isRunning_iff {mode : Option Scmi.RunMode} :
    isRunning mode = true ↔ mode = some .start ∨ mode = some .sleep := by
  rcases mode with _ | mode
  · decide
  · cases mode <;> decide

theorem status_of_x0 {answer : CallReturn} {w : UInt64} (h : answer.x0 = w) : answer.status = w.toInt64.toInt := by
  rw [CallReturn.status, h]

theorem status_of_mode {answer : CallReturn} {x : Exchange}
    (h : answer.x0 = if isRunning (reportedMode x) then 1 else 0) : (answer.status = 0 ∨ answer.status = 1) ∧
      (answer.status = 1 ↔ reportedMode x = some .start ∨ reportedMode x = some .sleep) := by
  rw [← isRunning_iff, status_of_x0 h]
  cases isRunning (reportedMode x) <;> decide

theorem Answered.nonneg {answer : CallReturn} (h : Answered function a L answer) : 0 ≤ answer.status := by
  by_cases hasks : AsksStarted function a
  · obtain ⟨x, -, hx⟩ := h.2 hasks
    rcases (status_of_mode hx).1 with hstatus | hstatus
    · exact Int.le_of_eq hstatus.symm
    · rw [hstatus]
      decide
  · rw [status_of_x0 (h.1 hasks)]
    decide

/-- A request that was not accepted, in events of which only the last is one, is that last. -/
theorem last_of_not_accepted {M M' N : List (Event κ)} {x y : Exchange} (h : M ++ .manager x :: N = M' ++ [.manager y])
    (hall : ∀ z ∈ exchanges M', z.IsAccepted) (hx : ¬x.IsAccepted) : N = [] ∧ M = M' ∧ x = y := by
  rcases N.eq_nil_or_concat with rfl | ⟨N, last, rfl⟩
  · obtain ⟨rfl, hlast⟩ := List.append_inj' h rfl
    cases hlast
    exact ⟨rfl, rfl, rfl⟩
  · rw [List.concat_eq_append, ← List.cons_append, ← List.append_assoc] at h
    obtain ⟨rfl, -⟩ := List.append_inj' h rfl
    exact absurd (hall x (mem_exchanges.mpr (List.mem_append_right M List.mem_cons_self))) hx

theorem Goes.tells {r : Except PlatformError CallReturn} (h : Goes m function a r L)
    (hsilent : function = socInfoFunction → L = []) : Tells m function a (answerOf r).status L := by
  cases h with
  | @refused e he =>
    have hstatus : (answerOf (.error e)).status = e.callCode := status_ofError e
    rw [hstatus]
    refine .of_neg he.code_neg (fun h => h.1 e he) ?_ ?_ hsilent
    · intro e' he'
      cases he.requests_eq.symm.trans he'.requests_eq
      exact ⟨rfl, rfl⟩
    · intro M x N h
      simp at h
  | @failed e M x hnot hall hx =>
    have hstatus : (answerOf (.error (.scmi e))).status = e.code := status_ofError (.scmi e)
    have hrefusal : ¬x.IsAccepted := fun h => by rw [h] at hx; cases hx
    have hneg : e.code < 0 := by
      obtain ⟨cmd, -, he⟩ := Option.map_eq_some_iff.mp hx
      exact Scmi.code_neg_of_verdict he
    rw [hstatus]
    refine .of_neg hneg (fun h => hrefusal (h.2 x ?_)) (fun e he => absurd he (hnot e)) ?_ hsilent
    · exact mem_exchanges.mpr (List.mem_append_right M List.mem_cons_self)
    · intro M' y N heq hy
      obtain ⟨hN, rfl, rfl⟩ := last_of_not_accepted heq.symm hall hy
      exact ⟨hN, hall, e, hx, rfl⟩
  | @succeeded answer cmds L hrequests hcommands hall hanswered =>
    have hnot : ∀ e, ¬Refused m function a e := fun e he => by
      rw [he.requests_eq] at hrequests
      cases hrequests
    refine ⟨iff_of_true hanswered.nonneg ⟨hnot, hall⟩, fun _ => ⟨cmds, hrequests, hcommands⟩, ?_, ?_,
      fun e he => absurd he (hnot e), ?_, hsilent⟩
    · exact fun _ h => status_of_x0 (hanswered.1 h)
    · intro _ hasks
      obtain ⟨x, rfl, hx⟩ := hanswered.2 hasks
      exact ⟨x, rfl, status_of_mode hx⟩
    · rintro M x N rfl hx
      exact absurd (hall x (mem_exchanges.mpr (List.mem_append_right M List.mem_cons_self))) hx

/-- A call returns a status that is negative exactly if the call was refused, then without any request, or
    a request was not accepted, and then none is made after it; the status is the code of that failure. A call
    that succeeds returns zero, or tells whether the core that it asks about has started or sleeps. -/
theorem handle_status (region : DmaRegion (History env)) (m : Monitor) (function : UInt32) (a : CallArgs)
    (c : Controller κ) (past : History env) :
    ∃ answer d L, m.handle (env.platform region) function a c past = (.ok (answer, d), past.add L) ∧
      Tells m function a answer.status L := by
  obtain ⟨r, d, L, heq, hserves, hanswered⟩ := handle_of_dispatch (acts_dispatch.and acts_dispatch_answered) past
  refine ⟨answerOf r, d, L, heq, (hserves.goes hanswered).tells ?_⟩
  rintro rfl
  exact hserves.silent

end Monitor
end PowerFirmware
