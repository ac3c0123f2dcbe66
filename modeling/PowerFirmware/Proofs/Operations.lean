import PowerFirmware.Proofs.Answers
import PowerFirmware.Proofs.Settings

/-! The operations of an agent, one after the other. Main statement: whatever came back before, an operation
makes one exchange with the System Manager, the words of which say which command it is and how many
exchanges were made before, or none if its table is too long (`operation_transacts`). -/

namespace PowerFirmware
open Run

namespace Scmi

/-- What an agent may be asked to do: a command whose reply has no words that matter, or a query. -/
inductive Operation
  | perform (c : Command)
  | baseAttributes
  | discoverAgent (agent : UInt32)
  | powerState (domain : UInt32)
  | cpuInfo (cpu : UInt32)
  | machineCount

namespace Operation

/-- The command that an operation sends. -/
def command : Operation → Command
  | perform c => c
  | baseAttributes => .baseAttributes
  | discoverAgent agent => .discoverAgent agent
  | powerState domain => .powerStateGet domain
  | cpuInfo cpu => .cpuInfo cpu
  | machineCount => .machineAttributes

variable {σ : Type} [Machine σ]

/-- The operation, apart from what it yields. -/
def run (channel : Channel σ) : Operation → Call σ Unit
  | perform c => Client.perform channel c
  | baseAttributes => do let _ ← Client.baseAttributes channel
  | discoverAgent agent => do let _ ← Client.discoverAgent channel agent
  | powerState domain => do let _ ← Client.powerState channel domain
  | cpuInfo cpu => do let _ ← Client.cpuInfo channel cpu
  | machineCount => do let _ ← Client.machineCount channel

/-- Operations one after the other, whether or not one fails. -/
def runAll (channel : Channel σ) : List Operation → StateT Client (Run σ) (List (Except Error Unit))
  | [] => return []
  | op :: ops => do
    let outcome ← (op.run channel).run
    return outcome :: (← runAll channel ops)

end Operation
end Scmi

variable {κ : Type} {env : Environment κ} {region : DmaRegion (History env)} {a b : Scmi.Client} {L : List (Event κ)}
variable {cmd : Scmi.Command} {cmds : List Scmi.Command} {r : Except PlatformError Unit} {op : Scmi.Operation}

/-- The token counts the exchanges. -/
theorem Sends.token (h : Sends a cmds L r b) : b.token = a.token + BitVec.ofNat 10 (exchanges L).length := by
  induction h with
  | done | tooLong => exact (BitVec.add_zero _).symm
  | refused => rfl
  | @accepted a b _ _ x L _ _ _ _ _ ih =>
    have hcount : (exchanges (.manager x :: L)).length = 1 + (exchanges L).length := Nat.add_comm _ _
    rw [ih, hcount, BitVec.ofNat_add, ← BitVec.add_assoc]
    rfl

/-- An operation is a call for its command, whatever it makes of the words that come back. -/
theorem acts_query {α β : Type} {call : Scmi.Call (History env) α} {g : α → β}
    (h : Acts call a fun o b L => Sends a [cmd] L ((o.map fun _ => ()).mapError .scmi) b) :
    Acts (call >>= fun v => pure (g v)) a fun o b L => Sends a [cmd] L ((o.map fun _ => ()).mapError .scmi) b := by
  refine .bind (h.imp ?_)
  rintro o b L h
  cases o with
  | error e => exact h
  | ok v =>
    refine .pure ?_
    rw [List.append_nil]
    exact h

theorem acts_operation (op : Scmi.Operation) : Acts (op.run (env.platform region).manager) a fun o b L =>
    Sends a [op.command] L (o.mapError .scmi) b := by
  have hquery : ∀ {α β : Type} {call : Scmi.Call (History env) α} {g : α → β} {cmd : Scmi.Command},
      Acts call a (fun o b L => Sends a [cmd] L ((o.map fun _ => ()).mapError .scmi) b) →
      Acts ((call >>= fun v => pure (g v)) >>= fun _ => pure ()) a fun o b L => Sends a [cmd] L (o.mapError .scmi) b := by
    intro α β call g cmd h
    refine (acts_query (acts_query h)).imp ?_
    rintro (_ | _) b L h <;> exact h
  cases op with
  | perform c => exact acts_perform
  | baseAttributes => exact hquery acts_call
  | discoverAgent agent => exact hquery acts_call
  | powerState domain => exact hquery acts_call
  | cpuInfo cpu => exact hquery acts_call
  | machineCount => exact hquery acts_call

theorem concludes_operation : Concludes (op.run (env.platform region).manager) := by
  cases op with
  | perform c => exact .bind concludes_call fun _ => .pure
  | baseAttributes => exact .bind (.bind concludes_call fun _ => .pure) fun _ => .pure
  | discoverAgent agent => exact .bind (.bind concludes_call fun _ => .pure) fun _ => .pure
  | powerState domain => exact .bind (.bind concludes_call fun _ => .pure) fun _ => .pure
  | cpuInfo cpu => exact .bind (.bind concludes_call fun _ => .pure) fun _ => .pure
  | machineCount => exact .bind (.bind concludes_call fun _ => .pure) fun _ => .pure

theorem does_runAll : ∀ {ops : List Scmi.Operation} {a : Scmi.Client},
    Does ((Scmi.Operation.runAll (env.platform region).manager ops).run a) fun x L =>
      x.1.length = ops.length ∧ x.2.token = a.token + BitVec.ofNat 10 (exchanges L).length
  | [], a => .pure ⟨rfl, (BitVec.add_zero _).symm⟩
  | op :: ops, a => by
    refine .bind (Does.imp (acts_operation op) ?_)
    rintro ⟨o, b⟩ L h
    refine .bind (does_runAll.imp ?_)
    rintro ⟨os, c⟩ M ⟨hlength, htoken⟩
    refine .pure ⟨congrArg Nat.succ hlength, ?_⟩
    rw [List.append_nil, exchanges_append, List.length_append, BitVec.ofNat_add, ← BitVec.add_assoc, ← h.token]
    exact htoken

theorem answers_runAll : ∀ {ops : List Scmi.Operation} {a : Scmi.Client},
    Answers ((Scmi.Operation.runAll (env.platform region).manager ops).run a)
  | [], _ => .pure
  | _ :: _, a => .bind (concludes_operation a) fun _ => .bind answers_runAll fun _ => .pure

theorem read?_request {x : Exchange} {token : BitVec 10} (h : x.request = cmd.request token) :
    Scmi.Command.read? x.request.opcode x.request.args = some (cmd, token) := by
  rw [h]
  exact Scmi.Command.read?_opcode cmd token

/-- No two commands travel as the same words. -/
theorem command_of_request {x : Exchange} {token token' : BitVec 10} {cmd' : Scmi.Command}
    (h : x.request = cmd.request token) (h' : x.request = cmd'.request token') : cmd' = cmd := by
  have hsame := (command?_request h').symm.trans (command?_request h)
  exact Option.some.inj hsame

/-- A fresh agent, whatever it was asked to do before and however that ended, answers the next operation. If
    the table of the operation is not too long, it makes one exchange with the System Manager: the words of
    its request stand for the operation's command and for no other, and its token is the number of the
    exchanges before, modulo 1024. If the table is too long, nothing is sent, no token is used up, and the
    operation is told that its parameters are invalid. -/
theorem operation_transacts (env : Environment κ) (region : DmaRegion (History env)) (past : History env)
    (ops : List Scmi.Operation) (op : Scmi.Operation) :
    ∃ L outcomes a, (Scmi.Operation.runAll (env.platform region).manager ops).run {} past =
        (.ok (outcomes, a), past.add L) ∧ outcomes.length = ops.length ∧
      ∃ M o b, (op.run (env.platform region).manager).run.run a (past.add L) = (.ok (o, b), past.add (L ++ M)) ∧
        ((op.command.fits = true ∧ ∃ x, M = [.manager x] ∧ b = a.next ∧
            Scmi.Command.read? x.request.opcode x.request.args =
              some (op.command, BitVec.ofNat 10 (exchanges L).length) ∧
            ∀ cmd token, x.request = cmd.request token → cmd = op.command) ∨
          (op.command.fits = false ∧ M = [] ∧ b = a ∧ o = .error (.status .invalidParameters))) := by
  obtain ⟨⟨outcomes, a⟩, L, hall, -, hlength, htoken⟩ := does_runAll.answers answers_runAll past
  obtain ⟨⟨o, b⟩, M, hrun, -, hsends⟩ := (acts_operation op).answers (concludes_operation a) (past.add L)
  refine ⟨L, outcomes, a, hall, hlength, M, o, b, ?_, ?_⟩
  · rw [← History.add_add]
    exact hrun
  · -- Tokens are counted by the exchanges and not by the operations, since one that is too long uses none up.
    have hcount : a.token = BitVec.ofNat 10 (exchanges L).length := htoken.trans (BitVec.zero_add _)
    generalize ho : o.mapError PlatformError.scmi = r at hsends
    cases hsends with
    | tooLong hfits =>
      refine .inr ⟨hfits, rfl, rfl, ?_⟩
      cases o with
      | error e =>
        cases ho
        rfl
      | ok _ => cases ho
    | @refused _ _ _ x _ hfits hx _ =>
      exact .inl ⟨hfits, x, rfl, rfl, hcount ▸ read?_request hx, fun _ _ => command_of_request hx⟩
    | @accepted _ _ _ _ x _ _ hfits hx _ h =>
      cases h
      exact .inl ⟨hfits, x, rfl, rfl, hcount ▸ read?_request hx, fun _ _ => command_of_request hx⟩

end PowerFirmware
