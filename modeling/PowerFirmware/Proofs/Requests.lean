import PowerFirmware.Proofs.Does

/-! Requests to the System Manager. Main statement: sending a command makes one exchange with it and ends
by the verdict on what came back, or makes none if the command is too long (`acts_send`). -/

namespace PowerFirmware
open Run

namespace Scmi

def Command.request (c : Command) (token : BitVec 10) : Request := ⟨c.opcode token, c.args⟩

/-- How a call ends by what its request came to. -/
def verdict (c : Command) : Except ChannelError Response → Except Error Unit
  | .error e => .error (.channel e)
  | .ok r =>
    if (Header.decode r.header).message != c.message || (Header.decode r.header).protocol != c.protocol then
      .error .badResponse
    else if Status.ofWord r.status != .success then .error (.status (Status.ofWord r.status))
    else if r.length < c.replyWords then .error .badResponse
    else .ok ()

theorem Status.code_neg {s : Status} (h : s ≠ .success) : s.code < 0 := by
  cases s <;> first | exact absurd rfl h | decide

/-- A request that was not accepted is not told to be a success. -/
theorem code_neg_of_verdict {cmd : Command} {o : Except ChannelError Response} {e : Error}
    (h : verdict cmd o = .error e) : e.code < 0 := by
  cases e with
  | channel _ => exact show (-7 : Int) < 0 by decide
  | badResponse => decide
  | status s =>
    refine Status.code_neg ?_
    rintro rfl
    unfold verdict at h
    split at h
    · cases h
    · split at h
      · cases h
      · split at h
        · rename_i hstatus
          have hsuccess := Error.status.inj (Except.error.inj h)
          rw [hsuccess] at hstatus
          exact absurd hstatus (by decide)
        · split at h <;> cases h

def Client.next (a : Client) : Client := { a with token := a.token + 1 }

end Scmi

variable {κ : Type} {env : Environment κ} {region : DmaRegion (History env)} {a b d : Scmi.Client}
variable {cmd : Scmi.Command} {xs ys : List Scmi.Command} {L M : List (Event κ)} {r : Except PlatformError Unit}

/-- The commands are sent in order, each in one exchange, until one is refused or too long to be sent. -/
inductive Sends : Scmi.Client → List Scmi.Command → List (Event κ) → Except PlatformError Unit → Scmi.Client → Prop
  | done {a : Scmi.Client} : Sends a [] [] (.ok ()) a
  | tooLong {a : Scmi.Client} {cmd : Scmi.Command} {cmds : List Scmi.Command} : cmd.fits = false →
      Sends a (cmd :: cmds) [] (.error (.scmi (.status .invalidParameters))) a
  | refused {a : Scmi.Client} {cmd : Scmi.Command} {cmds : List Scmi.Command} {x : Exchange} {e : Scmi.Error} :
      cmd.fits = true → x.request = cmd.request a.token → Scmi.verdict cmd x.outcome = .error e →
      Sends a (cmd :: cmds) [.manager x] (.error (.scmi e)) a.next
  | accepted {a b : Scmi.Client} {cmd : Scmi.Command} {cmds : List Scmi.Command} {x : Exchange}
      {L : List (Event κ)} {r : Except PlatformError Unit} :
      cmd.fits = true → x.request = cmd.request a.token → Scmi.verdict cmd x.outcome = .ok () →
      Sends a.next cmds L r b → Sends a (cmd :: cmds) (.manager x :: L) r b

theorem Sends.append (h : Sends a xs L (.ok ()) b) (h' : Sends b ys M r d) : Sends a (xs ++ ys) (L ++ M) r d := by
  generalize ho : (.ok () : Except PlatformError Unit) = o at h
  induction h with
  | done => exact h'
  | tooLong => cases ho
  | refused => cases ho
  | accepted hfits hx hok _ ih => exact .accepted hfits hx hok (ih h' ho)

theorem Sends.stop {e : PlatformError} (h : Sends a xs L (.error e) b) : Sends a (xs ++ ys) L (.error e) b := by
  generalize ho : (.error e : Except PlatformError Unit) = o at h
  induction h with
  | done => cases ho
  | tooLong hfits => exact .tooLong hfits
  | refused hfits hx he => exact .refused hfits hx he
  | accepted hfits hx hok _ ih => exact .accepted hfits hx hok (ih ho)

theorem Sends.managers (h : Sends a xs L r b) : ∀ e ∈ L, ∃ x, e = .manager x := by
  induction h with
  | done | tooLong => exact fun _ he => absurd he List.not_mem_nil
  | refused => exact fun _ he => ⟨_, List.mem_singleton.mp he⟩
  | accepted _ _ _ _ ih =>
    intro e he
    rcases List.mem_cons.mp he with rfl | he
    · exact ⟨_, rfl⟩
    · exact ih e he

/-- The events end with the command being refused, or being too long to be sent. -/
def Refuses (cmd : Scmi.Command) (e : PlatformError) (b : Scmi.Client) (L : List (Event κ)) : Prop :=
  ∃ before M a, L = before ++ M ∧ Sends a [cmd] M (.error e) b

theorem Refuses.append {e : PlatformError} (h : Refuses cmd e b M) : Refuses cmd e b (L ++ M) := by
  obtain ⟨before, M, a, rfl, h⟩ := h
  exact ⟨L ++ before, M, a, by rw [List.append_assoc], h⟩

theorem Sends.refuses {e : PlatformError} (h : Sends a xs L (.error e) b) : ∃ cmd ∈ xs, Refuses cmd e b L := by
  generalize ho : (.error e : Except PlatformError Unit) = o at h
  induction h with
  | done => cases ho
  | @tooLong a cmd _ hfits =>
    cases ho
    exact ⟨cmd, List.mem_cons_self, [], [], a, rfl, .tooLong hfits⟩
  | @refused a cmd _ x _ hfits hx he =>
    cases ho
    exact ⟨cmd, List.mem_cons_self, [], [.manager x], a, rfl, .refused hfits hx he⟩
  | @accepted _ _ _ _ x _ _ _ _ _ _ ih =>
    obtain ⟨cmd, hmem, hcmd⟩ := ih ho
    exact ⟨cmd, List.mem_cons_of_mem _ hmem, hcmd.append (L := [.manager x])⟩

theorem Sends.first (h : Sends a (cmd :: xs) L r b) (hfits : cmd.fits = true) :
    ∃ x M, L = .manager x :: M ∧ x.request = cmd.request a.token := by
  cases h with
  | tooLong h => rw [hfits] at h; cases h
  | refused _ hx _ => exact ⟨_, [], rfl, hx⟩
  | accepted _ hx _ h => exact ⟨_, _, rfl, hx⟩

theorem Sends.one (h : Sends a [cmd] L r b) (hfits : cmd.fits = true) :
    ∃ x, L = [.manager x] ∧ x.request = cmd.request a.token ∧ r = (Scmi.verdict cmd x.outcome).mapError .scmi := by
  cases h with
  | tooLong h => rw [hfits] at h; cases h
  | refused _ hx he => exact ⟨_, rfl, hx, by rw [he]; rfl⟩
  | accepted _ hx hok h =>
    cases h
    exact ⟨_, rfl, hx, by rw [hok]; rfl⟩

/-- A command that is sent uses up a token, whatever comes of it. -/
theorem Sends.client_one (h : Sends a [cmd] L r b) (hfits : cmd.fits = true) : b = a.next := by
  cases h with
  | tooLong h => rw [hfits] at h; cases h
  | refused => rfl
  | accepted _ _ _ h => cases h; rfl

/-- The System Manager accepts every command that asks for nothing back. -/
def Environment.AcceptsAll (env : Environment κ) : Prop :=
  ∀ L cmd token, cmd.replyWords = 0 → Scmi.verdict cmd (env.manager L (cmd.request token)).1 = .ok ()

theorem Sends.accepted_all {past : List (Event κ)} (h : Sends a xs L r b) (haccepts : env.AcceptsAll)
    (allowed : env.Allows past L) (hxs : ∀ cmd ∈ xs, cmd.fits = true ∧ cmd.replyWords = 0) : r = .ok () := by
  have hyields : ∀ {cmd : Scmi.Command} {token : BitVec 10} {x : Exchange} {past : List (Event κ)},
      x.request = cmd.request token → env.Yields past (.manager x) → cmd.replyWords = 0 →
      Scmi.verdict cmd x.outcome = .ok () := by
    intro cmd token x past hx hyield hreply
    rw [show x.outcome = _ from congrArg Prod.fst hyield, hx]
    exact haccepts past cmd token hreply
  induction h generalizing past with
  | done => rfl
  | tooLong hfits =>
    rw [(hxs _ List.mem_cons_self).1] at hfits
    cases hfits
  | refused _ hx he =>
    rw [hyields hx allowed.1 (hxs _ List.mem_cons_self).2] at he
    cases he
  | accepted _ _ _ _ ih => exact ih allowed.2 fun cmd hcmd => hxs cmd (List.mem_cons_of_mem _ hcmd)

theorem does_accept {response : Response} :
    Does (E := env) (Scmi.Client.accept cmd response) fun o L => L = [] ∧ o = Scmi.verdict cmd (.ok response) := by
  unfold Scmi.Client.accept
  dsimp only [Scmi.verdict]
  split
  · exact .bind (.log (.pure ⟨rfl, rfl⟩))
  · split
    · exact .bind (.log (.pure ⟨rfl, rfl⟩))
    · split
      · exact .pure ⟨rfl, rfl⟩
      · exact .pure ⟨rfl, rfl⟩

/-- How a call goes: its command is too long to be sent, or it makes one exchange, ends by the verdict on it and
    yields the words of the reply. -/
inductive Calls (a : Scmi.Client) (cmd : Scmi.Command) :
    Except Scmi.Error (Vector UInt32 cmd.replyWords) → Scmi.Client → List (Event κ) → Prop
  | tooLong : cmd.fits = false → Calls a cmd (.error (.status .invalidParameters)) a []
  | exchanged {x : Exchange} : cmd.fits = true → x.request = cmd.request a.token →
      Calls a cmd ((Scmi.verdict cmd x.outcome).map fun _ => overlay x.payload (.replicate cmd.replyWords 0)) a.next
        [.manager x]

theorem acts_calls : Acts (Scmi.Client.call (env.platform region).manager cmd) a (Calls a cmd) := by
  unfold Scmi.Client.call
  split
  · rename_i hfits
    exact .throw (.tooLong (by simpa using hfits))
  · rename_i hfits
    have hfits : cmd.fits = true := by simpa using hfits
    refine .bind (.bind (.get (.bind (.set (.pure ?_)))))
    refine .bind (.run (.manager fun outcome payload => ?_))
    have hcalls : Calls (κ := κ) a cmd _ _ _ := .exchanged (x := ⟨cmd.request a.token, outcome, payload⟩) hfits rfl
    cases outcome with
    | error e => exact .throw hcalls
    | ok response =>
      refine .bind (.run (does_accept.imp ?_))
      rintro o _ ⟨rfl, ho⟩
      rw [← ho] at hcalls
      cases o with
      | error e => exact .throw hcalls
      | ok _ => exact .pure hcalls

theorem Calls.sends {o : Except Scmi.Error (Vector UInt32 cmd.replyWords)} (h : Calls a cmd o b L) :
    Sends a [cmd] L ((o.map fun _ => ()).mapError .scmi) b := by
  cases h with
  | tooLong hfits => exact .tooLong hfits
  | @exchanged x hfits hx =>
    rcases hv : Scmi.verdict cmd x.outcome with _ | _
    · exact .refused hfits hx hv
    · exact .accepted hfits hx hv .done

theorem acts_call : Acts (Scmi.Client.call (env.platform region).manager cmd) a fun o b L =>
    Sends a [cmd] L ((o.map fun _ => ()).mapError .scmi) b :=
  acts_calls.imp fun _ _ _ h => h.sends

theorem acts_perform : Acts (Scmi.Client.perform (env.platform region).manager cmd) a fun o b L =>
    Sends a [cmd] L (o.mapError .scmi) b := by
  refine .bind (acts_call.imp ?_)
  rintro o b L h
  cases o with
  | error e => exact h
  | ok _ =>
    refine .pure ?_
    rw [List.append_nil]
    exact h

/-- A call on behalf of the controller's agent moves only the agent on. -/
theorem acts_request {α : Type} {call : Scmi.Call (History env) α} {c : Controller κ}
    {Φ : Except PlatformError α → Controller κ → List (Event κ) → Prop}
    (h : Acts call c.client fun o b L => Φ (o.mapError .scmi) { c with client := b } L) :
    Acts (Platform.request call) c Φ := by
  refine .bind (.get (.bind (.run (Does.imp h ?_))))
  rintro ⟨o, b⟩ L h
  refine .bind (.set ?_)
  cases o with
  | ok _ =>
    refine .pure ?_
    rw [List.append_nil, List.nil_append, List.append_nil]
    exact h
  | error e =>
    refine .throw ?_
    rw [List.append_nil, List.nil_append, List.append_nil]
    exact h

theorem acts_send {c : Controller κ} : Acts ((env.platform region).send cmd) c fun r d L =>
    Sends c.client [cmd] L r d.client ∧ d = { c with client := d.client } :=
  acts_request (acts_perform.imp fun _ _ _ h => ⟨h, rfl⟩)

end PowerFirmware
