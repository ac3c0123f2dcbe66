import PowerFirmware.Proofs.MessagingUnit.World
import PowerFirmware.Proofs.Suspend.Resuming
import PowerFirmware.Proofs.Triple

/-! Which answer a command to the enclave takes. Main statement: a command that succeeds has taken the
answer to its own request exactly if no command before it has timed out (`command_takesOwn_iff`); once one
has, every command that succeeds has taken the answer to an earlier one. -/

namespace PowerFirmware
namespace MessagingUnit
open Cells Run

variable {u : MessagingUnit} {s : Scene} {asked : List UInt32} {taken : List Taking} {a k n : Nat} {ws : List UInt32}
variable {S T : Scene → Prop} {F : World u → Prop} {m : Move} {v opcode : UInt32} {buffer : Vector UInt32 n}

/-! ### Between two commands -/

/-- All answers but the last have been taken, and the last stands in the receive registers with its status
    unread. -/
structure Standing (u : MessagingUnit) (asked : List UInt32) (taken : List Taking) (ws : List UInt32) (s : Scene) :
    Prop where
  asked : s.asked = asked
  taken : s.taken = taken
  count : s.answers.length = s.taken.length + 1
  due : s.answers.length ≤ s.asked.length
  answer : s.answers[s.taken.length]? = some ws
  status : s.unread 1 = true
  stand : Stand (adjacent (u.receive 0) ws) s.words
  enough : 2 ≤ ws.length
  most : ws.length ≤ receiveCount

/-- The requests that have been made and the statuses that have been taken; the last answer may not have
    been taken yet. -/
inductive Between (u : MessagingUnit) (asked : List UInt32) (taken : List Taking) (s : Scene) : Prop
  | empty (hasked : s.asked = asked) (htaken : s.taken = taken) (count : s.answers.length = s.taken.length)
      (due : s.answers.length ≤ s.asked.length) (header : s.unread 0 = false) (status : s.unread 1 = false)
  | late {ws : List UInt32} (stands : Standing u asked taken ws s) (header : s.unread 0 = true)

theorem mayLatch_iff : s.mayLatch ws = true ↔ s.answers.length < s.asked.length ∧ s.unread 0 = false ∧
    s.unread 1 = false ∧ 2 ≤ ws.length ∧ ws.length ≤ receiveCount := by
  simp only [Scene.mayLatch, Bool.and_eq_true, decide_eq_true_eq, Bool.not_eq_true', and_assoc]

theorem nodup_adjacent : ∀ {ws : List UInt32} {a : Nat}, (addresses (adjacent a ws)).Nodup
  | [], _ => List.nodup_nil
  | w :: ws, a => by
    refine List.nodup_cons.mpr ⟨fun ha => ?_, nodup_adjacent⟩
    obtain ⟨i, -, hi⟩ := mem_addresses_adjacent.mp ha
    change a = a + 4 + 4 * i at hi
    omega

/-- While a status is unread nothing is latched. -/
theorem Standing.move (h : Standing u asked taken ws s) : Standing u asked taken ws (s.move u m) := by
  cases m with
  | deliver i b => exact ⟨h.asked, h.taken, h.count, h.due, h.answer, h.status, h.stand, h.enough, h.most⟩
  | latch vs =>
    have hnot : s.mayLatch vs = false := by
      rw [Bool.eq_false_iff, Ne, mayLatch_iff, h.status]
      simp
    simp only [Scene.move, hnot, Bool.false_eq_true, if_false]
    exact h

theorem Standing.unread_move (h : Standing u asked taken ws s) : (s.move u m).unread = s.unread := by
  cases m with
  | deliver i b => rfl
  | latch vs =>
    have hnot : s.mayLatch vs = false := by
      rw [Bool.eq_false_iff, Ne, mayLatch_iff, h.status]
      simp
    simp only [Scene.move, hnot, Bool.false_eq_true, if_false]

/-- What is latched stands unread. -/
theorem Between.move (h : Between u asked taken s) : Between u asked taken (s.move u m) := by
  cases h with
  | late h header => exact .late h.move (h.unread_move ▸ header)
  | empty hasked htaken count due header status =>
    cases m with
    | deliver i b => exact .empty hasked htaken count due header status
    | latch ws =>
      simp only [Scene.move]
      split
      · rename_i hlatch
        obtain ⟨hdue, -, -, htwo, hmost⟩ := mayLatch_iff.mp hlatch
        refine .late ⟨hasked, htaken, ?_, ?_, ?_, ?_, stand_overwrite nodup_adjacent, htwo, hmost⟩ ?_
        · rw [List.length_append, count]
          rfl
        · rw [List.length_append]
          exact hdue
        · rw [← count, List.getElem?_concat_length]
        · simp only [Bool.or_eq_true, decide_eq_true_eq]
          exact .inl (by omega)
        · simp only [Bool.or_eq_true, decide_eq_true_eq]
          exact .inl (by omega)
      · exact .empty hasked htaken count due header status

theorem Between.asked_eq (h : Between u asked taken s) : s.asked = asked := by
  cases h with
  | empty h => exact h
  | late h => exact h.asked

theorem Between.taken_eq (h : Between u asked taken s) : s.taken = taken := by
  cases h with
  | empty _ h => exact h
  | late h => exact h.taken

/-- Once every request has been answered and every answer taken, nothing is latched. -/
theorem Between.mayLatch (h : Between u asked taken s) (hall : taken.length = asked.length) : s.mayLatch ws = false := by
  have hasked := h.asked_eq
  have htaken := h.taken_eq
  rw [Bool.eq_false_iff, Ne, mayLatch_iff]
  rintro ⟨hdue, -⟩
  rw [← hasked, ← htaken] at hall
  cases h with
  | empty _ _ count => omega
  | late h =>
    have := h.count
    omega

/-- What is left of an answer once its status has been taken: it is among the answers, and unless a later
    request is waiting for one it still stands in the registers. -/
structure Collects (u : MessagingUnit) (asked : List UInt32) (taken : List Taking) (k : Nat) (ws : List UInt32)
    (s : Scene) : Prop where
  between : Between u asked taken s
  answer : s.answers[k]? = some ws
  most : ws.length ≤ receiveCount
  stand : taken.length = asked.length → Stand (adjacent (u.receive 0) ws) s.words

theorem Collects.move (h : Collects u asked taken k ws s) : Collects u asked taken k ws (s.move u m) := by
  refine ⟨h.between.move, ?_, h.most, fun hall => ?_⟩
  · cases m with
    | deliver i b => exact h.answer
    | latch vs =>
      simp only [Scene.move]
      split
      · obtain ⟨hk, -⟩ := List.getElem?_eq_some_iff.mp h.answer
        rw [List.getElem?_append_left hk]
        exact h.answer
      · exact h.answer
  · cases m with
    | deliver i b => exact h.stand hall
    | latch vs =>
      simp only [Scene.move, h.between.mayLatch hall, Bool.false_eq_true, if_false]
      exact h.stand hall

/-! ### Accesses -/

/-- What no step of the enclave ends. -/
def Stable (u : MessagingUnit) (S : Scene → Prop) : Prop := ∀ s m, S s → S (s.move u m)

/-- What holds of the scene of a world. -/
def World.In (S : Scene → Prop) (w : World u) : Prop := S w.scene

theorem Stable.turn (hS : Stable u S) {w : World u} (h : S w.scene) : S w.turn.scene := by
  have run : ∀ (moves : List Move) (s : Scene), S s → S (moves.foldl (Scene.move u) s) := by
    intro moves
    induction moves with
    | nil => exact fun _ h => h
    | cons m moves ih => exact fun s h => ih _ (hS s m h)
  exact run _ _ h

theorem triple_read {T : UInt32 → Scene → Prop} (hS : Stable u S) (hT : ∀ s, S s → T (s.word u a) (s.load u a)) :
    Triple (World.In (u := u) S) (read32 a) (fun v => World.In (T v)) F :=
  Triple.access fun _ h => hT _ (hS.turn h)

theorem triple_write (hS : Stable u S) (hT : ∀ s, S s → T (s.store u a v)) :
    Triple (World.In (u := u) S) (write32 a v) (fun _ => World.In T) F :=
  Triple.update fun _ h => hT _ (hS.turn h)

theorem triple_log {level : Level} {message : String} :
    Triple (World.In (u := u) S) (log level message) (fun _ => World.In S) F :=
  Triple.update fun _ h => h

/-! ### Asking -/

theorem asked_le_store : s.asked.length ≤ (s.store u a v).asked.length := by
  simp only [Scene.store]
  split
  · rw [List.length_append]
    exact Nat.le_add_right _ _
  · exact Nat.le_refl _

/-- What is written below the receive registers is asked at most. -/
theorem Standing.store (h : Standing u asked taken ws s) (ha : a < u.receive 0) :
    Standing u (s.store u a v).asked taken ws (s.store u a v) := by
  refine ⟨rfl, h.taken, h.count, Nat.le_trans h.due asked_le_store, h.answer, h.status, ?_, h.enough, h.most⟩
  refine h.stand.congr fun b hb => Function.update_of_ne ?_ _ _
  obtain ⟨i, -, rfl⟩ := mem_addresses_adjacent.mp hb
  omega

theorem Between.store (h : Between u asked taken s) (ha : a < u.receive 0) :
    Between u (s.store u a v).asked taken (s.store u a v) := by
  cases h with
  | empty _ htaken count due header status =>
    exact .empty rfl htaken count (Nat.le_trans due asked_le_store) header status
  | late h header => exact .late (h.store ha) header

theorem triple_ask : Triple (World.In (u := u) (Between u asked taken)) (write32 (u.transmit 0) opcode)
    (fun _ => World.In (Between u (asked ++ [opcode]) taken)) F := by
  refine triple_write (fun _ _ h => h.move) fun s h => ?_
  have hasked : (s.store u (u.transmit 0) opcode).asked = asked ++ [opcode] := by
    rw [Scene.store, if_pos rfl, h.asked_eq]
  refine hasked ▸ h.store ?_
  simp only [transmit, receive]
  omega

theorem triple_writeWords : ∀ {args : List UInt32} {a : Nat}, u.transmit 0 < a →
    (∀ b ∈ addresses (adjacent a args), b < u.receive 0) →
    Triple (World.In (u := u) (Between u asked taken)) (writeWords a args)
      (fun _ => World.In (Between u asked taken)) F
  | [], _, _, _ => Triple.pure fun _ h => h
  | w :: args, a, hlow, hhigh => by
    refine Triple.bind (triple_write (T := Between u asked taken) (fun _ _ h => h.move) fun s h => ?_) fun _ =>
      triple_writeWords (by omega) fun b hb => hhigh b (List.mem_cons_of_mem _ hb)
    have hasked : (s.store u a w).asked = asked := by
      rw [Scene.store, if_neg (Nat.ne_of_gt hlow), h.asked_eq]
    exact hasked ▸ h.store (hhigh a List.mem_cons_self)

/-! ### Waiting -/

/-- The status word shows header and status when both are unread. -/
theorem ready_iff (unread : Nat → Bool) :
    (statusWord unread &&& readyMask == readyMask) = (unread 0 && unread 1) := by
  simp only [statusWord, receiveCount, List.range_succ, List.range_zero, List.nil_append, List.map_append, List.map_cons,
    List.map_nil, List.foldr_append, List.foldr_cons, List.foldr_nil]
  generalize unread 0 = b₀, unread 1 = b₁, unread 2 = b₂, unread 3 = b₃, unread 4 = b₄, unread 5 = b₅, unread 6 = b₆,
    unread 7 = b₇
  revert b₀ b₁ b₂ b₃ b₄ b₅ b₆ b₇
  decide

theorem load_receiveStatus : s.load u u.receiveStatus = s := by
  have hne : ∀ i, u.receiveStatus ≠ u.receive i := by
    intro i
    simp only [receiveStatus, receive]
    omega
  simp only [Scene.load, bne_iff_ne.mpr (hne _), Bool.and_true, if_neg (hne 1)]

/-- A wait that succeeds finds an answer of which nothing has been read. -/
theorem waits_responseReady : Triple.Waits (World.In (u := u) (Between u asked taken))
    (World.In fun s => ∃ ws, Standing u asked taken ws s ∧ s.unread 0 = true) (fun _ => True) u.responseReady where
  look := by
    refine Triple.bind (triple_read (T := fun v s => Between u asked taken s ∧ v = statusWord s.unread)
      (fun _ _ h => h.move) fun s h => ?_) fun v => Triple.pure fun w h => ?_
    · rw [load_receiveStatus]
      exact ⟨h, if_pos rfl⟩
    · obtain ⟨hbetween, rfl⟩ := h
      rw [ready_iff]
      cases hbetween with
      | empty hasked htaken count due header status =>
        rw [header, Bool.false_and]
        exact .empty hasked htaken count due header status
      | late stands header =>
        rw [header, stands.status, Bool.and_self]
        exact ⟨_, stands, header⟩
  tick w h := Stable.turn (fun _ _ h => h.move) h
  note _ _ _ h := h
  hung _ _ := trivial

/-! ### Taking an answer -/

theorem word_of_stand : ∀ {ws : List UInt32} {a i : Nat}, Stand (adjacent a ws) s.words → ws[i]? = some v →
    s.words (a + 4 * i) = v
  | w :: ws, a, 0, h, hi => (stand_cons.mp h).1.trans (Option.some.inj hi)
  | w :: ws, a, i + 1, h, hi => by
    rw [show a + 4 * (i + 1) = a + 4 + 4 * i by omega]
    exact word_of_stand (stand_cons.mp h).2 hi

theorem word_receive {i : Nat} : s.word u (u.receive i) = s.words (u.receive i) := by
  refine if_neg ?_
  simp only [receiveStatus, receive]
  omega

theorem receive_eq {i : Nat} : u.receive i = u.receive 0 + 4 * i := by
  simp only [receive, Nat.mul_zero, Nat.add_zero]

theorem word_receive_of_stand {i : Nat} (h : Stand (adjacent (u.receive 0) ws) s.words) (hi : ws[i]? = some v) :
    s.word u (u.receive i) = v := by
  rw [word_receive, receive_eq]
  exact word_of_stand h hi

theorem receive_ne {i j : Nat} (h : i ≠ j) : u.receive i ≠ u.receive j := by
  simp only [receive]
  omega

theorem taken_load (h : a ≠ u.receive 1) : (s.load u a).taken = s.taken := if_neg h

theorem unread_load {i : Nat} (h : a ≠ u.receive i) : (s.load u a).unread i = s.unread i := by
  show (s.unread i && a != u.receive i) = s.unread i
  rw [bne_iff_ne.mpr h, Bool.and_true]

/-- Reading anything but the status takes nothing. -/
theorem Standing.load (h : Standing u asked taken ws s) (ha : a ≠ u.receive 1) : Standing u asked taken ws (s.load u a) := by
  have htaken : (s.load u a).taken = s.taken := taken_load ha
  exact ⟨h.asked, htaken.trans h.taken, htaken ▸ h.count, h.due, htaken ▸ h.answer, (unread_load ha).trans h.status,
    h.stand, h.enough, h.most⟩

/-- Reading a payload word leaves the header and the status alone. -/
theorem Between.load {i : Nat} (h : Between u asked taken s) (hi : 2 ≤ i) :
    Between u asked taken (s.load u (u.receive i)) := by
  have hheader : u.receive i ≠ u.receive 0 := receive_ne (by omega)
  have hstatus : u.receive i ≠ u.receive 1 := receive_ne (by omega)
  cases h with
  | empty hasked htaken count due header status =>
    have htaken' : (s.load u (u.receive i)).taken = s.taken := taken_load hstatus
    exact .empty hasked (htaken'.trans htaken) (htaken' ▸ count) due ((unread_load hheader).trans header)
      ((unread_load hstatus).trans status)
  | late h header => exact .late (h.load hstatus) ((unread_load hheader).trans header)

theorem triple_header : Triple (World.In (u := u) fun s => Standing u asked taken ws s ∧ s.unread 0 = true)
    (read32 (u.receive 0)) (fun v => World.In fun s => ws[0]? = some v ∧ Standing u asked taken ws s ∧ s.unread 0 = false) F := by
  refine triple_read (fun s m h => ⟨h.1.move, h.1.unread_move ▸ h.2⟩) fun s h => ⟨?_, h.1.load (receive_ne (by decide)), ?_⟩
  · have hword : 0 < ws.length := Nat.lt_of_lt_of_le (by decide) h.1.enough
    rw [word_receive_of_stand h.1.stand (List.getElem?_eq_getElem hword)]
    exact List.getElem?_eq_getElem hword
  · simp [Scene.load]

/-- Reading the status takes the answer. -/
theorem triple_status : Triple (World.In (u := u) fun s => Standing u asked taken ws s ∧ s.unread 0 = false)
    (read32 (u.receive 1)) (fun v => World.In fun s => ws[1]? = some v ∧
      Collects u asked (taken ++ [⟨asked.length, taken.length + 1, v⟩]) taken.length ws s) F := by
  refine triple_read (fun s m h => ⟨h.1.move, h.1.unread_move ▸ h.2⟩) fun s h => ?_
  obtain ⟨h, header⟩ := h
  have henough := h.enough
  have htaken : (s.load u (u.receive 1)).taken = taken ++ [⟨asked.length, taken.length + 1, s.word u (u.receive 1)⟩] := by
    rw [Scene.load, if_pos rfl, h.asked, h.count, h.taken]
  refine ⟨?_, .empty h.asked htaken ?_ h.due ?_ ?_, h.taken ▸ h.answer, h.most, fun _ => h.stand⟩
  · have hword : 1 < ws.length := by omega
    rw [word_receive_of_stand h.stand (List.getElem?_eq_getElem hword)]
    exact List.getElem?_eq_getElem hword
  · rw [htaken, List.length_append, ← h.taken]
    exact h.count
  · show (s.unread 0 && _) = false
    rw [header, Bool.false_and]
  · simp [Scene.load]

/-- The payload words that are read are those of the answer, as far as it goes and unless a later request
    is waiting for one. -/
theorem triple_readWords : ∀ {count i : Nat}, 2 ≤ i →
    Triple (World.In (u := u) (Collects u asked taken k ws)) (readWords (u.receive i) count) (fun us w =>
      (us.length = count ∧ (taken.length = asked.length → ∀ j < count, ∀ v, ws[i + j]? = some v → us[j]? = some v)) ∧
        World.In (Collects u asked taken k ws) w) F
  | 0, i, _ => Triple.pure fun _ h => ⟨⟨rfl, fun _ _ hj => absurd hj (Nat.not_lt_zero _)⟩, h⟩
  | count + 1, i, hi => by
    refine Triple.bind (triple_read (T := fun v s => (taken.length = asked.length → ∀ w, ws[i]? = some w → v = w) ∧
      Collects u asked taken k ws s) (fun _ _ h => h.move) fun s h => ⟨fun hall w hw => ?_, ?_⟩)
      fun v => Triple.of_imp fun hv => ?_
    · exact word_receive_of_stand (h.stand hall) hw
    · exact ⟨h.between.load hi, h.answer, h.most, h.stand⟩
    · refine Triple.bind (triple_readWords (i := i + 1) (by omega)) fun us => Triple.of_imp fun hus => Triple.pure fun _ h => ?_
      obtain ⟨hlength, hus⟩ := hus
      refine ⟨⟨by rw [List.length_cons, hlength], fun hall j hj w hw => ?_⟩, h⟩
      cases j with
      | zero => rw [hv hall w hw, List.getElem?_cons_zero]
      | succ j =>
        rw [List.getElem?_cons_succ]
        refine hus hall j (by omega) w ?_
        rw [← hw]
        congr 1
        omega

/-! ### Transactions and commands -/

/-- The words that are delivered are the payload of the answer, as far as it goes. -/
def Carries (ws : List UInt32) (words : Vector UInt32 n) : Prop :=
  ∀ i < n, ∀ v, ws[2 + i]? = some v → words.toList[i]? = some v

/-- How a transaction ends: it has asked for nothing, or it has asked and nothing has come, or it has asked
    and taken the oldest answer that had not been taken. -/
inductive Ends (u : MessagingUnit) (asked : List UInt32) (taken : List Taking) (opcode : UInt32)
    (buffer : Vector UInt32 n) (s : Scene) : Delivery n → Prop
  | unsent {given most : Nat} : Between u asked taken s → Ends u asked taken opcode buffer s
      (.error (.tooManyArgs given most), buffer)
  | unanswered {t : PollTimeout} : Between u (asked ++ [opcode]) taken s → Ends u asked taken opcode buffer s
      (.error (.timeout t), buffer)
  | took {r : Response} {ws : List UInt32} {words : Vector UInt32 n} :
      Collects u (asked ++ [opcode]) (taken ++ [⟨asked.length + 1, taken.length + 1, r.status⟩]) taken.length ws s →
      ws.take 2 = [r.header, r.status] → (taken.length = asked.length → Carries ws words) →
      Ends u asked taken opcode buffer s (.ok r, words)

theorem take_two {v w : UInt32} (hv : ws[0]? = some v) (hw : ws[1]? = some w) : ws.take 2 = [v, w] := by
  rcases ws with _ | ⟨a, _ | ⟨b, ws⟩⟩
  · cases hv
  · cases hw
  · cases hv
    cases hw
    rfl

theorem carries_overlay {us : List UInt32} (hlength : us.length = min n maxPayload) (hmost : ws.length ≤ receiveCount)
    (hus : ∀ j < min n maxPayload, ∀ v, ws[2 + j]? = some v → us[j]? = some v) : Carries ws (overlay us buffer) := by
  intro i hi v hv
  obtain ⟨hlt, -⟩ := List.getElem?_eq_some_iff.mp hv
  have hi' : i < min n maxPayload := by
    simp only [receiveCount, maxPayload] at hmost ⊢
    omega
  rw [toList_overlay, List.getElem?_append_left (by rw [List.length_take]; omega), List.getElem?_take_of_lt hi]
  exact hus i hi' v hv

theorem triple_transact {args : List UInt32} : Triple (World.In (u := u) (Between u asked taken))
    (u.transact ⟨opcode, args⟩ buffer) (fun d w => Ends u asked taken opcode buffer w.scene d) (fun _ => True) := by
  unfold transact
  split
  · exact Triple.pure fun _ h => .unsent h
  · rename_i hargs
    have hargs : args.length ≤ maxArgs := Nat.le_of_not_lt hargs
    refine Triple.bind triple_ask fun _ => Triple.bind (triple_writeWords ?_ fun b hb => ?_) fun _ => ?_
    · simp only [transmit]
      omega
    · obtain ⟨i, hi, rfl⟩ := mem_addresses_adjacent.mp hb
      have hi : i < maxArgs := Nat.lt_of_lt_of_le hi hargs
      simp only [maxArgs, transmit, receive] at hi ⊢
      omega
    refine Triple.bind (Triple.pollUntil waits_responseReady) fun waited => ?_
    cases waited with
    | error t => exact Triple.bind triple_log fun _ => Triple.pure fun _ h => .unanswered h
    | ok _ =>
      refine Triple.of_forall fun ws => ?_
      refine Triple.bind triple_header fun header => Triple.of_imp fun hheader => ?_
      refine Triple.bind triple_status fun status => Triple.of_imp fun hstatus => ?_
      refine Triple.bind (triple_readWords (by decide)) fun us => Triple.of_imp fun hus => ?_
      refine Triple.bind triple_log fun _ => Triple.pure fun w h => ?_
      refine .took ?_ (take_two hheader hstatus) fun hall => carries_overlay hus.1 h.most (hus.2 ?_)
      · rw [List.length_append] at h
        exact h
      · rw [List.length_append, List.length_append, hall]
        rfl

/-- What a command comes to by what its transaction does. -/
def commandOutcome (d : Delivery n) : Except Enclave.Error (Vector UInt32 n) := (Enclave.verdict d.1).map fun _ => d.2

theorem commandOutcome_answered {r : Response} {words : Vector UInt32 n} : commandOutcome (.ok r, words) =
    if r.status != Enclave.successStatus then .error (.failed r.status) else .ok words := by
  show (if r.status != Enclave.successStatus then Except.error _ else Except.ok ()).map _ = _
  split <;> rfl

theorem triple_command {busAddress : UInt64} {size : Nat} {args : List UInt32} :
    Triple (World.In (u := u) (Between u asked taken)) ((World.enclave u busAddress size).command opcode args n)
      (fun o w => ∃ d, Ends u asked taken opcode (Vector.replicate n 0) w.scene d ∧ o = commandOutcome d)
      (fun _ => True) := by
  refine Triple.bind triple_transact fun d => ?_
  obtain ⟨outcome, words⟩ := d
  cases outcome with
  | error e => exact Triple.pure fun _ h => ⟨_, h, rfl⟩
  | ok r =>
    refine Triple.bind (Q := fun _ w => Ends u asked taken opcode (Vector.replicate n 0) w.scene (.ok r, words))
      (Triple.update fun _ h => h) fun _ => ?_
    split
    · rename_i hstatus
      exact Triple.pure fun _ h => ⟨_, h, by rw [commandOutcome_answered, if_pos hstatus]⟩
    · rename_i hstatus
      exact Triple.pure fun _ h => ⟨_, h, by rw [commandOutcome_answered, if_neg hstatus]⟩

/-! ### Courses -/

def Call.timedOut (c : Call) : Bool :=
  match c.outcome with
  | .error (.channel (.timeout _)) => true
  | _ => false

/-- A command that got an answer did not time out, whatever the answer says. -/
theorem timedOut_answered {r : Response} {words : Vector UInt32 n} :
    Call.timedOut ⟨opcode, (commandOutcome (.ok r, words)).map Vector.toList⟩ = false := by
  rw [commandOutcome_answered]
  split <;> rfl

section Courses
variable {busAddress : UInt64} {size : Nat} {start w t : World u} {calls : List Call}

/-- Every request has been answered in time or has timed out. -/
theorem Course.between (hstart : start.IsStart) (h : Course (World.enclave u busAddress size) start calls w) :
    Between u w.scene.asked w.scene.taken w.scene ∧
      w.scene.asked.length = w.scene.taken.length + calls.countP Call.timedOut := by
  induction h with
  | nil =>
    refine ⟨.empty rfl rfl ?_ ?_ hstart.header hstart.status, ?_⟩
    · rw [hstart.answers, hstart.taken]
      rfl
    · rw [hstart.answers]
      exact Nat.zero_le _
    · rw [hstart.asked, hstart.taken]
      rfl
  | @snoc calls w t opcode args n outcome _ hcommand ih =>
    obtain ⟨hbetween, hcount⟩ := ih
    obtain ⟨d, hends, rfl⟩ := triple_command.ok hbetween hcommand
    rw [List.countP_append]
    cases hends with
    | unsent h =>
      rw [h.asked_eq, h.taken_eq]
      exact ⟨h, hcount⟩
    | unanswered h =>
      -- The answer may still come: from here on there is one request more that no status was taken for.
      rw [h.asked_eq, h.taken_eq, List.length_append, hcount, Nat.add_assoc]
      exact ⟨h, rfl⟩
    | @took r ws words h =>
      have hanswered : [Call.mk opcode ((commandOutcome (.ok r, words)).map Vector.toList)].countP Call.timedOut = 0 :=
        List.countP_cons_of_neg (by rw [timedOut_answered]; exact Bool.false_ne_true)
      rw [h.between.asked_eq, h.between.taken_eq, List.length_append, List.length_append, hanswered]
      refine ⟨h.between, ?_⟩
      simp only [List.length_singleton]
      omega

/-- A command that succeeds has taken one answer, which is the one to its own request exactly if no command
    before it has timed out, and one to an earlier request otherwise. If it is its own, the command yields
    the payload of that answer. -/
theorem command_takesOwn_iff {opcode : UInt32} {args : List UInt32} {words : Vector UInt32 n} (hstart : start.IsStart)
    (hcourse : Course (World.enclave u busAddress size) start calls w)
    (hcommand : (World.enclave u busAddress size).command opcode args n w = (.ok (.ok words), t)) :
    ∃ x ws, t.scene.asked = w.scene.asked ++ [opcode] ∧ t.scene.taken = w.scene.taken ++ [x] ∧
      x.request = t.scene.asked.length ∧ x.answer ≤ x.request ∧ x.status = Enclave.successStatus ∧
      t.scene.answers[x.answer - 1]? = some ws ∧ ws[1]? = some x.status ∧
      (x.answer = x.request ↔ ∀ c ∈ calls, c.timedOut = false) ∧ (x.answer = x.request → Carries ws words) := by
  obtain ⟨hbetween, hcount⟩ := hcourse.between hstart
  obtain ⟨⟨outcome, words'⟩, hends, heq⟩ := triple_command.ok hbetween hcommand
  cases hends with
  | unsent h => cases heq
  | unanswered h => cases heq
  | @took r ws _ h hfront hcarries =>
    rw [commandOutcome_answered] at heq
    split at heq
    · cases heq
    · rename_i hstatus
      cases heq
      have hnone : w.scene.taken.length = w.scene.asked.length ↔ ∀ c ∈ calls, c.timedOut = false := by
        simp only [← Bool.not_eq_true, ← List.countP_eq_zero]
        omega
      have hasked : t.scene.asked.length = w.scene.asked.length + 1 := by
        rw [h.between.asked_eq, List.length_append]
        rfl
      refine ⟨⟨_, _, r.status⟩, ws, h.between.asked_eq, h.between.taken_eq, hasked.symm,
        Nat.succ_le_succ (by omega), by simpa using hstatus, h.answer, ?_, ?_, fun hown => hcarries (Nat.succ.inj hown)⟩
      · rw [← List.getElem?_take_of_lt (show 1 < 2 by decide), hfront]
        rfl
      · rw [← hnone]
        exact Nat.succ_inj

end Courses

/-- A unit whose processor looks for an answer a few times only. -/
def impatient : MessagingUnit := { base := 0x1000, budget := .within 0 }

/-- An enclave that does what the script says, and memory that is full of elevens. -/
def scripted (script : Nat → List Move) : World impatient where
  scene :=
    { words := fun _ => 0, unread := fun _ => false, memory := fun _ => 11, asked := [], answers := [], taken := [] }
  script := script
  clock _ := 0
  patience := 1

theorem scripted_isStart {script : Nat → List Move} : (scripted script).IsStart := ⟨rfl, rfl, rfl, rfl, rfl⟩

/-- An answer by which the random source is ready. -/
def readyAnswer : List UInt32 := [0xe1000000, Enclave.successStatus, 0x203]

/-- Two requests, each of them answered in time. -/
def prompt : World impatient := scripted fun
  | 1 => [.latch readyAnswer]
  | 6 => [.latch [0xe2000000, Enclave.successStatus]]
  | _ => []

def promptFirst : Except Fault (Except Enclave.Error (Vector UInt32 1)) × World impatient :=
  (World.enclave impatient 0 16).command Enclave.getTrngState [] 1 prompt

def promptSecond : Except Fault (Except Enclave.Error (Vector UInt32 0)) × World impatient :=
  (World.enclave impatient 0 16).command Enclave.releaseMasterId [] 0 promptFirst.2

theorem command_takesOwn_iff_prompt : prompt.IsStart ∧
    Course (World.enclave impatient 0 16) prompt [⟨Enclave.getTrngState, .ok [0x203]⟩] promptFirst.2 ∧
    promptSecond.1 = .ok (.ok #v[]) ∧ ∃ x ws, promptSecond.2.scene.taken = promptFirst.2.scene.taken ++ [x] ∧
      x.answer = x.request ∧ promptSecond.2.scene.answers[x.answer - 1]? = some ws ∧ ws[1]? = some x.status := by
  have hfirst : promptFirst = (.ok (.ok #v[0x203]), promptFirst.2) := Prod.ext (by decide +kernel) rfl
  have hsecond : promptSecond = (.ok (.ok #v[]), promptSecond.2) := Prod.ext (by decide +kernel) rfl
  have hcourse : Course (World.enclave impatient 0 16) prompt [⟨Enclave.getTrngState, .ok [0x203]⟩] promptFirst.2 :=
    Course.nil.snoc hfirst
  obtain ⟨x, ws, -, htaken, -, -, -, hanswer, hstatus, hown, -⟩ :=
    command_takesOwn_iff scripted_isStart hcourse hsecond
  refine ⟨scripted_isStart, hcourse, congrArg Prod.fst hsecond, x, ws, htaken, hown.mpr fun c hc => ?_, hanswer, hstatus⟩
  rw [List.mem_singleton.mp hc]
  rfl

/-! ### Operations are courses of commands -/

section Operations
variable {busAddress : UInt64} {size : Nat} {start : World u} {calls : List Call}

/-- From some commands on, the world has been reached by more of them. -/
def GoesOn (busAddress : UInt64) (size : Nat) (start : World u) (calls : List Call) (w : World u) : Prop :=
  ∃ more, Course (World.enclave u busAddress size) start (calls ++ more) w

/-- What a run does to the world is done by commands to the enclave. -/
def Commands {α : Type} (busAddress : UInt64) (size : Nat) (x : Run (World u) α) : Prop :=
  ∀ start calls, Triple (GoesOn busAddress size start calls) x (fun _ => GoesOn busAddress size start calls) fun _ => True

namespace Commands
variable {α β : Type}

theorem pure {a : α} : Commands (u := u) busAddress size (Pure.pure a) := fun _ _ => Triple.pure fun _ h => h

theorem bind {x : Run (World u) α} {f : α → Run (World u) β} (hx : Commands busAddress size x)
    (hf : ∀ a, Commands busAddress size (f a)) : Commands busAddress size (x >>= f) :=
  fun start calls => Triple.bind (hx start calls) fun a => hf a start calls

theorem view {f : World u → α} : Commands busAddress size (Run.view f) := fun _ _ => Triple.view fun _ h => h

/-- Neither a message nor handing coherent memory over is seen by the enclave. -/
theorem unseen {f : World u → World u} (hf : ∀ w, f w = w) : Commands busAddress size (Run.update f) :=
  fun _ _ => Triple.update fun w h => by rwa [hf w]

theorem command {args : List UInt32} :
    Commands busAddress size ((World.enclave u busAddress size).command opcode args n) := by
  rintro start calls w ⟨more, h⟩
  split
  · rename_i outcome t hcommand
    refine ⟨more ++ [⟨opcode, outcome.map Vector.toList⟩], ?_⟩
    rw [← List.append_assoc]
    exact h.snoc hcommand
  · trivial

theorem socInfo : Commands busAddress size (World.enclave u busAddress size).socInfo := by
  unfold Enclave.socInfo
  split
  · exact pure
  · refine bind (unseen fun _ => rfl) fun _ => bind command fun outcome => ?_
    cases outcome with
    | error e => exact pure
    | ok _ => exact bind (unseen fun _ => rfl) fun _ => bind view fun _ => bind (unseen fun _ => rfl) fun _ => pure

theorem trngState : Commands busAddress size (World.enclave u busAddress size).trngState := by
  refine bind command fun outcome => ?_
  cases outcome with
  | error e => exact pure
  | ok _ => exact pure

theorem transfer : Commands busAddress size (World.enclave u busAddress size).transfer := by
  refine bind (unseen fun _ => rfl) fun _ => bind command fun outcome => ?_
  cases outcome with
  | error e => exact bind (unseen fun _ => rfl) fun _ => pure
  | ok _ => exact bind (unseen fun _ => rfl) fun _ => bind view fun _ => pure

theorem fill : ∀ {count : Nat} {out : List UInt8}, Commands busAddress size ((World.enclave u busAddress size).fill count out)
  | 0, _ => pure
  | count + 1, out => by
    refine bind transfer fun outcome => ?_
    cases outcome with
    | error e => exact pure
    | ok bytes => exact bind fill fun _ => pure

theorem random {out : List UInt8} : Commands busAddress size ((World.enclave u busAddress size).random out) := by
  unfold Enclave.random
  split
  · exact pure
  · refine bind trngState fun outcome => ?_
    cases outcome with
    | error e => exact pure
    | ok state =>
      dsimp only
      split
      · exact fill
      · exact bind (unseen fun _ => rfl) fun _ => pure

theorem releaseFlash : Commands busAddress size (World.enclave u busAddress size).releaseFlash := by
  refine bind command fun outcome => ?_
  cases outcome with
  | error e => exact pure
  | ok _ => exact pure

end Commands

/-- Whatever is done by commands carries a course on. -/
theorem Course.goesOn {α : Type} {x : Run (World u) α} {a : α} {w t : World u}
    (h : Course (World.enclave u busAddress size) start calls w) (hx : Commands busAddress size x)
    (hrun : x w = (.ok a, t)) : ∃ more, Course (World.enclave u busAddress size) start (calls ++ more) t :=
  (hx start calls).ok ⟨[], by rwa [List.append_nil]⟩ hrun

end Operations

/-- The answer to the first request comes when the processor has given up waiting, the one to the second in
    time, and none to the third. -/
def late : World impatient := scripted fun
  | 6 | 11 => [.latch readyAnswer]
  | _ => []

def lateState : Except Fault (Except Enclave.Error TrngState) × World impatient :=
  (World.enclave impatient 0 16).trngState late

def lateRandom : Except Fault (Except Enclave.Error Unit × List UInt8) × World impatient :=
  (World.enclave impatient 0 16).random (List.replicate 16 0xaa) lateState.2

/-- After a query of the random source that timed out, random bytes are reported that nobody wrote: the
    request for them has no answer, and what was taken for it answers the query before. -/
theorem random_takesLate : late.IsStart ∧ lateState.1 = .ok (.error (.channel (.timeout ⟨0⟩))) ∧
    lateRandom.1 = .ok (.ok (), List.replicate 16 11) ∧
    lateRandom.2.scene.asked = [Enclave.getTrngState, Enclave.getTrngState, Enclave.getRandom] ∧
    lateRandom.2.scene.answers.length = 2 ∧
    lateRandom.2.scene.taken = [⟨2, 1, Enclave.successStatus⟩, ⟨3, 2, Enclave.successStatus⟩] ∧
    ∀ turn i b, .deliver i b ∉ late.script turn := by
  refine ⟨scripted_isStart, ?_, ?_, ?_, ?_, ?_, fun turn i b h => ?_⟩
  · decide +kernel
  · decide +kernel
  · decide +kernel
  · decide +kernel
  · decide +kernel
  · simp only [late, scripted] at h
    split at h <;> simp at h

end MessagingUnit
end PowerFirmware
