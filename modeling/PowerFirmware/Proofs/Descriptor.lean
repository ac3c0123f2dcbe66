import Mathlib.Data.List.GetD
import PowerFirmware.Firmware
import PowerFirmware.Proofs.Discovery
import PowerFirmware.Proofs.Suspend.Resuming

/-! The descriptor of the chip, from the bytes that the enclave writes to the registers that a caller gets.
Main statement: a descriptor holds its bytes exactly; initialising the monitor asks the enclave for it, and once
that is granted every later call that asks for the chip's identity is told the words that were there then,
whatever goes on in between and whatever the memory holds by then (`Firmware.descriptor_published`). -/

namespace PowerFirmware
open Run

/-! ### Bytes and words -/

namespace LittleEndian
variable {bs : List UInt8} {n : Nat}

theorem toNat_word : (word bs).toNat = (bs.getD 0 0).toNat + 2 ^ 8 * (bs.getD 1 0).toNat +
    2 ^ 16 * (bs.getD 2 0).toNat + 2 ^ 24 * (bs.getD 3 0).toNat := by
  have h0 := (bs.getD 0 0).toNat_lt
  have h1 := (bs.getD 1 0).toNat_lt
  have h2 := (bs.getD 2 0).toNat_lt
  have hshift : ∀ (b : UInt8) (k : UInt32), k.toNat ≤ 24 → (b.toUInt32 <<< k).toNat = 2 ^ k.toNat * b.toNat := by
    intro b k hk
    have hpow : 2 ^ k.toNat * b.toNat < 2 ^ 32 :=
      Nat.lt_of_lt_of_le (Nat.mul_lt_mul_of_pos_left b.toNat_lt (Nat.two_pow_pos _))
        (by rw [← Nat.pow_add]; exact Nat.pow_le_pow_right (by decide) (by omega))
    rw [UInt32.toNat_shiftLeft, UInt8.toNat_toUInt32, Nat.mod_eq_of_lt (by omega : k.toNat < 32), Nat.shiftLeft_eq,
      Nat.mul_comm, Nat.mod_eq_of_lt hpow]
  rw [word, UInt32.toNat_or, UInt32.toNat_or, UInt32.toNat_or, hshift _ 8 (by decide), hshift _ 16 (by decide),
    hshift _ 24 (by decide), UInt8.toNat_toUInt32]
  -- Each byte lies above those before it, so that putting them together adds them up.
  show _ ||| 2 ^ 8 * _ ||| 2 ^ 16 * _ ||| 2 ^ 24 * _ = _
  rw [Nat.or_comm _ (2 ^ 8 * _), ← Nat.two_pow_add_eq_or_of_lt h0, Nat.or_comm _ (2 ^ 16 * _),
    ← Nat.two_pow_add_eq_or_of_lt (by omega), Nat.or_comm _ (2 ^ 24 * _), ← Nat.two_pow_add_eq_or_of_lt (by omega)]
  omega

/-- A word is written as the bytes that it was read from. -/
theorem bytes_word : bytes (word bs) = [bs.getD 0 0, bs.getD 1 0, bs.getD 2 0, bs.getD 3 0] := by
  have h0 := (bs.getD 0 0).toNat_lt
  have h1 := (bs.getD 1 0).toNat_lt
  have h2 := (bs.getD 2 0).toNat_lt
  have h3 := (bs.getD 3 0).toNat_lt
  refine List.map_injective_iff.mpr (fun _ _ => UInt8.toNat_inj.mp) ?_
  rw [toNat_bytes, toNat_word]
  simp only [List.range_succ, List.range_zero, List.map_cons, List.map_nil, List.nil_append, List.cons_append,
    Nat.shiftRight_eq_div_pow, List.cons.injEq, and_true]
  omega

theorem flatMap_bytes_wordAt (bs : List UInt8) (n : Nat) :
    (List.range n).flatMap (fun i => bytes (wordAt bs i)) = (List.range (4 * n)).map (bs.getD · 0) := by
  induction n with
  | zero => rfl
  | succ n ih =>
    have hget : ∀ j, (bs.drop (4 * n)).getD j 0 = bs.getD (4 * n + j) 0 := fun j => by
      rw [List.getD_eq_getElem?_getD, List.getD_eq_getElem?_getD, List.getElem?_drop]
    rw [List.range_succ, List.flatMap_append, ih, List.flatMap_singleton, wordAt, bytes_word, Nat.mul_succ]
    simp only [hget, List.range_succ, List.map_append, List.map_cons, List.map_nil, List.append_assoc,
      List.cons_append, List.nil_append, Nat.add_zero]

/-- The words before the place where a list is cut are those of the whole list. -/
theorem wordAt_take {i : Nat} (h : 4 * (i + 1) ≤ n) : wordAt (bs.take n) i = wordAt bs i := by
  have hget : ∀ j < 4, ((bs.take n).drop (4 * i)).getD j 0 = (bs.drop (4 * i)).getD j 0 := fun j hj => by
    rw [List.getD_eq_getElem?_getD, List.getD_eq_getElem?_getD, List.getElem?_drop, List.getElem?_drop,
      List.getElem?_take_of_lt (by omega)]
  simp only [wordAt, word, hget 0 (by decide), hget 1 (by decide), hget 2 (by decide), hget 3 (by decide)]

end LittleEndian

/-- What is read with zeros for what is missing is the list cut or filled up to length. -/
theorem map_getD_range (bs : List UInt8) (n : Nat) :
    (List.range n).map (bs.getD · 0) = (bs ++ List.replicate n 0).take n := by
  refine List.ext_getElem (by simp) fun i hi _ => ?_
  have hlt : i < n := by simpa using hi
  rw [List.getElem_map, List.getElem_range, List.getElem_take]
  by_cases hin : i < bs.length
  · rw [List.getElem_append_left hin, List.getD_eq_getElem _ _ hin]
  · rw [List.getElem_append_right (by omega), List.getElem_replicate, List.getD_eq_default _ _ (by omega)]

namespace SocInfo
variable {bs cs : List UInt8}

theorem toList_ofFn (w : Nat → UInt32) (k n : Nat) :
    (Vector.ofFn fun i : Fin n => w (k + i)).toList = (List.range' k n).map w :=
  List.ext_getElem (by simp) fun _ _ _ => by simp

/-- Field after field, the words of a descriptor are those that it was made of. -/
theorem words_ofWords (w : Nat → UInt32) : (ofWords w).words = (List.range 64).map w := by
  simp only [words, ofWords, toList_ofFn]
  rfl

theorem toBytes_ofBytes (bs : List UInt8) : (ofBytes bs).toBytes = (bs ++ List.replicate size 0).take size := by
  have hcut : ∀ i < size, (bs.take size).getD i 0 = bs.getD i 0 := fun i hi => by
    rw [List.getD_eq_getElem?_getD, List.getD_eq_getElem?_getD, List.getElem?_take_of_lt hi]
  rw [toBytes, ofBytes, words_ofWords, List.flatMap_map, LittleEndian.flatMap_bytes_wordAt, ← map_getD_range]
  exact List.map_congr_left fun i hi => hcut i (List.mem_range.mp hi)

theorem toBytes_ofBytes_of_length (h : bs.length = size) : (ofBytes bs).toBytes = bs := by
  rw [toBytes_ofBytes, List.take_left' h]

theorem ofBytes_inj (hb : bs.length = size) (hc : cs.length = size) (h : ofBytes bs = ofBytes cs) : bs = cs := by
  rw [← toBytes_ofBytes_of_length hb, h, toBytes_ofBytes_of_length hc]

theorem ofBytes_take (bs : List UInt8) : ofBytes (bs.take size) = ofBytes bs := by
  rw [ofBytes, List.take_take, Nat.min_self, ofBytes]

/-- What a caller is told of a chip: its number, and the unique identifier in two registers. -/
theorem registers_ofBytes (bs : List UInt8) :
    ([(ofBytes bs).soc.toUInt64, (ofBytes bs).uidPair.1, (ofBytes bs).uidPair.2] : List UInt64) =
      [(LittleEndian.wordAt bs 1).toUInt64,
        (LittleEndian.wordAt bs 4).toUInt64 ||| (LittleEndian.wordAt bs 3).toUInt64 <<< 32,
        (LittleEndian.wordAt bs 6).toUInt64 ||| (LittleEndian.wordAt bs 5).toUInt64 <<< 32] := by
  have hword : ∀ i < 64, LittleEndian.wordAt (bs.take size) i = LittleEndian.wordAt bs i := fun i hi =>
    LittleEndian.wordAt_take (by rw [size]; omega)
  rw [← hword 1 (by decide), ← hword 3 (by decide), ← hword 4 (by decide), ← hword 5 (by decide),
    ← hword 6 (by decide)]
  rfl

end SocInfo

/-! ### The memory of the enclave -/

/-- A region of memory that the enclave writes to whenever it likes: what is seen of it goes by all that has
    happened. -/
def Environment.memory {κ : Type} (env : Environment κ) (busAddress : UInt64) (size : Nat)
    (holds : List (Event κ) → Vector UInt8 size) : DmaRegion (History env) where
  busAddress := busAddress
  size := size
  prepare := id
  complete := id
  bytes past := holds past.events

section State
variable {σ τ α β : Type} {x : StateT τ (Run σ) α} {f : α → StateT τ (Run σ) β} {y : Run σ α} {a : α} {c d : τ}
variable {s t : σ}

theorem Run.bind_of_state (h : x c s = (.ok (a, d), t)) : (x >>= f) c s = f a d t := bind_of_ok (x := x c) h

theorem Run.liftM_state (h : y s = (.ok a, t)) : (liftM y : StateT τ (Run σ) α) c s = (.ok (a, c), t) := bind_of_ok h

end State

namespace Enclave

/-- The enclave says that it has done what it was asked. -/
def Grants (x : Exchange) : Prop := ∃ r, x.outcome = .ok r ∧ r.status = successStatus

theorem verdict_of_grants {x : Exchange} (h : Grants x) : verdict x.outcome = .ok () := by
  obtain ⟨r, hr, hstatus⟩ := h
  rw [hr, verdict, hstatus]
  rfl

theorem exists_verdict_of_not_grants {x : Exchange} (h : ¬Grants x) : ∃ e, verdict x.outcome = .error e := by
  rcases houtcome : x.outcome with e | r
  · exact ⟨.channel e, rfl⟩
  · refine ⟨.failed r.status, if_pos (bne_iff_ne.mpr fun hstatus => h ⟨r, houtcome, hstatus⟩)⟩

/-- How the enclave is asked for its descriptor, and what comes of it: in a region that is too small for one it is
    not asked at all, and else it is asked once. If it grants that, the descriptor is what the region holds then. -/
inductive Identifies {κ : Type} (busAddress : UInt64) {size : Nat} (holds : List (Event κ) → Vector UInt8 size)
    (past : List (Event κ)) : List (Event κ) → Except Error SocInfo → Prop
  | small : size < SocInfo.size → Identifies busAddress holds past [] (.error .invalidArgument)
  | asked {x : Exchange} : SocInfo.size ≤ size →
      x.request = ⟨getInfo, [(busAddress >>> 32).toUInt32, busAddress.toUInt32, UInt32.ofNat SocInfo.size]⟩ →
      Identifies busAddress holds past [.enclave x]
        ((verdict x.outcome).map fun _ => .ofBytes (holds (past ++ [.enclave x])).toList)

end Enclave

section Asking
variable {κ : Type} {env : Environment κ}
variable (busAddress : UInt64) {size : Nat} (holds : List (Event κ) → Vector UInt8 size)

theorem answers_command (region : DmaRegion (History env)) (opcode : UInt32) (args : List UInt32) (n : Nat) :
    Answers ((env.platform region).enclave.command opcode args n) := by
  refine .bind .access ?_
  rintro ⟨_ | response, words⟩
  · exact .pure
  · refine .bind .update fun _ => ?_
    split <;> exact .pure

theorem Enclave.socInfo_identifies (past : History env) : ∃ o L,
    (env.platform (env.memory busAddress size holds)).enclave.socInfo past = (.ok o, past.add L) ∧
      env.Allows past.events L ∧ Identifies busAddress holds past.events L o := by
  rw [socInfo]
  split
  · rename_i hsmall
    exact ⟨_, [], by rw [History.add_nil]; rfl, trivial, .small hsmall⟩
  · rename_i hlarge
    have hprepare : Run.update (env.memory busAddress size holds).prepare past = (.ok (), past) := rfl
    obtain ⟨_, _, hcommand, allowed, x, rfl, hx, rfl⟩ := Platform.does_command.answers (answers_command
      (env.memory busAddress size holds) getInfo
      [(busAddress >>> 32).toUInt32, busAddress.toUInt32, UInt32.ofNat SocInfo.size] 0) past
    refine ⟨_, [.enclave x], (bind_of_ok hprepare).trans ((bind_of_ok hcommand).trans ?_), allowed,
      .asked (Nat.le_of_not_lt hlarge) hx⟩
    rcases verdict x.outcome with e | _
    · rfl
    · have hcomplete : Run.update (env.memory busAddress size holds).complete (past.add [.enclave x]) =
          (.ok (), past.add [.enclave x]) := rfl
      have hfront : (env.memory busAddress size holds).front SocInfo.size (past.add [.enclave x]) =
          (.ok ((holds (past.events ++ [.enclave x])).toList.take SocInfo.size), past.add [.enclave x]) := by
        rw [← Vector.toList_take]
        rfl
      refine (bind_of_ok hcomplete).trans ((bind_of_ok hfront).trans ?_)
      rw [SocInfo.ofBytes_take]
      rfl

/-- Initialising the monitor always comes to an end. Whatever becomes of the agents, the enclave is asked for its
    descriptor after that, and the monitor knows what it is told, or else what it knew before. -/
theorem Monitor.init_identifies (m : Monitor) (c : Controller κ) (past : History env) :
    ∃ m' c', ∃ xs : List Exchange, ∃ L o,
    m.init (env.platform (env.memory busAddress size holds)) c past =
        (.ok (m', c'), past.add (xs.map .manager ++ L)) ∧
      env.Allows past.events (xs.map .manager ++ L) ∧
      Enclave.Identifies busAddress holds (past.events ++ xs.map .manager) L o ∧
      m'.socInfo = o.toOption.or m.socInfo := by
  obtain ⟨⟨⟨outcome, agents⟩, client⟩, _, hresolve, hagents, xs, rfl, -⟩ :=
    (AgentTable.does_resolve (t := m.agents) (a := c.client) (env.memory busAddress size holds)).answers
      (AgentTable.answers_resolve _) past
  obtain ⟨o, L, hinfo, hasked, hidentifies⟩ := Enclave.socInfo_identifies busAddress holds (past.add (xs.map .manager))
  have hget : (get : StateT (Controller κ) (Run (History env)) (Controller κ)) c past = (.ok (c, c), past) := rfl
  have hset : (set { c with client } : StateT (Controller κ) (Run (History env)) PUnit) c
      (past.add (xs.map .manager)) = (.ok (⟨⟩, { c with client }), past.add (xs.map .manager)) := rfl
  refine ⟨{ agents, socInfo := o.toOption.or m.socInfo }, { c with client }, xs, L, o,
    (bind_of_state hget).trans ((bind_of_state (liftM_state hresolve)).trans ((bind_of_state hset).trans ?_)),
    Environment.allows_append.mpr ⟨hagents, hasked⟩, hidentifies, rfl⟩
  rw [History.add_add] at hinfo
  -- What becomes of the agents is complained of at most, so the enclave is asked in any case.
  have hthen : ∀ f : Except PlatformError SocInfo → StateT (Controller κ) (Run (History env)) Monitor,
      (liftM (env.platform (env.memory busAddress size holds)).socInfo >>= f) { c with client }
        (past.add (xs.map .manager)) =
          f (o.mapError .enclave) { c with client } (past.add (xs.map .manager ++ L)) :=
    fun f => bind_of_state (liftM_state (bind_of_ok hinfo))
  cases outcome with
  | ok =>
    refine (hthen _).trans ?_
    cases o <;> rfl
  | error e =>
    have hlog : (log .warn s!"SM agent discovery failed: {e.message}" : Run (History env) Unit)
        (past.add (xs.map .manager)) = (.ok (), past.add (xs.map .manager)) := rfl
    refine (bind_of_state (liftM_state hlog)).trans ((hthen _).trans ?_)
    cases o <;> rfl

end Asking

/-! ### Calls that come later -/

namespace Firmware
variable {σ κ α : Type} {f f' : Firmware κ} {s t : σ}

/-- No operation on the controller changes what the monitor remembers. -/
theorem onController_monitor {x : StateT (Controller κ) (Run σ) α} {a : α}
    (h : onController x f s = (.ok (a, f'), t)) : f'.monitor = f.monitor := by
  have hrun : onController x f s = (x f.controller >>= fun r => pure (r.1, { f with controller := r.2 })) s := by
    rw [bind_apply]
    refine (bind_apply (x := x f.controller >>= fun r => pure (r, f))).trans ?_
    rw [bind_apply]
    rcases x f.controller s with ⟨_ | _, _⟩ <;> rfl
  rw [hrun, bind_apply] at h
  split at h
  · cases h
    rfl
  · cases h

variable [Machine σ]

/-- The states of firmware and machine in which calls of any kind leave them, one after the other. Aside from
    the calls the machine, and memory with it, may change in any way. -/
inductive Later (p : Platform σ κ) (f : Firmware κ) (s : σ) : Firmware κ → σ → Prop
  | start : Later p f s f s
  | call {g g' : Firmware κ} {t t' : σ} {function : UInt32} {a : CallArgs} {r : CallReturn} :
      Later p f s g t → (handle p function a).run g t = (.ok (r, g'), t') → Later p f s g' t'
  | hook {g g' : Firmware κ} {t t' : σ} {α : Type} {x : Hook σ κ α} {o : Except PlatformError α} :
      Later p f s g t → (Firmware.hook x).run g t = (.ok (o, g'), t') → Later p f s g' t'
  | request {g g' : Firmware κ} {t t' : σ} {α : Type} {x : Scmi.Call σ α} {o : Except Scmi.Error α} :
      Later p f s g t → (manager x).run g t = (.ok (o, g'), t') → Later p f s g' t'
  | random {g : Firmware κ} {t t' : σ} {out : List UInt8} {r : Except PlatformError Unit × List UInt8} :
      Later p f s g t → p.random out t = (.ok r, t') → Later p f s g t'
  | aside {g : Firmware κ} {t t' : σ} : Later p f s g t → Later p f s g t'

theorem Later.monitor {p : Platform σ κ} (h : Later p f s f' t) : f'.monitor = f.monitor := by
  induction h with
  | start => rfl
  | @call g _ _ _ function a _ _ hrun ih =>
    exact (onController_monitor (x := g.monitor.handle p function a) hrun).trans ih
  | hook _ hrun ih => exact (onController_monitor hrun).trans ih
  | request _ hrun ih => exact (onController_monitor hrun).trans ih
  | random _ _ ih => exact ih
  | aside _ ih => exact ih

/-- The identity of the chip is told from what the monitor remembers, without any access. -/
theorem handle_socInfo {p : Platform σ κ} {info : SocInfo} {a : CallArgs} (h : f.monitor.socInfo = some info) :
    (handle p Monitor.socInfoFunction a).run f s =
      (.ok (⟨0, [info.soc.toUInt64, info.uidPair.1, info.uidPair.2]⟩, f), s) := by
  obtain ⟨c, ⟨agents, _⟩⟩ := f
  cases h
  rfl

theorem initMonitor_identifies {env : Environment κ} (busAddress : UInt64) {size : Nat}
    (holds : List (Event κ) → Vector UInt8 size) (f : Firmware κ) (past : History env) :
    ∃ agents f', ∃ xs : List Exchange, ∃ L o,
    (initMonitor (env.platform (env.memory busAddress size holds))).run f past =
        (.ok (agents, f'), past.add (xs.map .manager ++ L)) ∧
      env.Allows past.events (xs.map .manager ++ L) ∧
      Enclave.Identifies busAddress holds (past.events ++ xs.map .manager) L o ∧
      f'.monitor.socInfo = o.toOption.or f.monitor.socInfo := by
  obtain ⟨m', c', xs, L, o, hinit, hidentifies⟩ := Monitor.init_identifies busAddress holds f.monitor f.controller past
  refine ⟨m'.agents, { f with controller := c', monitor := m' }, xs, L, o, ?_, hidentifies⟩
  have hget : (get : Operation (History env) κ (Firmware κ)) f past = (.ok (f, f), past) := rfl
  have hrun : onController (f.monitor.init (env.platform (env.memory busAddress size holds))) f past =
      (.ok (m', { f with controller := c' }), past.add (xs.map .manager ++ L)) :=
    (bind_of_state hget).trans (bind_of_state (liftM_state hinit))
  exact (bind_of_state hget).trans (bind_of_state hrun)

/-- A descriptor holds bytes exactly: field by field they come back as they were, cut or filled up with zeros to
    the size of a descriptor, so that bytes of this size are told apart by their descriptor.

    Initialising the monitor always comes to an end. Whatever it finds out about the agents, it then asks the
    enclave for its descriptor, once, if there is room for one. If the enclave grants that, the chip is described
    by the words that memory holds at that moment: every later call for its identity, whatever calls of whatever
    kind go before it and whatever memory holds by then, accesses nothing and returns the number of the chip and
    the two halves of its unique identifier, from which all four words can be told. If not, the monitor still
    knows the descriptor that it knew before. -/
theorem descriptor_published :
    (∀ bs, (SocInfo.ofBytes bs).toBytes = (bs ++ List.replicate SocInfo.size 0).take SocInfo.size) ∧
    (∀ bs : List UInt8, bs.length = SocInfo.size → (SocInfo.ofBytes bs).toBytes = bs) ∧
    (∀ bs cs : List UInt8, bs.length = SocInfo.size → cs.length = SocInfo.size →
      SocInfo.ofBytes bs = SocInfo.ofBytes cs → bs = cs) ∧
    ∀ (env : Environment κ) (busAddress : UInt64) (size : Nat) (holds : List (Event κ) → Vector UInt8 size)
      (f : Firmware κ) (past : History env), ∃ agents f', ∃ xs : List Exchange, ∃ L,
        (initMonitor (env.platform (env.memory busAddress size holds))).run f past =
          (.ok (agents, f'), past.add (xs.map .manager ++ L)) ∧
        env.Allows past.events (xs.map .manager ++ L) ∧
        (size < SocInfo.size → L = [] ∧ f'.monitor.socInfo = f.monitor.socInfo) ∧
        (SocInfo.size ≤ size → ∃ x, L = [.enclave x] ∧
          x.request = ⟨Enclave.getInfo, [(busAddress >>> 32).toUInt32, busAddress.toUInt32, 256]⟩ ∧
          (¬Enclave.Grants x → f'.monitor.socInfo = f.monitor.socInfo) ∧
          (Enclave.Grants x →
            let w := LittleEndian.wordAt (holds (past.events ++ (xs.map .manager ++ [.enclave x]))).toList
            let upper := (w 4).toUInt64 ||| (w 3).toUInt64 <<< 32
            let lower := (w 6).toUInt64 ||| (w 5).toUInt64 <<< 32
            (∀ g later, Later (env.platform (env.memory busAddress size holds)) f'
              (past.add (xs.map .manager ++ L)) g later → ∀ a,
                (handle (env.platform (env.memory busAddress size holds)) Monitor.socInfoFunction a).run g later =
                  (.ok (⟨0, [(w 1).toUInt64, upper, lower]⟩, g), later)) ∧
            [(upper >>> 32).toUInt32, upper.toUInt32, (lower >>> 32).toUInt32, lower.toUInt32] =
              [w 3, w 4, w 5, w 6])) := by
  refine ⟨SocInfo.toBytes_ofBytes, fun _ => SocInfo.toBytes_ofBytes_of_length, fun _ _ => SocInfo.ofBytes_inj, ?_⟩
  intro env busAddress size holds f past
  obtain ⟨agents, f', xs, L, o, hinit, allowed, hidentifies, hknown⟩ :=
    initMonitor_identifies busAddress holds f past
  refine ⟨agents, f', xs, L, hinit, allowed, fun hsmall => ?_, fun hlarge => ?_⟩
  · cases hidentifies with
    | small => exact ⟨rfl, hknown⟩
    | asked hlarge => exact absurd hlarge (Nat.not_le.mpr hsmall)
  cases hidentifies with
  | small hsmall => exact absurd hlarge (Nat.not_le.mpr hsmall)
  | @asked x _ hx =>
    refine ⟨x, rfl, hx, fun hdenied => ?_, fun hgranted => ⟨fun g later hlater a => ?_, ?_⟩⟩
    · obtain ⟨e, he⟩ := Enclave.exists_verdict_of_not_grants hdenied
      rw [hknown, he]
      rfl
    · rw [Enclave.verdict_of_grants hgranted, List.append_assoc] at hknown
      rw [handle_socInfo ((congrArg Monitor.socInfo hlater.monitor).trans hknown), SocInfo.registers_ofBytes]
    · have hhalves : ∀ low high : UInt32, low.toUInt64 ||| high.toUInt64 <<< 32 = LittleEndian.ofHalves low high :=
        fun _ _ => rfl
      simp only [hhalves, LittleEndian.toUInt32_ofHalves, LittleEndian.toUInt32_ofHalves_shiftRight]

/-- An enclave that grants every request, and a memory that holds other bytes after every event. -/
def granting : Environment Unit :=
  { Platform.denying fun _ => true with enclave := fun _ q => (.ok ⟨q.opcode, Enclave.successStatus, 0⟩, [0x203]) }

def counting (events : List (Event Unit)) : Vector UInt8 SocInfo.size := .ofFn fun i => .ofNat (events.length + i)

def shared : Platform (History granting) Unit := granting.platform (granting.memory 0x90000000 SocInfo.size counting)

/-- The monitor after its initialisation on this platform. -/
def describedRun : Except Fault (AgentTable × Firmware Unit) × History granting :=
  (initMonitor shared).run { controller := { snapshot := { interrupts := () } } } ⟨[]⟩

/-- The descriptor outlasts the random bytes that come into the same memory. -/
theorem descriptor_published_random : ∃ agents f', ∃ xs : List Exchange, ∃ x r t,
    describedRun = (.ok (agents, f'), (⟨[]⟩ : History granting).add (xs.map .manager ++ [.enclave x])) ∧
      x.request = ⟨0x17da0406, [0, 0x90000000, 256]⟩ ∧ Enclave.Grants x ∧
      shared.random (List.replicate 20 0) ((⟨[]⟩ : History granting).add (xs.map .manager ++ [.enclave x])) =
        (.ok (.ok (), r), t) ∧
      (counting t.events)[0] ≠ (counting (xs.map .manager ++ [.enclave x]))[0] ∧
      (handle shared Monitor.socInfoFunction {}).run f' t =
        (.ok (⟨0, [0x09080706, 0x11100f0e15141312, 0x191817161d1c1b1a]⟩, f'), t) := by
  obtain ⟨-, -, -, hpublished⟩ := descriptor_published (κ := Unit)
  obtain ⟨agents, f', xs, L, hinit, allowed, -, hroom⟩ :=
    hpublished granting 0x90000000 SocInfo.size counting { controller := { snapshot := { interrupts := () } } } ⟨[]⟩
  obtain ⟨x, rfl, hx, -, htold⟩ := hroom (Nat.le_refl _)
  have hrun : describedRun =
      (.ok (agents, f'), (⟨[]⟩ : History granting).add (xs.map .manager ++ [.enclave x])) := hinit
  have hgranted : Enclave.Grants x :=
    ⟨_, congrArg Prod.fst (Environment.allows_append.mp allowed).2.1, rfl⟩
  have hlength : describedRun.2.events.length = 2 := by decide +kernel
  have hrandom : (shared.random (List.replicate 20 0) describedRun.2).1.toOption.map (·.1) = some (.ok ()) := by
    decide +kernel
  have hlater : (shared.random (List.replicate 20 0) describedRun.2).2.events.length = 5 := by decide +kernel
  rw [hrun] at hlength hrandom hlater
  obtain ⟨r, t, hr⟩ := Platform.exists_of_outcome hrandom
  rw [hr] at hlater
  have hthen : counting (xs.map .manager ++ [.enclave x]) = .ofFn fun i => .ofNat (2 + i) :=
    congrArg (fun n => Vector.ofFn fun i : Fin SocInfo.size => UInt8.ofNat (n + i)) hlength
  have hnow : counting t.events = .ofFn fun i => .ofNat (5 + i) :=
    congrArg (fun n => Vector.ofFn fun i : Fin SocInfo.size => UInt8.ofNat (n + i)) hlater
  refine ⟨agents, f', xs, x, r, t, hrun, hx, hgranted, hr, by rw [hthen, hnow]; decide +kernel, ?_⟩
  refine ((htold hgranted).1 f' t (.random .start hr) {}).trans ?_
  rw [List.nil_append, hthen]
  refine congrArg (fun more => (Except.ok (CallReturn.mk 0 more, f'), t)) ?_
  decide +kernel

end Firmware
end PowerFirmware
