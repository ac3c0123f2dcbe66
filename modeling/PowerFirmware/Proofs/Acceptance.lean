import PowerFirmware.Proofs.Operations

/-! Which replies an agent accepts, and what it reads in them. Main statement: an operation succeeds exactly
if its reply names the message that was sent, reports success and is long enough, and it then yields what
the words of the reply say; else it fails with what was wrong first (`ask_accepts`). -/

namespace PowerFirmware
open Run

/-- A word of the reply. Where nothing was copied, the buffer is zero. -/
def Exchange.word (x : Exchange) (i : Nat) : UInt32 := x.payload.getD i 0

namespace Scmi

/-! ### Status words -/

/-- What a status word stands for: the code that it holds in two's complement, or a generic error if it
    holds none. -/
inductive Status.Means : UInt32 → Status → Prop
  | named {w : UInt32} {s : Status} : w.toInt32.toInt = s.code → Means w s
  | unnamed {w : UInt32} : (∀ s : Status, w.toInt32.toInt ≠ s.code) → Means w .genericError

namespace Status
variable {w : UInt32} {s : Status}

theorem word_eq_iff : s.word = w ↔ w.toInt32.toInt = s.code := by
  have hcode : s.word.toBitVec.toInt = s.code := by cases s <;> decide
  rw [← hcode, ← UInt32.toBitVec_inj, eq_comm]
  exact BitVec.toInt_inj.symm

theorem ofWord_word (s : Status) : ofWord s.word = s := by cases s <;> decide

theorem ofWord_unnamed (h : ∀ s : Status, s.word ≠ w) : ofWord w = .genericError := by
  have hnone : ofWord? w = none := List.find?_eq_none.mpr fun s _ => by simpa using h s
  rw [ofWord, hnone, Option.getD_none]

theorem means_iff : Means w s ↔ s = ofWord w := by
  constructor
  · intro h
    cases h with
    | named h => rw [← word_eq_iff.mpr h, ofWord_word]
    | unnamed h => rw [ofWord_unnamed fun s hs => h s (word_eq_iff.mp hs)]
  · rintro rfl
    by_cases h : ∃ s : Status, s.word = w
    · obtain ⟨s, rfl⟩ := h
      rw [ofWord_word]
      exact .named (word_eq_iff.mp rfl)
    · rw [not_exists] at h
      rw [ofWord_unnamed h]
      exact .unnamed fun s hs => h s (word_eq_iff.mpr hs)

theorem ofWord_eq_success : ofWord w = .success ↔ w = 0 := by
  constructor
  · intro h
    by_cases hnamed : ∃ s : Status, s.word = w
    · obtain ⟨s, rfl⟩ := hnamed
      rw [ofWord_word] at h
      rw [h]
      rfl
    · rw [ofWord_unnamed (not_exists.mp hnamed)] at h
      cases h
  · rintro rfl
    decide

theorem ofWord_bne_success : (ofWord w != .success) = true ↔ w ≠ 0 := by
  rw [bne_iff_ne, ne_eq, ofWord_eq_success]

end Status

/-! ### Operations and what they yield -/

namespace Operation

def Result : Operation → Type
  | perform _ => Unit
  | baseAttributes => BaseAttributes
  | discoverAgent _ => AgentInfo
  | powerState _ | machineCount => UInt32
  | cpuInfo _ => CpuInfo

/-- The operation with what it yields. -/
def ask {σ : Type} [Machine σ] (channel : Channel σ) : (op : Operation) → Call σ op.Result
  | perform c => Client.perform channel c
  | baseAttributes => Client.baseAttributes channel
  | discoverAgent agent => Client.discoverAgent channel agent
  | powerState domain => Client.powerState channel domain
  | cpuInfo cpu => Client.cpuInfo channel cpu
  | machineCount => Client.machineCount channel

def decode : (op : Operation) → (Nat → UInt32) → op.Result
  | perform _, _ => ()
  | baseAttributes, w => .ofWord (w 0)
  | discoverAgent _, w => ⟨w 0, [w 1, w 2, w 3, w 4].flatMap LittleEndian.bytes⟩
  | powerState _, w => w 0
  | cpuInfo _, w => ⟨w 0, w 1, LittleEndian.ofHalves (w 2) (w 3)⟩
  | machineCount, w => w 0 &&& 0x1f

/-- How the operation ends by what its request came to. -/
def outcome (op : Operation) (x : Exchange) : Except Error op.Result :=
  (verdict op.command x.outcome).map fun _ => op.decode x.word

/-- What the words of a reply say: counts lie in the low bytes of a word, a name in the bytes of four words
    and a vector in two words, the least significant part first. -/
def Says : (op : Operation) → (Nat → UInt32) → op.Result → Prop
  | perform _, _, _ => True
  | baseAttributes, w, v => v.protocols.toNat = (w 0).toNat % 256 ∧ v.agents.toNat = (w 0).toNat / 256 % 256
  | discoverAgent _, w, v => v.id = w 0 ∧
      v.rawName.map UInt8.toNat = (List.range 16).map fun i => (w (1 + i / 4)).toNat >>> (8 * (i % 4)) % 256
  | powerState _, w, v => v = w 0
  | cpuInfo _, w, v => v.runCode = w 0 ∧ v.sleepCode = w 1 ∧
      v.resetVector.toNat = (w 2).toNat + UInt32.size * (w 3).toNat
  | machineCount, w, v => UInt32.toNat v = (w 0).toNat % 32

section Says
variable {op : Operation} {w : Nat → UInt32} {v v' : op.Result}

theorem says_decode : op.Says w (op.decode w) := by
  cases op with
  | perform => exact trivial
  | baseAttributes =>
    refine ⟨UInt32.toNat_toUInt8 _, ?_⟩
    show (w 0 >>> 8).toUInt8.toNat = _
    rw [UInt32.toNat_toUInt8, UInt32.toNat_shiftRight]
    exact congrArg (· % 256) (Nat.shiftRight_eq_div_pow _ 8)
  | discoverAgent =>
    refine ⟨rfl, ?_⟩
    show ([w 1, w 2, w 3, w 4].flatMap LittleEndian.bytes).map UInt8.toNat = _
    rw [List.map_flatMap]
    simp only [LittleEndian.toNat_bytes]
    rfl
  | powerState => exact rfl
  | cpuInfo => exact ⟨rfl, rfl, LittleEndian.toNat_ofHalves _ _⟩
  | machineCount =>
    show (w 0 &&& 0x1f).toNat = _
    rw [UInt32.toNat_and]
    exact Nat.and_two_pow_sub_one_eq_mod _ 5

theorem Says.unique (h : op.Says w v) (h' : op.Says w v') : v = v' := by
  cases op with
  | perform => rfl
  | baseAttributes =>
    obtain ⟨protocols, agents⟩ := v
    obtain ⟨protocols', agents'⟩ := v'
    exact congrArg₂ BaseAttributes.mk (UInt8.toNat_inj.mp (h.1.trans h'.1.symm))
      (UInt8.toNat_inj.mp (h.2.trans h'.2.symm))
  | discoverAgent =>
    obtain ⟨id, name⟩ := v
    obtain ⟨id', name'⟩ := v'
    refine congrArg₂ AgentInfo.mk (h.1.trans h'.1.symm) (List.map_injective_iff.mpr ?_ (h.2.trans h'.2.symm))
    exact fun _ _ => UInt8.toNat_inj.mp
  | powerState => exact h.trans h'.symm
  | cpuInfo =>
    obtain ⟨run, sleep, vector⟩ := v
    obtain ⟨run', sleep', vector'⟩ := v'
    obtain ⟨hrun, hsleep, hvector⟩ := h
    obtain ⟨hrun', hsleep', hvector'⟩ := h'
    cases hrun.trans hrun'.symm
    cases hsleep.trans hsleep'.symm
    cases UInt64.toNat_inj.mp (hvector.trans hvector'.symm)
    rfl
  | machineCount => exact UInt32.toNat_inj.mp (h.trans h'.symm)

theorem says_iff : op.Says w v ↔ v = op.decode w := by
  refine ⟨fun h => h.unique says_decode, ?_⟩
  rintro rfl
  exact says_decode

end Says
end Operation

/-! ### What becomes of a reply -/

/-- The reply names the protocol and the message that the request names. -/
def SameMessage (request reply : UInt32) : Prop :=
  (Header.decode reply).protocol = (Header.decode request).protocol ∧
    (Header.decode reply).message = (Header.decode request).message

/-- How an operation takes what its request came to. What is wrong first decides how it fails. -/
inductive Takes (op : Operation) (x : Exchange) : Except Error op.Result → Prop
  | undelivered {e : ChannelError} : x.outcome = .error e → Takes op x (.error (.channel e))
  | foreign {r : Response} : x.outcome = .ok r → ¬SameMessage x.request.opcode r.header →
      Takes op x (.error .badResponse)
  | failed {r : Response} {s : Status} : x.outcome = .ok r → SameMessage x.request.opcode r.header → r.status ≠ 0 →
      Status.Means r.status s → Takes op x (.error (.status s))
  | short {r : Response} : x.outcome = .ok r → SameMessage x.request.opcode r.header → r.status = 0 →
      r.length < op.command.replyWords → Takes op x (.error .badResponse)
  | accepted {r : Response} {v : op.Result} : x.outcome = .ok r → SameMessage x.request.opcode r.header →
      r.status = 0 → op.command.replyWords ≤ r.length → op.Says x.word v → Takes op x (.ok v)

section Takes
variable {op : Operation} {x : Exchange} {r : Response} {token : BitVec 10} {c : Command}

theorem sameMessage_iff {reply : UInt32} (h : x.request = c.request token) :
    SameMessage x.request.opcode reply ↔
      ((Header.decode reply).message != c.message || (Header.decode reply).protocol != c.protocol) = false := by
  have hheader : Header.decode x.request.opcode = c.header token := by
    rw [h]
    exact Header.decode_encode _
  rw [SameMessage, hheader, Bool.or_eq_false_iff, bne_eq_false_iff_eq, bne_eq_false_iff_eq, and_comm]
  rfl

theorem verdict_foreign (h : x.request = c.request token) (hr : ¬SameMessage x.request.opcode r.header) :
    verdict c (.ok r) = .error .badResponse := by
  rw [sameMessage_iff h, Bool.not_eq_false] at hr
  rw [verdict, if_pos hr]

theorem verdict_own (h : x.request = c.request token) (hr : SameMessage x.request.opcode r.header) :
    verdict c (.ok r) = if Status.ofWord r.status != .success then .error (.status (Status.ofWord r.status))
      else if r.length < c.replyWords then .error .badResponse else .ok () := by
  rw [sameMessage_iff h] at hr
  rw [verdict, hr]
  rfl

theorem takes_iff {o : Except Error op.Result} (h : x.request = op.command.request token) :
    Takes op x o ↔ o = op.outcome x := by
  constructor
  · intro htakes
    rw [Operation.outcome]
    cases htakes with
    | undelivered hx => rw [hx, verdict, Except.map]
    | foreign hx hforeign => rw [hx, verdict_foreign h hforeign, Except.map]
    | failed hx hsame hstatus hmeans =>
      rw [hx, verdict_own h hsame, if_pos (Status.ofWord_bne_success.mpr hstatus),
        Status.means_iff.mp hmeans, Except.map]
    | short hx hsame hstatus hshort =>
      rw [hx, verdict_own h hsame, if_neg (fun h => Status.ofWord_bne_success.mp h hstatus), if_pos hshort,
        Except.map]
    | accepted hx hsame hstatus hlength hsays =>
      rw [hx, verdict_own h hsame, if_neg (fun h => Status.ofWord_bne_success.mp h hstatus),
        if_neg (Nat.not_lt.mpr hlength), Except.map, Operation.says_iff.mp hsays]
  · rintro rfl
    rw [Operation.outcome]
    rcases hx : x.outcome with e | r
    · exact .undelivered hx
    · by_cases hsame : SameMessage x.request.opcode r.header
      · rw [verdict_own h hsame]
        split
        · rename_i hstatus
          exact .failed hx hsame (Status.ofWord_bne_success.mp hstatus) (Status.means_iff.mpr rfl)
        · rename_i hstatus
          rw [Status.ofWord_bne_success, not_not] at hstatus
          split
          · rename_i hshort
            exact .short hx hsame hstatus hshort
          · rename_i hlength
            exact .accepted hx hsame hstatus (Nat.le_of_not_lt hlength) Operation.says_decode
      · rw [verdict_foreign h hsame]
        exact .foreign hx hsame

end Takes
end Scmi

variable {κ : Type} {env : Environment κ} {region : DmaRegion (History env)} {a b : Scmi.Client} {L : List (Event κ)}
variable {cmd : Scmi.Command} {op : Scmi.Operation}

/-- How an operation goes: its table is too long to be sent, or it makes one exchange and ends by what that
    came to. -/
inductive Asked (a : Scmi.Client) (op : Scmi.Operation) :
    Except Scmi.Error op.Result → Scmi.Client → List (Event κ) → Prop
  | tooLong : op.command.fits = false → Asked a op (.error (.status .invalidParameters)) a []
  | exchanged {x : Exchange} : op.command.fits = true → x.request = op.command.request a.token →
      Asked a op (op.outcome x) a.next [.manager x]

theorem getElem_received {n i : Nat} (x : Exchange) (hi : i < n) :
    (overlay x.payload (Vector.replicate n 0))[i] = x.word i := by
  rw [getElem_overlay, Vector.getElem_replicate, Exchange.word]

theorem toList_received {n : Nat} (x : Exchange) :
    (overlay x.payload (Vector.replicate n 0)).toList = (List.range n).map x.word := by
  refine List.ext_getElem (by rw [Vector.length_toList, List.length_map, List.length_range]) fun i hi _ => ?_
  rw [Vector.length_toList] at hi
  rw [Vector.getElem_toList, getElem_received x hi, List.getElem_map, List.getElem_range]

/-- A call that makes of the words that come back what the operation makes of them. -/
theorem acts_asked (op : Scmi.Operation) (g : Vector UInt32 op.command.replyWords → op.Result)
    (hg : ∀ x : Exchange, g (overlay x.payload (.replicate op.command.replyWords 0)) = op.decode x.word) :
    Acts (Scmi.Client.call (env.platform region).manager op.command >>= fun words => pure (g words)) a (Asked a op) := by
  refine .bind (acts_calls.imp ?_)
  intro o b L hcalls
  cases hcalls with
  | tooLong hfits => exact Asked.tooLong hfits
  | @exchanged x hfits hx =>
    have hasked : Asked (κ := κ) a op _ _ _ := .exchanged hfits hx
    rw [Scmi.Operation.outcome, ← hg x] at hasked
    cases hv : Scmi.verdict op.command x.outcome with
    | error e =>
      rw [hv] at hasked
      exact hasked
    | ok _ =>
      rw [hv] at hasked
      exact .pure hasked

theorem acts_ask (region : DmaRegion (History env)) (op : Scmi.Operation) :
    Acts (op.ask (env.platform region).manager) a (Asked a op) := by
  cases op with
  | perform c => exact acts_asked (.perform c) (fun _ => ()) fun _ => rfl
  | baseAttributes =>
    refine acts_asked .baseAttributes (fun words : Vector UInt32 1 => .ofWord words[0]) fun x => ?_
    exact congrArg Scmi.BaseAttributes.ofWord (getElem_received x Nat.one_pos)
  | discoverAgent agent =>
    refine acts_asked (.discoverAgent agent)
      (fun words : Vector UInt32 5 => ⟨words[0], words.toList.tail.flatMap LittleEndian.bytes⟩) fun x => ?_
    refine congrArg₂ Scmi.AgentInfo.mk (getElem_received x (Nat.succ_pos 4)) ?_
    show ((overlay x.payload (Vector.replicate 5 0)).toList.tail.flatMap LittleEndian.bytes) = _
    rw [toList_received]
    rfl
  | powerState domain =>
    exact acts_asked (.powerState domain) (fun words : Vector UInt32 1 => words[0]) fun x =>
      getElem_received x Nat.one_pos
  | cpuInfo cpu =>
    refine acts_asked (.cpuInfo cpu)
      (fun words : Vector UInt32 4 => ⟨words[0], words[1], LittleEndian.ofHalves words[2] words[3]⟩) fun x => ?_
    have hword : ∀ {i : Nat} (hi : i < 4), (overlay x.payload (Vector.replicate 4 0))[i] = x.word i :=
      fun hi => getElem_received x hi
    show Scmi.CpuInfo.mk (overlay x.payload (Vector.replicate 4 0))[0] (overlay x.payload (Vector.replicate 4 0))[1]
      (LittleEndian.ofHalves (overlay x.payload (Vector.replicate 4 0))[2]
        (overlay x.payload (Vector.replicate 4 0))[3]) = _
    rw [hword, hword, hword, hword]
    rfl
  | machineCount =>
    refine acts_asked .machineCount (fun words : Vector UInt32 1 => words[0] &&& 0x1f) fun x => ?_
    exact congrArg (· &&& 0x1f) (getElem_received x Nat.one_pos)

theorem Asked.code_neg {o : Except Scmi.Error op.Result} {e : Scmi.Error} (h : Asked a op o b L) (he : o = .error e) :
    e.code < 0 := by
  cases h with
  | tooLong =>
    cases he
    decide
  | @exchanged x =>
    rcases hv : Scmi.verdict op.command x.outcome with e' | _
    · rw [Scmi.Operation.outcome, hv] at he
      cases he
      exact Scmi.code_neg_of_verdict hv
    · rw [Scmi.Operation.outcome, hv] at he
      cases he

theorem concludes_ask (region : DmaRegion (History env)) (op : Scmi.Operation) :
    Concludes (op.ask (env.platform region).manager) := by
  cases op <;> exact .bind concludes_call fun _ => .pure

/-- Whatever comes back, an operation fails with a negative code or succeeds. If its table is too long, nothing
    is sent and it is told so. Else it makes one exchange, and takes what that came to in the one way in which
    it may: the channel's failure first, then a reply that names another message, then a status other than
    zero, told by its name if it has one, then a reply that is too short; and only a reply of which nothing of
    this holds makes it succeed, with what the words of the reply say. -/
theorem ask_accepts (region : DmaRegion (History env)) (op : Scmi.Operation) (a : Scmi.Client) (past : History env) :
    ∃ L o b, (op.ask (env.platform region).manager).run.run a past = (.ok (o, b), past.add L) ∧
      (∀ e, o = .error e → e.code < 0 ∧ e ≠ .status .success) ∧
      ((op.command.fits = false ∧ L = [] ∧ o = .error (.status .invalidParameters)) ∨
        op.command.fits = true ∧ ∃ x, L = [.manager x] ∧ x.request = op.command.request a.token ∧
          ∀ o', Scmi.Takes op x o' ↔ o' = o) := by
  obtain ⟨⟨o, b⟩, L, hrun, -, hasked⟩ := (acts_ask region op).answers (concludes_ask region op a) past
  refine ⟨L, o, b, hrun, ?_, ?_⟩
  · intro e he
    have hcode : e.code < 0 := hasked.code_neg he
    refine ⟨hcode, ?_⟩
    rintro rfl
    exact absurd hcode (Int.lt_irrefl 0)
  · cases hasked with
    | tooLong hfits => exact .inl ⟨hfits, rfl, rfl⟩
    | exchanged hfits hx => exact .inr ⟨hfits, _, rfl, hx, fun _ => Scmi.takes_iff hx⟩

end PowerFirmware
