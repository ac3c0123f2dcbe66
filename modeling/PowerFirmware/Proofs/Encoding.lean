import PowerFirmware.Scmi.Reader

/-! Commands to the System Manager are read back from the words they travel as. Main statement: the
opcode and the arguments of a command say which command it is, and with which token it was sent
(`Scmi.Command.read?_opcode`). -/

namespace PowerFirmware

theorem LittleEndian.ofHalves_halves (w : UInt64) : ofHalves w.toUInt32 (w >>> 32).toUInt32 = w := by
  have hcount : UInt64.toBitVec 32 % 64 = 32#64 := rfl
  apply UInt64.eq_of_toBitVec_eq
  apply BitVec.eq_of_getLsbD_eq
  intro i hi
  simp only [ofHalves, UInt64.toBitVec_or, UInt32.toBitVec_toUInt64, UInt64.toBitVec_shiftLeft,
    UInt64.toBitVec_toUInt32, UInt64.toBitVec_shiftRight, hcount, BitVec.getLsbD_or, BitVec.getLsbD_setWidth,
    BitVec.shiftLeft_eq', BitVec.ushiftRight_eq', BitVec.getLsbD_shiftLeft, BitVec.getLsbD_ushiftRight,
    BitVec.toNat_ofNat]
  rcases Nat.lt_or_ge i 32 with hlow | hhigh
  · simp [hi, hlow]
  · have hback : 32 + (i - 32) = i := by omega
    have hnot : ¬i < 32 := by omega
    have hword : i - 32 < 32 := by omega
    have hdouble : i - 32 < 64 := by omega
    simp [hi, hnot, hword, hdouble, hback]

theorem LittleEndian.toUInt32_ofHalves (low high : UInt32) : (ofHalves low high).toUInt32 = low := by
  apply UInt32.eq_of_toBitVec_eq
  apply BitVec.eq_of_getLsbD_eq
  intro i hi
  simp [ofHalves, hi]

theorem LittleEndian.toUInt32_ofHalves_shiftRight (low high : UInt32) : (ofHalves low high >>> 32).toUInt32 = high := by
  apply UInt32.eq_of_toBitVec_eq
  apply BitVec.eq_of_getLsbD_eq
  intro i hi
  have hdouble : 32 + i < 64 := by omega
  simp [ofHalves, hi, hdouble]

theorem LittleEndian.toNat_ofHalves (low high : UInt32) :
    (ofHalves low high).toNat = low.toNat + UInt32.size * high.toNat := by
  have hlt := high.toNat_lt
  have hhigh : (high.toUInt64 <<< 32).toNat = UInt32.size * high.toNat := by
    simp [UInt64.toNat_shiftLeft, Nat.shiftLeft_eq, UInt32.size]
    omega
  rw [ofHalves, UInt64.toNat_or, hhigh, UInt32.toNat_toUInt64, Nat.or_comm,
    ← Nat.two_pow_add_eq_or_of_lt low.toNat_lt, Nat.add_comm]

theorem LittleEndian.toNat_bytes (w : UInt32) :
    (bytes w).map UInt8.toNat = (List.range 4).map fun i => w.toNat >>> (8 * i) % 256 := by
  simp [bytes, List.range_succ]

namespace Scmi

/-- Message, protocol and token have bits of their own in the header word. -/
theorem Header.decode_encode (h : Header) : decode h.encode = h := by
  obtain ⟨protocol, message, token⟩ := h
  have hmessage : (encode ⟨protocol, message, token⟩).toUInt8 = message := by
    apply UInt8.eq_of_toBitVec_eq
    ext i hi
    simp [encode]
  have hprotocol : (encode ⟨protocol, message, token⟩ >>> 10).toUInt8 = protocol := by
    apply UInt8.eq_of_toBitVec_eq
    ext i hi
    have hmessage : message.toBitVec.getLsbD (10 + i) = false := BitVec.getLsbD_of_ge _ _ (by omega)
    have htoken : 10 + i < 18 := by omega
    have hword : 10 + i < 32 := by omega
    have hshift : ¬10 + i < 10 := by omega
    simp [encode, hmessage, htoken, hword, hshift, hi]
  have htoken : (encode ⟨protocol, message, token⟩ >>> 18).toBitVec.setWidth 10 = token := by
    ext i hi
    have hmessage : message.toBitVec.getLsbD (18 + i) = false := BitVec.getLsbD_of_ge _ _ (by omega)
    have hprotocol : protocol.toBitVec.getLsbD (18 + i - 10) = false := BitVec.getLsbD_of_ge _ _ (by omega)
    have hword : 18 + i < 32 := by omega
    have hshift : ¬18 + i < 18 := by omega
    simp [encode, hmessage, hprotocol, hword, hshift, hi]
  rw [decode, hmessage, hprotocol, htoken]

theorem LpmSetting.ofCode?_code (s : LpmSetting) : ofCode? s.code = some s := by
  cases s <;> rfl

theorem SleepMode.ofCode?_code (m : SleepMode) : ofCode? m.code = some m := by
  cases m <;> rfl

theorem SystemPower.ofCode?_code (s : SystemPower) : ofCode? s.code = some s := by
  cases s <;> rfl

namespace Command

theorem domainPolicies?_words : ∀ table : List DomainPolicy,
    domainPolicies? (table.flatMap DomainPolicy.words) = some table
  | [] => rfl
  | p :: table => by
    show domainPolicies? (p.domain :: p.setting.code :: p.retention :: table.flatMap DomainPolicy.words) = _
    rw [domainPolicies?, LpmSetting.ofCode?_code, domainPolicies?_words table]
    rfl

theorem peripheralPolicies?_words : ∀ table : List PeripheralPolicy,
    peripheralPolicies? (table.flatMap PeripheralPolicy.words) = some table
  | [] => rfl
  | p :: table => by
    show peripheralPolicies? (p.peripheral :: p.setting.code :: table.flatMap PeripheralPolicy.words) = _
    rw [peripheralPolicies?, LpmSetting.ofCode?_code, peripheralPolicies?_words table]
    rfl

theorem ofMessage?_args (c : Command) : ofMessage? c.protocol.toNat c.message.toNat c.args = some c := by
  cases c with
  | systemPowerSet flags state =>
    show (SystemPower.ofCode? state.code).map _ = _
    rw [SystemPower.ofCode?_code]
    rfl
  | resetVectorSet cpu flags vector =>
    show some (resetVectorSet cpu flags (LittleEndian.ofHalves vector.toUInt32 (vector >>> 32).toUInt32)) = _
    rw [LittleEndian.ofHalves_halves]
  | sleepModeSet cpu flags mode =>
    show (SleepMode.ofCode? mode.code).map _ = _
    rw [SleepMode.ofCode?_code]
    rfl
  | irqWakeSet cpu index masks =>
    show (if UInt32.ofNat masks.length == UInt32.ofNat masks.length then some (irqWakeSet cpu index masks)
      else none) = _
    rw [beq_self_eq_true, if_pos rfl]
  | domainPolicySet cpu table =>
    show (domainPolicies? (table.flatMap DomainPolicy.words)).bind _ = _
    rw [domainPolicies?_words, Option.bind_some, beq_self_eq_true, if_pos rfl]
  | peripheralPolicySet cpu table =>
    show (peripheralPolicies? (table.flatMap PeripheralPolicy.words)).bind _ = _
    rw [peripheralPolicies?_words, Option.bind_some, beq_self_eq_true, if_pos rfl]
  | machineResetVectorSet machine cpu flags vector =>
    show some (machineResetVectorSet machine cpu flags
      (LittleEndian.ofHalves vector.toUInt32 (vector >>> 32).toUInt32)) = _
    rw [LittleEndian.ofHalves_halves]
  | _ => rfl

theorem read?_opcode (c : Command) (token : BitVec 10) : read? (c.opcode token) c.args = some (c, token) := by
  have hheader : Header.decode (c.opcode token) = c.header token := Header.decode_encode _
  rw [read?, hheader]
  show (ofMessage? c.protocol.toNat c.message.toNat c.args).map _ = _
  rw [ofMessage?_args]
  rfl

end Command
end Scmi
end PowerFirmware
