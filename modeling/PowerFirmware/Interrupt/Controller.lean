import PowerFirmware.Machine

/-! What power management needs of an interrupt controller. -/

namespace PowerFirmware

/-- Operations of an interrupt controller on machine states `σ`, with saved state `κ`. Saving starts
    from an earlier saved state, since a controller may keep parts of it. -/
structure InterruptController (σ κ : Type) where
  save : κ → Run σ κ
  restore : κ → Run σ Unit
  initCore : Nat → Run σ Unit
  enableInterface : Nat → Run σ Unit
  disableInterface : Nat → Run σ Unit
  enableMask : Nat → Run σ UInt32
  disableGroups : Run σ Unit

end PowerFirmware
