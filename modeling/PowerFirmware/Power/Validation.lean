import PowerFirmware.Layout
import PowerFirmware.Power.Error
import PowerFirmware.Power.State

/-! Checks of what a core asks for before anything is done about it. -/

namespace PowerFirmware

/-- Only memory of the normal world may be entered. -/
def validateEntry (entry : UInt64) : Except PlatformError Unit :=
  if entry < Layout.normalWorldBase then .error .invalidArgument else .ok ()

/-- Checks the level of a suspend request, and pins the requested states for standby and for the deep
    power-down state: the core off and the cluster in retention. -/
def validateSuspend (r : SuspendRequest) (requested : PowerState) :
    Except PlatformError Unit × PowerState :=
  if PowerState.highestLevel < r.level.toNat then
    (.error .invalidArgument, requested)
  else if r.isDeepStandby then
    (.ok (), { requested with core := .off, cluster := .retention })
  else
    (.ok (), requested)

end PowerFirmware
