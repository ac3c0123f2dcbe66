import PowerFirmware.Channel.MessagingUnit
import PowerFirmware.Channel.SharedMemory
import PowerFirmware.Scmi.Client
import PowerFirmware.Scmi.Reader
import PowerFirmware.Enclave.Basic
import PowerFirmware.Interrupt.Frames
import PowerFirmware.Interrupt.ManagerLock
import PowerFirmware.Power.Error
import PowerFirmware.Power.State
import PowerFirmware.Power.Snapshot
import PowerFirmware.Power.Wakeup
import PowerFirmware.Power.Suspend
import PowerFirmware.Power.Validation
import PowerFirmware.Monitor
import PowerFirmware.Logging.Console
import PowerFirmware.Uart
import PowerFirmware.Bench.Basic
import PowerFirmware.Bench.Memory
import PowerFirmware.Firmware
import PowerFirmware.Proofs.SharedArea.Delivery
import PowerFirmware.Proofs.Suspend.Contents
import PowerFirmware.Proofs.Suspend.Policy
import PowerFirmware.Proofs.Suspend.Held
import PowerFirmware.Proofs.Monitor
import PowerFirmware.Proofs.Lock.Exclusion
import PowerFirmware.Proofs.Commands
import PowerFirmware.Proofs.Turns
import PowerFirmware.Proofs.BootVector
import PowerFirmware.Proofs.MessagingUnit.Answers
import PowerFirmware.Proofs.Operations
import PowerFirmware.Proofs.CallStatus
import PowerFirmware.Proofs.Suspend.Cycle
import PowerFirmware.Proofs.Isolation
import PowerFirmware.Proofs.FailFast
import PowerFirmware.Proofs.Interrupt.RoundTrip
import PowerFirmware.Proofs.SharedArea.RoundTrip
import PowerFirmware.Proofs.Snapshot.Permissions
import PowerFirmware.Proofs.Limits.Firmware
import PowerFirmware.Proofs.Snapshot.Watchdogs
import PowerFirmware.Proofs.Enclave.Random
import PowerFirmware.Proofs.Suspend.Validation
import PowerFirmware.Proofs.Acceptance
import PowerFirmware.Proofs.Discovery
import PowerFirmware.Proofs.MessagingUnit.Transaction
import PowerFirmware.Proofs.Undelivered
import PowerFirmware.Proofs.Descriptor
import PowerFirmware.Proofs.Suspend.Armed
import PowerFirmware.Proofs.Lock.Bracketing
