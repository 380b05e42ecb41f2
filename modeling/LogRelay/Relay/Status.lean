import LogRelay.Batcher
import LogRelay.Courier.Basic
import LogRelay.Ledger
import LogRelay.Settings.Fault

/-!
# What a relay reports

The stages of a relay, its status, what it says about itself, and how it can fail.
-/

namespace LogRelay

/-- A stage of a relay. -/
inductive StageName where
  | batcher
  | courier
  | ledger
deriving DecidableEq, Repr

/-- The status of a relay. -/
inductive Status where
  | starting
  | running
  | stopping
  | stopped
deriving DecidableEq, Repr

def Status.name : Status → String
  | starting => "Starting"
  | running => "Running"
  | stopping => "Stopping"
  | stopped => "Stopped"

/-- Why a relay could not be made, or how it ended. -/
inductive RelayFault where
  | settings (cause : SettingsFault)
  | publish (cause : PublishFault)
  | task (reason : String)
deriving Repr

/-- The wording of a fault. -/
def RelayFault.message : RelayFault → String
  | settings cause => cause.message
  | publish cause => cause.message
  | task reason => "Forwarder task failed: " ++ reason

/-- What a relay says about itself. -/
inductive RelayNotice where
  | batcher (n : BatcherNotice)
  | courier (n : CourierNotice)
  | ledger (n : LedgerNotice)
  | running
  | batcherDied (reason : String)
  | ledgerDied (reason : String)
  | stopped
  /-- It was called off while the last events were being delivered. -/
  | shutdownWhileDraining
deriving Repr

def RelayNotice.record : RelayNotice → Journal.Record
  | batcher n => n.record
  | courier n => n.record
  | ledger n => n.record
  | running => Journal.say .debug "Forwarder running"
  | batcherDied reason => Journal.say .error ("Spooler task failed: " ++ reason)
  | ledgerDied reason => Journal.say .error ("Registrar task failed: " ++ reason)
  | stopped => Journal.say .info "Forwarder stopped"
  | shutdownWhileDraining => Journal.say .info "Shutdown requested while draining"

/-- The stage that a notice is from; `none` is the relay itself. -/
def RelayNotice.stage? : RelayNotice → Option StageName
  | batcher _ => some .batcher
  | courier _ => some .courier
  | ledger _ => some .ledger
  | _ => none

end LogRelay
