import LogRelay.Address.Basic
import LogRelay.Base64
import LogRelay.Box.Keys
import LogRelay.Text.Decimal

/-!
# Faults of settings

Each fault names its cause; `SettingsFault.message` has the wording.
-/

namespace LogRelay

/-- Why a setting is not accepted. -/
inductive SettingFault where
  /-- The text of the named setting is no number of its range. -/
  | numeral (name : String) (cause : Text.NumeralFault)
  | zero (name : String)
  /-- The greatest rest is shorter than the first. -/
  | restsCrossed
  | logLevel (given : String)
  | other (reason : String)
deriving DecidableEq, Repr

/-- The wording of a fault. -/
def SettingFault.message : SettingFault → String
  | numeral name cause => name ++ ": " ++ cause.message
  | zero name => name ++ " must be greater than 0"
  | restsCrossed => "maximum reconnect delay is shorter than the reconnect delay"
  | logLevel given =>
    "Invalid log level '" ++ given ++ "'. Must be one of: trace, debug, info, warn, error"
  | other reason => reason

/-- Why a key is not accepted. -/
inductive KeyFault where
  | required
  | encoding (name : String) (cause : Base64.Fault)
  | length (cause : KeyLengthFault)
  | other (reason : String)
deriving DecidableEq, Repr

/-- The wording of a fault. -/
def KeyFault.message : KeyFault → String
  | required => "LUMBERJACK_THEIR_PUBLIC_KEY is required"
  | encoding name cause => name ++ " is not valid base64: " ++ cause.message
  | length cause => cause.message
  | other reason => reason

/-- Why settings are not accepted. -/
inductive SettingsFault where
  | setting (cause : SettingFault)
  | address (cause : AddressFault)
  | missingKind
  | key (cause : KeyFault)
deriving DecidableEq, Repr

/-- The wording of a fault. -/
def SettingsFault.message : SettingsFault → String
  | setting cause => "Invalid configuration: " ++ cause.message
  | address cause => cause.message
  | missingKind => "No socket type set on connection"
  | key cause => "Invalid key material: " ++ cause.message

end LogRelay
