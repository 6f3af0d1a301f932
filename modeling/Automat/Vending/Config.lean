import Automat.History
import Automat.Json.Coded
import Automat.Json.Parser

/-!
The configuration of the vending machine: two delays and the number of transitions to remember.
Fields that are left out keep their default values, and neither delay may be zero.
-/

namespace Automat.Vending

/-- Settings of the machine's run. -/
structure RunConfig where
  historyLimit : UInt64 := History.defaultLimit
deriving DecidableEq

structure Config where
  dispenseDelayMs : UInt64 := 2000
  returnDelayMs : UInt64 := 2000
  run : RunConfig := {}
deriving DecidableEq

/-- Why a configuration was refused. -/
inductive ConfigError where
  /-- The file cannot be read as text. -/
  | unreadable
  /-- The text is not JSON of the right form. -/
  | malformed
  | zeroDispenseDelay
  | zeroReturnDelay
deriving DecidableEq

def ConfigError.message? : ConfigError → Option String
  | .zeroDispenseDelay => some "Invalid config: dispense_delay_ms must be greater than zero"
  | .zeroReturnDelay => some "Invalid config: return_delay_ms must be greater than zero"
  | _ => none

def RunConfig.shape : Json.Shape := { fields := ["history_limit"], shortArrays := true }

instance : Coded RunConfig where
  encode config := .record [("history_limit", encode config.historyLimit)]
  decode j := do
    match ← RunConfig.shape.slots? j with
    | [limit] => some ⟨← Json.fieldD History.defaultLimit limit⟩
    | _ => none

namespace Config

def dispenseDelay (config : Config) : Duration := .ofMillis config.dispenseDelayMs

def returnDelay (config : Config) : Duration := .ofMillis config.returnDelayMs

def shape : Json.Shape where
  fields := ["dispense_delay_ms", "return_delay_ms", "interpreter"]
  shortArrays := true

instance : Coded Config where
  encode config := .record
    [("dispense_delay_ms", encode config.dispenseDelayMs),
      ("return_delay_ms", encode config.returnDelayMs), ("interpreter", encode config.run)]
  decode j := do
    match ← shape.slots? j with
    | [dispense, return_, run] =>
      some ⟨← Json.fieldD 2000 dispense, ← Json.fieldD 2000 return_, ← Json.fieldD {} run⟩
    | _ => none

def validate (config : Config) : Except ConfigError Config :=
  if config.dispenseDelayMs = 0 then .error .zeroDispenseDelay
  else if config.returnDelayMs = 0 then .error .zeroReturnDelay
  else .ok config

def ofText (text : String) : Except ConfigError Config :=
  match Json.parse? text >>= decode with
  | some (config : Config) => config.validate
  | none => .error .malformed

def ofBytes (bytes : ByteArray) : Except ConfigError Config :=
  match String.fromUTF8? bytes with
  | some text => ofText text
  | none => .error .unreadable

/-- Reads a configuration from the file at a path. What there is at a path, if anything that can be
read, is up to the host. -/
def load (read? : String → Option ByteArray) (path : String) : Except ConfigError Config :=
  match read? path with
  | some bytes => ofBytes bytes
  | none => .error .unreadable

end Config

end Automat.Vending
