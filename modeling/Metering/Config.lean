import Metering.Decimal.Digits
import Metering.Log
import Metering.Tally
import Metering.Text.Blank
import Metering.Text.Lowercase

/-!
This module contains the configuration of the collector and how it is read from the environment.
-/

namespace Metering

namespace Level

/--
The level that a text names. Blanks around the name and the case of its letters do not count.
-/
def ofText? (s : String) : Option Level :=
  ofName? (String.ofList (Text.lowercase (Text.trim s.toList)))

def refusal (s : String) : String :=
  "Invalid log level '" ++ s ++ "'. Must be one of: trace, debug, info, warn, error"

def lines (s : String) : List Line :=
  if (ofText? s).isSome then [] else [⟨.error, refusal s⟩]

end Level

namespace Tally

def ofChars? (cs : List Char) : Option Tally :=
  let cs := if cs.head? = some '+' then cs.tail else cs
  match cs.mapM Decimal.Digit.ofChar? with
  | none => none
  | some [] => none
  | some (d :: ds) => ofNat? (Decimal.value (d :: ds))

end Tally

inductive ConfigError where
  | threshold (raw : String)
  | level (raw : String)
  deriving DecidableEq

structure Config where
  threshold : Tally
  logLevel : String
  deriving DecidableEq

namespace Config

def thresholdVariable : String := "DD_METRICS_SINK_THRESHOLD"

def levelVariable : String := "DD_LOG_LEVEL"

def standard : Config :=
  ⟨1, Level.info.name⟩

def validate (c : Config) : Except ConfigError Unit :=
  if (Level.ofName? c.logLevel).isSome then .ok () else .error (.level c.logLevel)

def readThreshold : Option String → Except ConfigError Tally
  | none => .ok standard.threshold
  | some raw =>
    match Tally.ofChars? (Text.trim raw.toList) with
    | some t => .ok t
    | none => .error (.threshold raw)

def readLevel : Option String → Except ConfigError String
  | none => .ok standard.logLevel
  | some raw =>
    match Level.ofText? raw with
    | some l => .ok l.name
    | none => .error (.level raw)

/--
The configuration in which `lookup` gives the texts of variables.
-/
def ofLookup (lookup : String → Option String) : Except ConfigError Config := do
  let threshold ← readThreshold (lookup thresholdVariable)
  let logLevel ← readLevel (lookup levelVariable)
  let c : Config := ⟨threshold, logLevel⟩
  c.validate
  return c

/--
The configuration of an environment. A variable that is not UTF-8 counts as unset.
-/
def ofEnvironment (environment : String → Option ByteArray) : Except ConfigError Config :=
  ofLookup fun name => (environment name).bind String.fromUTF8?

end Config

namespace ConfigError

def reason : ConfigError → String
  | threshold raw =>
    Config.thresholdVariable ++ " must be a non-negative integer, got '" ++ raw ++ "'"
  | level raw => Level.refusal raw

def invalidMessage (reason : String) : String :=
  "Invalid configuration: " ++ reason

def message (e : ConfigError) : String :=
  invalidMessage e.reason

end ConfigError

end Metering
