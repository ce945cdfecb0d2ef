import Typeahead.Json.Reader
import Typeahead.Json.Writer
import Typeahead.Settings.Basic

/-!
# Settings from the environment

Each setting may be given by a variable of the environment. One variable holds the address of the
default connection, and another one a JSON object of addresses by names, which wins where it
names the default connection too. These two count as missing if they are empty.
-/

namespace Typeahead

/-- Why variables of the environment give no settings. -/
inductive EnvironmentError where
  /-- The connections are no JSON. -/
  | malformedConnections
  /-- The connections are JSON, but no object. -/
  | connectionsNotObject
  | notInteger (text : Text)
  | notDouble (text : Text)
  deriving DecidableEq, Repr

/-- What is told about variables that give no settings. -/
def EnvironmentError.message? : EnvironmentError → Option Text
  | malformedConnections => none
  | connectionsNotObject => some "MONGO_CONNECTIONS must be a JSON object of name -> URI"
  | notInteger text => some ("invalid literal for int() with base 10: ".toList ++ text.quoted)
  | notDouble text => some ("could not convert string to float: ".toList ++ text.quoted)

namespace Settings

/-- The variables of the environment by their names. -/
abbrev Environment := Entries Text

/-- The name of the connection that has a variable of its own. -/
def defaultConnection : Text := "default"

/-- A variable that counts as missing if it is empty. -/
def filled? (environment : Environment) (name : Text) : Option Text :=
  (environment.find? name).filter fun text => !text.isEmpty

/-- The connections that a text gives, over those that are known. -/
def addConnections (known : Entries Text) (text : Text) : Except EnvironmentError (Entries Text) :=
  match Json.parse? text with
  | none => .error .malformedConnections
  | some (.object members) =>
      .ok (members.foldl (fun known member => known.insert member.1 member.2.display) known)
  | some _ => .error .connectionsNotObject

/-- The connections of an environment. -/
def connectionsOf (environment : Environment) : Except EnvironmentError (Entries Text) :=
  let known : Entries Text :=
    match filled? environment "MONGO_URI" with
    | some address => [(defaultConnection, address)]
    | none => []
  match filled? environment "MONGO_CONNECTIONS" with
  | some text => addConnections known text
  | none => .ok known

/-- A variable that is an integer. -/
def integerOf (environment : Environment) (name : Text) (fallback : Int) :
    Except EnvironmentError Int :=
  match environment.find? name with
  | none => .ok fallback
  | some text =>
      match Decimal.settingInteger? text with
      | some value => .ok value
      | none => .error (.notInteger text)

/-- A variable that is a double. -/
def doubleOf (environment : Environment) (name : Text) (fallback : Float) :
    Except EnvironmentError Float :=
  match environment.find? name with
  | none => .ok fallback
  | some text =>
      match Decimal.settingDouble? text with
      | some value => .ok value
      | none => .error (.notDouble text)

/-- Read settings from the environment; the first variable that cannot be read is told. -/
def ofEnvironment (environment : Environment) : Except EnvironmentError Settings := do
  let defaults : Settings := {}
  let connections ← connectionsOf environment
  let sampleSize ← integerOf environment "SAMPLE_SIZE" defaults.sampleSize
  let timeBudget ← doubleOf environment "SAMPLE_TIME_BUDGET" defaults.timeBudget
  let lifetime ← doubleOf environment "SCHEMA_TTL_SECONDS" defaults.lifetime
  let logLevel := (environment.find? "LOG_LEVEL").getD defaults.logLevel
  let apiHost := (environment.find? "API_HOST").getD defaults.apiHost
  let apiPort ← integerOf environment "API_PORT" defaults.apiPort
  return { connections, sampleSize, timeBudget, lifetime, logLevel, apiHost, apiPort }

end Settings

end Typeahead
