import Typeahead.Json.Field

/-!
# Settings

What the service is set up with: the connections that it may sample, how much of a collection a
sample takes and for how long it is used, how much is logged, and where requests are answered.
-/

namespace Typeahead

/-- The settings of the service. -/
structure Settings where
  /-- The addresses of the databases by the names of their connections. -/
  connections : Entries Text := []
  /-- The number of documents in a sample. -/
  sampleSize : Int := 1000
  /-- The seconds that a sample may take. -/
  timeBudget : Float := 10
  /-- The seconds for which a sampled schema is used. -/
  lifetime : Float := 3600
  /-- The least severity of what is logged, by its name. -/
  logLevel : Text := "INFO"
  apiHost : Text := "0.0.0.0"
  apiPort : Int := 8000

namespace Settings

/-! ## Severities -/

/-- The severities by their names. -/
def severities : Entries Nat :=
  [("CRITICAL", 50), ("FATAL", 50), ("ERROR", 40), ("WARN", 30), ("WARNING", 30), ("INFO", 20),
    ("DEBUG", 10), ("NOTSET", 0)]

/-- The capital form of a letter. Two letters beyond ASCII have a capital form within it; no other
letter takes part in the name of a severity. -/
def capital (c : Char) : Char :=
  if c.toNat = 0x131 then 'I' else if c.toNat = 0x17F then 'S' else c.toUpper

/-- The severity with a name, in whatever case it is written; that of information if there is
none. -/
def severity (name : Text) : Nat :=
  (severities.find? (name.map capital)).getD 20

/-! ## Settings from a document -/

/-- Read settings from a document. What is missing has its default, and what is not known is
ignored; nothing is read if a member is of the wrong type. -/
def ofDocument? (document : Json) : Option Settings := do
  let defaults : Settings := {}
  let connections ← document.fieldOr Json.textsField? defaults.connections "connections"
  let sampleSize ← document.fieldOr Json.integerField? defaults.sampleSize "sample_size"
  let timeBudget ← document.fieldOr Json.doubleField? defaults.timeBudget "sample_time_budget"
  let lifetime ← document.fieldOr Json.doubleField? defaults.lifetime "schema_ttl_seconds"
  let logLevel ← document.fieldOr Json.textField? defaults.logLevel "log_level"
  let apiHost ← document.fieldOr Json.textField? defaults.apiHost "api_host"
  let apiPort ← document.fieldOr Json.integerField? defaults.apiPort "api_port"
  return { connections, sampleSize, timeBudget, lifetime, logLevel, apiHost, apiPort }

end Settings

end Typeahead
