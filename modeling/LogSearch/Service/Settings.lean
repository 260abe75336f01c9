import LogSearch.Service.Scalar
import LogSearch.Text.Case

/-!
# Settings

The settings of the service have defaults and are read from named variables, all with the same
first part in their names.  Variables of other names do not matter, and the case of a name does not
matter either.

* `Settings` — the settings.
* `splitCsv` — the items of a comma-separated list.
* `Settings.ofVariables` — the settings given by variables, or every fault in them.
* `Setting`, `Settings.assign` — changes one setting while the service runs, without a check.
-/

namespace LogSearch

/-- The items of a comma-separated list, without the blanks around them and without empty items. -/
def splitCsv (s : Text) : List Text :=
  ((s.splitOn (chr ',')).map strip).filter (!·.isEmpty)

/-- The settings of the service. -/
structure Settings where
  environment : Text := "development".text
  debug : Bool := false
  logLevel : Text := "INFO".text
  host : Text := "0.0.0.0".text
  tcpPort : Int := 8000
  corsAllowedOrigins : Text := "*".text
  /-- The key that a change of the names must come with; any will do if it is empty. -/
  adminKey : Text := []
  /-- The most characters that a query may have. -/
  maxQueryLength : Int := 2000
  initialWorkflows : Text := []
  initialFolders : Text := []
  deriving DecidableEq

namespace Settings

/-- The origins that browsers may send requests from. -/
def corsOrigins (s : Settings) : List Text :=
  splitCsv s.corsAllowedOrigins

/-- The names of workflows that the service starts with. -/
def workflows (s : Settings) : List Text :=
  splitCsv s.initialWorkflows

/-- The names of folders that the service starts with. -/
def folders (s : Settings) : List Text :=
  splitCsv s.initialFolders

/-- Whether answers ask browsers to stay with a secure connection. -/
def isProduction (s : Settings) : Bool :=
  s.environment == "production".text && !s.debug

/-! ## From variables -/

/-- The first part of the name of every variable, in small letters. -/
def variablePrefix : Text :=
  "logquery_".text

/-- The value of the variable for a setting; of several spellings of its name the last counts. -/
def valueOf? (vars : List (Text × Text)) (setting : String) : Option Text :=
  let name := variablePrefix ++ setting.text
  (vars.reverse.find? fun v => lower v.1 == name).map (·.2)

/-- Refuses integers below a bound. -/
def checkAtLeast (bound : Int) : Checked Int → Checked Int
  | .valid i => if bound ≤ i then .valid i else .refuse .tooSmall
  | other => other

/-- The settings that variables give. -/
def ofVariables (vars : List (Text × Text)) : Checked Settings :=
  let standard : Settings := {}
  let text (name : String) (standard : Text) : Checked Text :=
    pure ((valueOf? vars name).getD standard)
  let checked {α : Type} (name : String) (standard : α) (check : Text → Checked α) : Checked α :=
    match valueOf? vars name with
    | some s => (check s).inside (.name name.text)
    | none => pure standard
  Settings.mk
    <$> text "environment" standard.environment
    <*> checked "debug" standard.debug checkFlagText
    <*> text "log_level" standard.logLevel
    <*> text "host" standard.host
    <*> checked "port" standard.tcpPort checkIntegerText
    <*> text "cors_allowed_origins" standard.corsAllowedOrigins
    <*> text "admin_api_key" standard.adminKey
    <*> checked "max_query_length" standard.maxQueryLength
      (fun s => checkAtLeast 1 (checkIntegerText s))
    <*> text "initial_workflows" standard.initialWorkflows
    <*> text "initial_folders" standard.initialFolders

end Settings

/-! ## Single settings -/

/-- One setting and its new value. -/
inductive Setting where
  | environment (s : Text)
  | debug (b : Bool)
  | logLevel (s : Text)
  | host (s : Text)
  | tcpPort (i : Int)
  | corsAllowedOrigins (s : Text)
  | adminKey (s : Text)
  | maxQueryLength (i : Int)
  | initialWorkflows (s : Text)
  | initialFolders (s : Text)
  deriving DecidableEq

/-- Changes one setting. -/
def Settings.assign (s : Settings) : Setting → Settings
  | .environment t => { s with environment := t }
  | .debug b => { s with debug := b }
  | .logLevel t => { s with logLevel := t }
  | .host t => { s with host := t }
  | .tcpPort i => { s with tcpPort := i }
  | .corsAllowedOrigins t => { s with corsAllowedOrigins := t }
  | .adminKey t => { s with adminKey := t }
  | .maxQueryLength i => { s with maxQueryLength := i }
  | .initialWorkflows t => { s with initialWorkflows := t }
  | .initialFolders t => { s with initialFolders := t }

end LogSearch
