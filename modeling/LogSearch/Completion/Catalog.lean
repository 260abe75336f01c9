import LogSearch.Text.Basic

/-!
# The catalog of keys

The keys that completion offers come in three kinds:

* fields with enumerated values (`catalog`), in the order in which they are offered;
* keys whose values are names held by the host (`nameKeys`);
* keys that take an exact id and are never enumerated (`idKeys`).
-/

namespace LogSearch

/-- One enumerated value of a field. -/
structure Choice where
  value : Text
  label : Text
  description : Text
  deriving DecidableEq

/-- A field with enumerated values. -/
structure Definition where
  key : Text
  label : Text
  description : Text
  choices : List Choice
  deriving DecidableEq

/-- A key without enumerated values. -/
structure KeyInfo where
  key : Text
  label : Text
  description : Text
  deriving DecidableEq

/-- A choice from its three texts. -/
def choice (value label description : String) : Choice :=
  ⟨value.text, label.text, description.text⟩

/-- A key from its three texts. -/
def keyInfo (key label description : String) : KeyInfo :=
  ⟨key.text, label.text, description.text⟩

/-! ## Tables -/

/-- The outcome of an execution. -/
def levelDefinition : Definition where
  key := "level".text
  label := "Status".text
  description := "Filter by log level".text
  choices :=
    [choice "error" "Error" "Error logs only",
      choice "info" "Info" "Info logs only"]

/-- What started an execution. -/
def triggerDefinition : Definition where
  key := "trigger".text
  label := "Trigger".text
  description := "Filter by trigger type".text
  choices :=
    [choice "api" "API" "API-triggered executions",
      choice "manual" "Manual" "Manually run executions",
      choice "webhook" "Webhook" "Webhook-triggered executions",
      choice "chat" "Chat" "Chat-triggered executions",
      choice "schedule" "Schedule" "Scheduled executions"]

/-- What an execution cost, in dollars. -/
def costDefinition : Definition where
  key := "cost".text
  label := "Cost".text
  description := "Filter by execution cost".text
  choices :=
    [choice ">0.01" "Over $0.01" "Executions costing more than $0.01",
      choice "<0.005" "Under $0.005" "Executions costing less than $0.005",
      choice ">0.05" "Over $0.05" "Executions costing more than $0.05",
      choice "=0" "Free" "Free executions",
      choice ">0" "Paid" "Executions with any cost"]

/-- When an execution ran. -/
def dateDefinition : Definition where
  key := "date".text
  label := "Date".text
  description := "Filter by date range".text
  choices :=
    [choice "today" "Today" "Today's logs",
      choice "yesterday" "Yesterday" "Yesterday's logs",
      choice "this-week" "This week" "Since Monday",
      choice "last-week" "Last week" "Previous Monday to Sunday",
      choice "this-month" "This month" "Since the first of the month"]

/-- How long an execution took. -/
def durationDefinition : Definition where
  key := "duration".text
  label := "Duration".text
  description := "Filter by execution duration".text
  choices :=
    [choice ">5s" "Over 5s" "Executions longer than 5 seconds",
      choice "<1s" "Under 1s" "Executions shorter than 1 second",
      choice ">10s" "Over 10s" "Executions longer than 10 seconds",
      choice ">30s" "Over 30s" "Executions longer than 30 seconds",
      choice "<500ms" "Under 0.5s" "Executions shorter than 500ms"]

/-- The fields with enumerated values, in the order in which they are offered. -/
def catalog : List Definition :=
  [levelDefinition, triggerDefinition, costDefinition, dateDefinition, durationDefinition]

/-- The keys whose values are names held by the host. -/
def nameKeys : List KeyInfo :=
  [keyInfo "workflow" "Workflow" "Filter by workflow name",
    keyInfo "folder" "Folder" "Filter by folder name"]

/-- The keys that take an exact id. -/
def idKeys : List KeyInfo :=
  [keyInfo "workflowId" "Workflow ID" "Filter by exact workflow id",
    keyInfo "executionId" "Execution ID" "Filter by exact execution id"]

/-- How many names are offered at once. -/
def maxNames : Nat := 8

/-! ## Look-up -/

/-- The definition of a catalog field. -/
def definition? (key : Text) : Option Definition :=
  catalog.find? (·.key == key)

/-- The entry of a key whose values are names. -/
def nameKey? (key : Text) : Option KeyInfo :=
  nameKeys.find? (·.key == key)

/-- The entry of a key that takes an id. -/
def idKey? (key : Text) : Option KeyInfo :=
  idKeys.find? (·.key == key)

/-- Whether a text is one of the enumerated values of a key. -/
def isChoice (key value : Text) : Bool :=
  (definition? key).any (·.choices.any (·.value == value))

end LogSearch
