import LogSearch.Text.CodePoint
import LogSearch.Text.Basic
import LogSearch.Text.Words
import LogSearch.Text.WordTable
import LogSearch.Text.Class
import LogSearch.Text.CaseTable
import LogSearch.Text.Case
import LogSearch.Number.Binary64
import LogSearch.Number.Numeral
import LogSearch.Number.Shortest
import LogSearch.Number.Written
import LogSearch.Calendar.Date
import LogSearch.Calendar.Zone
import LogSearch.Calendar.Moment
import LogSearch.Calendar.Window
import LogSearch.Calendar.Read
import LogSearch.Query.Operator
import LogSearch.Query.Value
import LogSearch.Query.Field
import LogSearch.Query.Scan
import LogSearch.Query.Parse
import LogSearch.Query.Params
import LogSearch.Completion.Catalog
import LogSearch.Completion.Context
import LogSearch.Completion.Suggestion
import LogSearch.Completion.Engine
import LogSearch.Completion.Preview
import LogSearch.Completion.Finished
import LogSearch.Completion.SearchBar
import LogSearch.Json.Value
import LogSearch.Json.Token
import LogSearch.Json.Read
import LogSearch.Json.Write
import LogSearch.Service.Checked
import LogSearch.Service.Scalar
import LogSearch.Service.Settings
import LogSearch.Service.Body
import LogSearch.Service.Encode
import LogSearch.Service.Http
import LogSearch.Service.Refusal
import LogSearch.Service.Service
import LogSearch.Proofs.Scan
import LogSearch.Proofs.Conservation
import LogSearch.Proofs.Coercion
import LogSearch.Proofs.FreeText
import LogSearch.Proofs.Acceptance
import LogSearch.Proofs.Verbatim
import LogSearch.Proofs.AcceptedNames
import LogSearch.Proofs.ClosedNames
import LogSearch.Proofs.DecisionList
import LogSearch.Proofs.AcceptedKeys
import LogSearch.Proofs.DateBounds
import LogSearch.Proofs.Pattern
import LogSearch.Proofs.FilterPattern
import LogSearch.Proofs.Clock
import LogSearch.Proofs.NamedDays
import LogSearch.Proofs.Changes
import LogSearch.Proofs.TypedValues
import LogSearch.Proofs.Finished
import LogSearch.Proofs.FieldKinds
import LogSearch.Proofs.ReadBack
import LogSearch.Proofs.ParamTable
import LogSearch.Proofs.Digits
import LogSearch.Proofs.Encoding
import LogSearch.Proofs.Answers
import LogSearch.Proofs.ReplacedNames
import LogSearch.Proofs.NameRegister
import LogSearch.Proofs.AdminKey
import LogSearch.Proofs.ProtectedAnswers
import LogSearch.Proofs.Nearest
import LogSearch.Proofs.DecimalGrid
import LogSearch.Proofs.ShortestDigits
import LogSearch.Proofs.ScriptNumbers
import LogSearch.Proofs.NumeralValue
import LogSearch.Proofs.Durations
import LogSearch.Proofs.QuotedValues
import LogSearch.Proofs.NumeralGrammar
import LogSearch.Proofs.SpacedChanges
import LogSearch.Proofs.PastRanges
import LogSearch.Proofs.JsonText
import LogSearch.Proofs.EditedSpan
import LogSearch.Proofs.WellFormedOffers
import LogSearch.Proofs.SuggestionsSentBack
import LogSearch.Proofs.CivilDates
import LogSearch.Proofs.CalendarRanges
import LogSearch.Proofs.CalendarEdges
import LogSearch.Proofs.Timestamps
import LogSearch.Proofs.LocalContexts
import LogSearch.Proofs.LowerCase
import LogSearch.Proofs.NameCompletion
import LogSearch.Proofs.ConfiguredNames
