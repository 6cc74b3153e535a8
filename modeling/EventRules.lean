import EventRules.Condition.Comparator
import EventRules.Condition.Literal
import EventRules.Condition.Predicate
import EventRules.Event
import EventRules.Event.Args
import EventRules.Failure
import EventRules.Firing.Context
import EventRules.Firing.Host
import EventRules.Firing.Interpolation
import EventRules.Firing.Outcome
import EventRules.Firing.Performance
import EventRules.Firing.Platform
import EventRules.Number.Decimal
import EventRules.Number.Double
import EventRules.Number.Shortest
import EventRules.Rule
import EventRules.Rule.Action
import EventRules.Script.Grammar.Action
import EventRules.Script.Grammar.Predicate
import EventRules.Script.Grammar.Rule
import EventRules.Script.Reading
import EventRules.Script.SyntaxError
import EventRules.Script.Token
import EventRules.Script.Token.Scan
import EventRules.Task.Runner
import EventRules.Text.Blank
import EventRules.Text.Case
import EventRules.Text.CaseTable
import EventRules.Text.Cursor
import EventRules.Text.EscapeTable
import EventRules.Text.Part
import EventRules.Text.Quoted
import EventRules.Text.Span
import EventRules.Text.Template
import EventRules.Text.Words
import EventRules.Value
import EventRules.Value.StringSet
import EventRules.Proofs.Grammar.Action
import EventRules.Proofs.Firing.Dispatch
import EventRules.Proofs.Grammar.Rule
import EventRules.Proofs.Grammar.Keywords
import EventRules.Proofs.Script.Lines
import EventRules.Proofs.Grammar.Faults
import EventRules.Proofs.Grammar.Relocate
import EventRules.Proofs.Grammar.Shift
import EventRules.Proofs.Script.Append
import EventRules.Proofs.Firing.Echo
import EventRules.Proofs.Script.Flatten
import EventRules.Proofs.Grammar.Alike
import EventRules.Proofs.Script.GroupBreaks
import EventRules.Proofs.Grammar.Ruleset
import EventRules.Proofs.Grammar.FirstFault
import EventRules.Proofs.Script.Places
import EventRules.Proofs.Script.LogicalLines
import EventRules.Proofs.Script.LineByLine
import EventRules.Proofs.Text.Upper
import EventRules.Proofs.Script.Prints
import EventRules.Proofs.Script.Written
import EventRules.Proofs.Script.Signs
import EventRules.Proofs.Firing.Modest
import EventRules.Proofs.Grammar.Reread
import EventRules.Proofs.Firing.Routes
import EventRules.Proofs.Grammar.Requoted
import EventRules.Proofs.Script.WordSplitting
import EventRules.Proofs.Script.Comments
import EventRules.Proofs.Text.Joining
import EventRules.Proofs.Firing.Effects
import EventRules.Proofs.Text.Lower
import EventRules.Proofs.Condition.ListForm
import EventRules.Proofs.Condition.Occurrences
import EventRules.Proofs.Script.LineBreaks
import EventRules.Proofs.Script.TokenStarts
import EventRules.Proofs.Firing.Substitution
import EventRules.Proofs.Script.WellFormed
import EventRules.Proofs.Script.Quoting
import EventRules.Proofs.Script.Returns
import EventRules.Proofs.Task.InOrder
import EventRules.Proofs.Number.Decimal
import EventRules.Proofs.Condition.Numerals
import EventRules.Proofs.Condition.ListItems
import EventRules.Proofs.Firing.Registrations
import EventRules.Proofs.Script.Spacing
import EventRules.Proofs.Condition.Pieces
import EventRules.Proofs.Grammar.Bracketed
import EventRules.Proofs.Number.Digits
import EventRules.Proofs.Condition.Readback
import EventRules.Proofs.Number.Exact
import EventRules.Proofs.Value.Coercion
import EventRules.Proofs.Condition.Coherence
import EventRules.Proofs.Event.Writes
import EventRules.Proofs.Text.Cutting
import EventRules.Proofs.Firing.Lookup
import EventRules.Proofs.Grammar.Positions
