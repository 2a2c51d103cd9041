import PhpRendering.Command.Arguments
import PhpRendering.Command.Directory
import PhpRendering.Command.Host
import PhpRendering.Command.Path
import PhpRendering.Command.Report
import PhpRendering.Connective
import PhpRendering.Construct
import PhpRendering.Diagnostic
import PhpRendering.Emission
import PhpRendering.Json.Basic
import PhpRendering.Json.Reader
import PhpRendering.Json.Writer
import PhpRendering.Main
import PhpRendering.Naming
import PhpRendering.Number.Binary64
import PhpRendering.Number.Shortest
import PhpRendering.Output
import PhpRendering.Position
import PhpRendering.Proofs.AccessedLiteral
import PhpRendering.Proofs.Accounts
import PhpRendering.Proofs.Agenda
import PhpRendering.Proofs.Alternates
import PhpRendering.Proofs.Balance
import PhpRendering.Proofs.Brackets
import PhpRendering.Proofs.Branches
import PhpRendering.Proofs.Chain
import PhpRendering.Proofs.Completeness
import PhpRendering.Proofs.Composition
import PhpRendering.Proofs.Constructions
import PhpRendering.Proofs.Contract
import PhpRendering.Proofs.CopiedLiteral
import PhpRendering.Proofs.Counterpart
import PhpRendering.Proofs.Coverage
import PhpRendering.Proofs.Depth
import PhpRendering.Proofs.Dropped
import PhpRendering.Proofs.Emitted
import PhpRendering.Proofs.Emitter
import PhpRendering.Proofs.Enclosing
import PhpRendering.Proofs.Ends
import PhpRendering.Proofs.EnoughDepth
import PhpRendering.Proofs.Entries
import PhpRendering.Proofs.EntryOrder
import PhpRendering.Proofs.Expression
import PhpRendering.Proofs.ExpressionText
import PhpRendering.Proofs.Fields
import PhpRendering.Proofs.Filling
import PhpRendering.Proofs.Forest
import PhpRendering.Proofs.Form
import PhpRendering.Proofs.FunctionNames
import PhpRendering.Proofs.Gap
import PhpRendering.Proofs.Grafting
import PhpRendering.Proofs.Grouping
import PhpRendering.Proofs.Header
import PhpRendering.Proofs.History
import PhpRendering.Proofs.Invariant
import PhpRendering.Proofs.Inversion
import PhpRendering.Proofs.Invocation
import PhpRendering.Proofs.Isolation
import PhpRendering.Proofs.LastLetter
import PhpRendering.Proofs.Layout
import PhpRendering.Proofs.Levels
import PhpRendering.Proofs.Likeness
import PhpRendering.Proofs.Lines
import PhpRendering.Proofs.Listing
import PhpRendering.Proofs.LiteralObject
import PhpRendering.Proofs.LiteralWeight
import PhpRendering.Proofs.Lookups
import PhpRendering.Proofs.Malformed
import PhpRendering.Proofs.Mention
import PhpRendering.Proofs.Metadata
import PhpRendering.Proofs.MixedTree
import PhpRendering.Proofs.Moves
import PhpRendering.Proofs.NestedRuns
import PhpRendering.Proofs.Nesting
import PhpRendering.Proofs.NormalForm
import PhpRendering.Proofs.ObjectMention
import PhpRendering.Proofs.OpenScopes
import PhpRendering.Proofs.Operand
import PhpRendering.Proofs.Passable
import PhpRendering.Proofs.Place
import PhpRendering.Proofs.PlainText
import PhpRendering.Proofs.PlainTree
import PhpRendering.Proofs.Quiet
import PhpRendering.Proofs.Readable
import PhpRendering.Proofs.Reading
import PhpRendering.Proofs.RecordLikeness
import PhpRendering.Proofs.Recording
import PhpRendering.Proofs.Recovery
import PhpRendering.Proofs.Region
import PhpRendering.Proofs.Repetition
import PhpRendering.Proofs.Replacement
import PhpRendering.Proofs.Reports
import PhpRendering.Proofs.Requirement
import PhpRendering.Proofs.Resemblance
import PhpRendering.Proofs.RespelledRules
import PhpRendering.Proofs.Respelling
import PhpRendering.Proofs.Routes
import PhpRendering.Proofs.RuleAgenda
import PhpRendering.Proofs.RuleLayout
import PhpRendering.Proofs.RuleOutput
import PhpRendering.Proofs.Runs
import PhpRendering.Proofs.Safety
import PhpRendering.Proofs.ScopeNesting
import PhpRendering.Proofs.ScriptLiteral
import PhpRendering.Proofs.Shown
import PhpRendering.Proofs.Source
import PhpRendering.Proofs.Spelling
import PhpRendering.Proofs.Spellings
import PhpRendering.Proofs.Spots
import PhpRendering.Proofs.Standing
import PhpRendering.Proofs.StatementReading
import PhpRendering.Proofs.StringLiteral
import PhpRendering.Proofs.SymbolTables
import PhpRendering.Proofs.TargetLiteral
import PhpRendering.Proofs.Targets
import PhpRendering.Proofs.Tasks
import PhpRendering.Proofs.Terminator
import PhpRendering.Proofs.Throughout
import PhpRendering.Proofs.Traces
import PhpRendering.Proofs.Tracking
import PhpRendering.Proofs.TreeForms
import PhpRendering.Proofs.Unlocated
import PhpRendering.Proofs.UnlocatedLayout
import PhpRendering.Proofs.Unread
import PhpRendering.Proofs.ValueSpelling
import PhpRendering.Proofs.ValuedNames
import PhpRendering.Proofs.WellFormed
import PhpRendering.Proofs.Written
import PhpRendering.Render
import PhpRendering.Rule.Access
import PhpRendering.Rule.Expression
import PhpRendering.Rule.Fragment
import PhpRendering.Rule.Function
import PhpRendering.Rule.Module
import PhpRendering.Rule.Statement
import PhpRendering.Scalar
import PhpRendering.Scope.Basic
import PhpRendering.Scope.Record
import PhpRendering.Session
import PhpRendering.Substitute
import PhpRendering.Text.DecimalDigit
import PhpRendering.Text.Displayed
import PhpRendering.Text.Joined
import PhpRendering.Text.Printable
import PhpRendering.Text.Quoted
import PhpRendering.Text.Uppercase
import PhpRendering.Tree.Attribute
import PhpRendering.Tree.Basic
import PhpRendering.Tree.Containment
import PhpRendering.Tree.Conversion
import PhpRendering.Tree.Height
import PhpRendering.Tree.Name
import PhpRendering.Tree.Occurrence
import PhpRendering.Tree.Path
import PhpRendering.Tree.Shown
