import InlineCompletion.Cache.Basic
import InlineCompletion.Cache.Key
import InlineCompletion.Cache.Reuse
import InlineCompletion.Cli.Arguments
import InlineCompletion.Cli.Command
import InlineCompletion.Cli.Program
import InlineCompletion.Cli.Session
import InlineCompletion.Client.Basic
import InlineCompletion.Client.Provider
import InlineCompletion.Client.Server
import InlineCompletion.Client.Wire
import InlineCompletion.Context.Call
import InlineCompletion.Context.Classification
import InlineCompletion.Context.Classify
import InlineCompletion.Context.Header
import InlineCompletion.Context.ObjectLiteral
import InlineCompletion.Context.Reading
import InlineCompletion.Data.Basic
import InlineCompletion.Data.Coerce
import InlineCompletion.Data.Display
import InlineCompletion.Data.Json
import InlineCompletion.Data.Reading
import InlineCompletion.Data.Validated
import InlineCompletion.Decimal.Exact
import InlineCompletion.Decimal.Reading
import InlineCompletion.Decimal.Writing
import InlineCompletion.Digest
import InlineCompletion.Disk
import InlineCompletion.Document.Basic
import InlineCompletion.Document.Path
import InlineCompletion.Engine.Call
import InlineCompletion.Engine.Completion
import InlineCompletion.Engine.Debounce
import InlineCompletion.Engine.Move
import InlineCompletion.Engine.Read
import InlineCompletion.Engine.Run
import InlineCompletion.Engine.State
import InlineCompletion.Engine.Stop
import InlineCompletion.Failure
import InlineCompletion.Log.Entry
import InlineCompletion.Log.Journal
import InlineCompletion.Log.Size
import InlineCompletion.Log.Template
import InlineCompletion.Loop.Basic
import InlineCompletion.Main
import InlineCompletion.Prompt.Basic
import InlineCompletion.Prompt.Choice
import InlineCompletion.Prompt.Guess
import InlineCompletion.Prompt.Instruction
import InlineCompletion.Prompt.Preview
import InlineCompletion.Proofs.Cache.Components
import InlineCompletion.Proofs.Cache.Keys
import InlineCompletion.Proofs.Cache.Recency
import InlineCompletion.Proofs.Context.Comments
import InlineCompletion.Proofs.Context.Labels
import InlineCompletion.Proofs.Context.OpenCalls
import InlineCompletion.Proofs.Context.Remarks
import InlineCompletion.Proofs.Context.Windows
import InlineCompletion.Proofs.Document.CursorCuts
import InlineCompletion.Proofs.Engine.Accounting
import InlineCompletion.Proofs.Engine.Accounts
import InlineCompletion.Proofs.Engine.Alarms
import InlineCompletion.Proofs.Engine.Asides
import InlineCompletion.Proofs.Engine.Balance
import InlineCompletion.Proofs.Engine.Bursts
import InlineCompletion.Proofs.Engine.Cancellations
import InlineCompletion.Proofs.Engine.Coherent
import InlineCompletion.Proofs.Engine.Completing
import InlineCompletion.Proofs.Engine.Debounces
import InlineCompletion.Proofs.Engine.Deeds
import InlineCompletion.Proofs.Engine.Departures
import InlineCompletion.Proofs.Engine.Echoes
import InlineCompletion.Proofs.Engine.Errands
import InlineCompletion.Proofs.Engine.Generations
import InlineCompletion.Proofs.Engine.Governed
import InlineCompletion.Proofs.Engine.Handover
import InlineCompletion.Proofs.Engine.Inert
import InlineCompletion.Proofs.Engine.Inversion
import InlineCompletion.Proofs.Engine.Isolation
import InlineCompletion.Proofs.Engine.Modes
import InlineCompletion.Proofs.Engine.Offers
import InlineCompletion.Proofs.Engine.Operations
import InlineCompletion.Proofs.Engine.Outrun
import InlineCompletion.Proofs.Engine.Previews
import InlineCompletion.Proofs.Engine.Progress
import InlineCompletion.Proofs.Engine.Provenance
import InlineCompletion.Proofs.Engine.Requests
import InlineCompletion.Proofs.Engine.Retyped
import InlineCompletion.Proofs.Engine.Reused
import InlineCompletion.Proofs.Engine.Sparing
import InlineCompletion.Proofs.Engine.Steady
import InlineCompletion.Proofs.Engine.Succession
import InlineCompletion.Proofs.Engine.Superseded
import InlineCompletion.Proofs.Engine.Tally
import InlineCompletion.Proofs.Engine.Timely
import InlineCompletion.Proofs.Engine.Traces
import InlineCompletion.Proofs.Engine.Turns
import InlineCompletion.Proofs.Engine.Upkeep
import InlineCompletion.Proofs.Engine.Verdicts
import InlineCompletion.Proofs.Engine.Waits
import InlineCompletion.Proofs.Log.Calls
import InlineCompletion.Proofs.Log.Sizes
import InlineCompletion.Proofs.Loop.Lookup
import InlineCompletion.Proofs.Loop.Releases
import InlineCompletion.Proofs.Loop.Strikes
import InlineCompletion.Proofs.Loop.Tasks
import InlineCompletion.Proofs.Loop.Wakes
import InlineCompletion.Proofs.Prompt.Choices
import InlineCompletion.Proofs.Reply.Blocks
import InlineCompletion.Proofs.Reply.Fences
import InlineCompletion.Proofs.Reply.FullEcho
import InlineCompletion.Proofs.Reply.Nesting
import InlineCompletion.Proofs.Reply.Overlaps
import InlineCompletion.Proofs.Reply.Quotes
import InlineCompletion.Proofs.Reply.Shapes
import InlineCompletion.Proofs.Reply.Survivors
import InlineCompletion.Proofs.Scan.Agreement
import InlineCompletion.Proofs.Scan.Searches
import InlineCompletion.Proofs.Settings.Loading
import InlineCompletion.Proofs.Symbol.Imports
import InlineCompletion.Proofs.Symbol.OwnKeys
import InlineCompletion.Proofs.Symbol.Scope
import InlineCompletion.Reply.Cleaning
import InlineCompletion.Reply.Fence
import InlineCompletion.Reply.Overlap
import InlineCompletion.Reply.Property
import InlineCompletion.Reply.Reasoning
import InlineCompletion.Reply.Wrapping
import InlineCompletion.Scan.Bracket
import InlineCompletion.Scan.Literal
import InlineCompletion.Settings.Basic
import InlineCompletion.Settings.EnvFile
import InlineCompletion.Settings.Load
import InlineCompletion.Symbol.Hint
import InlineCompletion.Symbol.Import
import InlineCompletion.Symbol.Property
import InlineCompletion.Symbol.Purpose
import InlineCompletion.Symbol.Variable
import InlineCompletion.Text.Alphanumeric
import InlineCompletion.Text.Basic
import InlineCompletion.Text.Character
import InlineCompletion.Text.Letter
import InlineCompletion.Text.Pattern
import InlineCompletion.Text.Quoted
import InlineCompletion.Text.Utf8
