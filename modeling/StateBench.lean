import StateBench.Json.Printer
import StateBench.Json.Reader
import StateBench.DataFlow
import StateBench.Rule.Reader
import StateBench.Rule.Truth
import StateBench.Document.Reader
import StateBench.Machine.Loader
import StateBench.Machine.Index
import StateBench.Settings
import StateBench.Mock.Applied
import StateBench.Request
import StateBench.Task.StandIn
import StateBench.Scope
import StateBench.Bench
import StateBench.Proofs.Activity.Runs
import StateBench.Proofs.FanOut.Loop
import StateBench.Proofs.FanOut.Gathering
import StateBench.Tally
import StateBench.Proofs.Evaluation.Related
import StateBench.Proofs.FanOut.Instant
import StateBench.Proofs.FanOut.AnyOrder
import StateBench.Proofs.Machine.Bounds
import StateBench.Proofs.Evaluation.InTurn
import StateBench.Proofs.Evaluation.AnyOrder
import StateBench.Proofs.Evaluation.Partials
import StateBench.Proofs.Activity.Events
import StateBench.Proofs.FanOut.Events
import StateBench.Proofs.Evaluation.Calls
import StateBench.Proofs.Activity.Silent
import StateBench.Proofs.FanOut.Silent
import StateBench.Proofs.Evaluation.Unmocked
import StateBench.Proofs.Document.Declared
import StateBench.Proofs.Machine.WellFormed
import StateBench.Proofs.Machine.Paths
import StateBench.Proofs.Mock.Accepted
import StateBench.Proofs.Mock.Isolation
import StateBench.Proofs.Evaluation.Chains
import StateBench.Proofs.Evaluation.StateByState
import StateBench.Proofs.Evaluation.Termination
import StateBench.Proofs.Activity.Records
import StateBench.Proofs.FanOut.Traces
import StateBench.Proofs.FanOut.Prompt
import StateBench.Proofs.Activity.Agreement
import StateBench.Proofs.FanOut.Agreement
import StateBench.Proofs.Mock.Kept
import StateBench.Proofs.Evaluation.Applied
import StateBench.Proofs.Pattern.Language
import StateBench.Proofs.Document.States
import StateBench.Proofs.Document.Accepted
import StateBench.Proofs.Request.RoundTrip
import StateBench.Proofs.Json.Tokens
import StateBench.Proofs.Json.RoundTrip
import StateBench.Proofs.Request.Texts
import StateBench.Proofs.Machine.Cycles
import StateBench.Proofs.Evaluation.Revisits
import StateBench.Proofs.Evaluation.Outputs
import StateBench.Proofs.FanOut.History
import StateBench.Proofs.FanOut.Rules
import StateBench.Proofs.FanOut.Order
import StateBench.Proofs.Path.Lens
import StateBench.Proofs.Path.Obstacles
import StateBench.Proofs.Path.Spelling
import StateBench.Proofs.Path.Brackets
import StateBench.Proofs.Template.Rendering
import StateBench.Proofs.Machine.Index
import StateBench.Proofs.Activity.Succeeding
import StateBench.Proofs.FanOut.Succeeding
import StateBench.Proofs.Evaluation.MoreSteps
import StateBench.Proofs.Rule.Truth
import StateBench.Proofs.Number.Nearest
import StateBench.Proofs.Timestamp.Offsets
import StateBench.Proofs.Rule.Comparisons
import StateBench.Proofs.Rule.Operators
import StateBench.Proofs.Rule.WellTyped
import StateBench.Proofs.Mock.FirstUses
import StateBench.Proofs.Document.Faults
