import HttpSuite.Text.Category
import HttpSuite.Text.Case
import HttpSuite.Text.Quoted
import HttpSuite.Value.Printer
import HttpSuite.Value.Reader
import HttpSuite.Scope.Chain
import HttpSuite.Regex.Matching
import HttpSuite.Regex.CharClass
import HttpSuite.Regex.Sample
import HttpSuite.Template.Basic
import HttpSuite.Pattern.Check
import HttpSuite.Yaml.Resolve
import HttpSuite.Duration
import HttpSuite.Config.Reader
import HttpSuite.Config.Printer
import HttpSuite.Config.Validation
import HttpSuite.Url.Basic
import HttpSuite.Http.Response
import HttpSuite.RoundTrip.Form
import HttpSuite.Preset
import HttpSuite.Condition.Basic
import HttpSuite.RoundTrip.Run
import HttpSuite.Suite.Settings
import HttpSuite.Suite.Folder
import HttpSuite.Context.Activation
import HttpSuite.Context.Finish
import HttpSuite.Suite.Session
import HttpSuite.Main
import HttpSuite.Proofs.OrderedMap
import HttpSuite.Proofs.Scope.Merge
import HttpSuite.Proofs.Scope.Conflict
import HttpSuite.Proofs.Scope.Combine
import HttpSuite.Proofs.Scope.DeepMerge
import HttpSuite.Proofs.Journal
import HttpSuite.Proofs.Value.DeepOverwrite
import HttpSuite.Proofs.Value.Overlay
import HttpSuite.Proofs.RoundTrip.Run
import HttpSuite.Proofs.Context.Activation
import HttpSuite.Proofs.Context.Shadowing
import HttpSuite.Proofs.Context.Freshness
import HttpSuite.Proofs.Context.AllOrNothing
import HttpSuite.Proofs.Suite.Plan
import HttpSuite.Proofs.Suite.Cleaning
import HttpSuite.Proofs.RoundTrip.Mentions
import HttpSuite.Proofs.RoundTrip.Indifference
import HttpSuite.Proofs.Context.Again
import HttpSuite.Proofs.Context.Repeatable
import HttpSuite.Proofs.Suite.Alone
import HttpSuite.Proofs.Suite.Isolation
import HttpSuite.Proofs.Pattern.Meaning
import HttpSuite.Proofs.Template.Append
import HttpSuite.Proofs.Template.Grammar
import HttpSuite.Proofs.Value.Path
import HttpSuite.Proofs.Value.Spelling
import HttpSuite.Proofs.Template.Select
import HttpSuite.Proofs.Suite.Lifecycle
import HttpSuite.Proofs.Suite.Collaborators
import HttpSuite.Proofs.Suite.Folder
import HttpSuite.Proofs.Suite.Reordered
import HttpSuite.Proofs.Suite.Complete
import HttpSuite.Proofs.Suite.Totals
import HttpSuite.Proofs.Text.Digits
import HttpSuite.Proofs.Duration
import HttpSuite.Proofs.Config.Codec
import HttpSuite.Proofs.Config.ReadsBack
import HttpSuite.Proofs.RoundTrip.Polling
import HttpSuite.Proofs.RoundTrip.Turns
import HttpSuite.Proofs.RoundTrip.Aligned
import HttpSuite.Proofs.Context.Validated
import HttpSuite.Proofs.Context.Stale
import HttpSuite.Proofs.RoundTrip.Requirement
import HttpSuite.Proofs.Pattern.Unnamed
import HttpSuite.Proofs.Pattern.WellFormed
import HttpSuite.Proofs.Pattern.Constraint
import HttpSuite.Proofs.Pattern.Report
import HttpSuite.Proofs.RoundTrip.Layering
import HttpSuite.Proofs.Scope.Chain
import HttpSuite.Proofs.Http.Header
import HttpSuite.Proofs.RoundTrip.Headers
import HttpSuite.Proofs.Template.Pieces
import HttpSuite.Proofs.Template.Position
import HttpSuite.Proofs.Suite.Session
import HttpSuite.Proofs.Config.Validation
import HttpSuite.Proofs.Suite.Loaded
