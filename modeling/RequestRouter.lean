import RequestRouter.Unicode.Classes
import RequestRouter.Unicode.Folding
import RequestRouter.Unicode.Category
import RequestRouter.Unicode.Script
import RequestRouter.Unicode.ScriptExtensions
import RequestRouter.Unicode.Property
import RequestRouter.Text.Case
import RequestRouter.Text.Blank
import RequestRouter.Text.Utf8
import RequestRouter.Text.Quoted
import RequestRouter.Text.Html
import RequestRouter.Path
import RequestRouter.Glob
import RequestRouter.Verb
import RequestRouter.Regex.Match
import RequestRouter.Regex.Escape
import RequestRouter.Regex.Parser
import RequestRouter.Spec.Compile
import RequestRouter.Pattern
import RequestRouter.Json.Printer
import RequestRouter.Json.Reader
import RequestRouter.Binding
import RequestRouter.Http.Reply
import RequestRouter.Table.Dispatch
import RequestRouter.Controller
import RequestRouter.Config.Reader
import RequestRouter.Application.Basic
import RequestRouter.Shutdown
import RequestRouter.UserStore
import RequestRouter.Cli
import RequestRouter.Main
import RequestRouter.Proofs.Regex.Reach
import RequestRouter.Proofs.Spec.Lexing
import RequestRouter.Proofs.Spec.Alignment
import RequestRouter.Proofs.Table.History
import RequestRouter.Proofs.Table.Trace
import RequestRouter.Proofs.Unicode.Folding
import RequestRouter.Proofs.Params
import RequestRouter.Proofs.Regex.Reading
import RequestRouter.Proofs.Regex.Takes
import RequestRouter.Proofs.Spec.Element
import RequestRouter.Proofs.Pattern.Expression
import RequestRouter.Proofs.Pattern.Matching
import RequestRouter.Proofs.Pattern.Segments
import RequestRouter.Proofs.Glob
import RequestRouter.Proofs.Table.Selection
import RequestRouter.Proofs.Table.Conclusion
import RequestRouter.Proofs.Regex.Surroundings
import RequestRouter.Proofs.Regex.Grouping
import RequestRouter.Proofs.Regex.Whole
import RequestRouter.Proofs.Spec.Constraint
import RequestRouter.Proofs.Pattern.Constraint
import RequestRouter.Proofs.Application.Runs
import RequestRouter.Proofs.Table.Precedence
import RequestRouter.Proofs.Table.Runs
import RequestRouter.Proofs.Text.Case
import RequestRouter.Proofs.Regex.Alike
import RequestRouter.Proofs.Regex.Letters
import RequestRouter.Proofs.Spec.Casing
import RequestRouter.Proofs.Table.Duplicates
import RequestRouter.Proofs.Table.Endings
import RequestRouter.Proofs.Application.Failures
import RequestRouter.Proofs.Pattern.Literal
import RequestRouter.Proofs.Table.OwnPath
import RequestRouter.Proofs.Text.Utf8
import RequestRouter.Proofs.Http.Percent
import RequestRouter.Proofs.Table.PathValues
import RequestRouter.Proofs.Number.Natural
import RequestRouter.Proofs.UserStore.Routes
import RequestRouter.Proofs.UserStore.Refinement
import RequestRouter.Proofs.Table.Chains
import RequestRouter.Proofs.Spec.Places
import RequestRouter.Proofs.Spec.Tokens
import RequestRouter.Proofs.Spec.Balance
import RequestRouter.Proofs.Regex.Preferred
import RequestRouter.Proofs.Pattern.Preferred
import RequestRouter.Proofs.Pattern.Optional
import RequestRouter.Proofs.Pattern.Behind
import RequestRouter.Proofs.Pattern.Dotted
import RequestRouter.Proofs.Pattern.Rest
import RequestRouter.Proofs.Regex.Ends
import RequestRouter.Proofs.Regex.ClassEnds
import RequestRouter.Proofs.Regex.LooseEnds
import RequestRouter.Proofs.Spec.Ending
import RequestRouter.Proofs.Pattern.Strictness
import RequestRouter.Proofs.Text.Blank
import RequestRouter.Proofs.Interceptor.Qualified
import RequestRouter.Proofs.Pattern.Participants
import RequestRouter.Proofs.Table.Installing
import RequestRouter.Proofs.Application.Identity
import RequestRouter.Proofs.Path.Segments
import RequestRouter.Proofs.Path.Resolution
import RequestRouter.Proofs.Path.Normal
import RequestRouter.Proofs.Path.Join
import RequestRouter.Proofs.Path.Root
import RequestRouter.Proofs.Http.ErrorPage
import RequestRouter.Proofs.Shutdown
import RequestRouter.Proofs.Config.Assets
import RequestRouter.Proofs.Number.Printed
import RequestRouter.Proofs.Binding
import RequestRouter.Proofs.Spec.Literals
import RequestRouter.Proofs.Spec.Faultless
