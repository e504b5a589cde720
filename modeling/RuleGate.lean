import RuleGate.Arguments
import RuleGate.Base64
import RuleGate.Bytewise
import RuleGate.Command.Basic
import RuleGate.Command.Block
import RuleGate.Command.Directives
import RuleGate.Command.Field
import RuleGate.Command.Redirect
import RuleGate.Command.Report
import RuleGate.Command.Serve
import RuleGate.CommandLine.GatewayProgram
import RuleGate.CommandLine.LintProgram
import RuleGate.CommandLine.Options
import RuleGate.Condition.Basic
import RuleGate.Condition.Check
import RuleGate.Config.Basic
import RuleGate.Config.Document
import RuleGate.Config.Error
import RuleGate.Cookie
import RuleGate.Credentials
import RuleGate.Decoding
import RuleGate.Directive
import RuleGate.Effect
import RuleGate.Error
import RuleGate.Exchange.Derived
import RuleGate.Exchange.Memo
import RuleGate.Exchange.Update
import RuleGate.Files.Date
import RuleGate.Files.FileSystem
import RuleGate.Files.Path
import RuleGate.Forwarding
import RuleGate.Gateway
import RuleGate.Help
import RuleGate.Http.Header
import RuleGate.Http.Message
import RuleGate.Http.Status
import RuleGate.Http.Uri
import RuleGate.Json.Parser
import RuleGate.Json.Printer
import RuleGate.Lint.Basic
import RuleGate.Lint.Files
import RuleGate.Lint.Report
import RuleGate.LogLevel
import RuleGate.Main
import RuleGate.Matcher
import RuleGate.Net.Address
import RuleGate.Net.Network
import RuleGate.Params
import RuleGate.Password.Blowfish
import RuleGate.Password.Hash
import RuleGate.Pattern.Basic
import RuleGate.Pattern.Glob
import RuleGate.Pattern.Regex
import RuleGate.Percent
import RuleGate.Response.Buffer
import RuleGate.Response.Draft
import RuleGate.Response.ErrorPage
import RuleGate.Response.SharedPool
import RuleGate.Rule.Basic
import RuleGate.Rule.Document
import RuleGate.Rule.Handler
import RuleGate.Scene
import RuleGate.Sink
import RuleGate.Template.Basic
import RuleGate.Template.Variable
import RuleGate.Text.Blank
import RuleGate.Text.Case
import RuleGate.Text.Decimal
import RuleGate.Text.Integer
import RuleGate.Text.Printable
import RuleGate.Text.Quoted
import RuleGate.Text.Ranges
import RuleGate.Text.Split
import RuleGate.Text.Utf8
import RuleGate.Text.WordChar
import RuleGate.Tls.Der
import RuleGate.Tls.Key
import RuleGate.Tls.Pem
import RuleGate.UrlPath
import RuleGate.Value
import RuleGate.World
import RuleGate.Yaml.Cursor
import RuleGate.Yaml.Decoding
import RuleGate.Yaml.Document
import RuleGate.Yaml.Node
import RuleGate.Yaml.Scalar
import RuleGate.Yaml.Schema
import RuleGate.Proofs.Command.Block
import RuleGate.Proofs.Rule.Course
import RuleGate.Proofs.Rule.Handling
import RuleGate.Proofs.Rule.Orchestration
import RuleGate.Proofs.Http.Header
import RuleGate.Proofs.Rule.ResponseHeaders
import RuleGate.Proofs.Percent
import RuleGate.Proofs.Params
import RuleGate.Proofs.Http.Uri
import RuleGate.Proofs.Exchange.Coherence
import RuleGate.Proofs.Command.Coherence
import RuleGate.Proofs.Condition.Path
import RuleGate.Proofs.Rule.Bypass
import RuleGate.Proofs.Rule.Failure
import RuleGate.Proofs.Rule.Arrival
import RuleGate.Proofs.Rule.Shortcut
import RuleGate.Proofs.Directive.Substitution
import RuleGate.Proofs.Directive.Quoting
import RuleGate.Proofs.Condition.Algebra
import RuleGate.Proofs.Template.Expansion
import RuleGate.Proofs.Text.Integer
import RuleGate.Proofs.Template.RoundTrip
import RuleGate.Proofs.Command.Substitution
import RuleGate.Proofs.Rule.Compilation
import RuleGate.Proofs.Lint.Issues
import RuleGate.Proofs.Lint.Unreachable
import RuleGate.Proofs.Files.Path
import RuleGate.Proofs.Files.Growth
import RuleGate.Proofs.Files.Sink
import RuleGate.Proofs.Rule.Hiding
import RuleGate.Proofs.Rule.Checking
import RuleGate.Proofs.Lint.Broken
import RuleGate.Proofs.Response.SharedPool
import RuleGate.Proofs.Rule.Metrics
import RuleGate.Proofs.Text.Decoding
import RuleGate.Proofs.Text.Unbroken
import RuleGate.Proofs.Command.LogLine
import RuleGate.Proofs.Params.Wire
import RuleGate.Proofs.Command.QueryEdit
import RuleGate.Proofs.Http.Target
import RuleGate.Proofs.Exchange.PathUpdate
import RuleGate.Proofs.Command.Activity
import RuleGate.Proofs.Exchange.Grounding
import RuleGate.Proofs.Command.QueryUpdate
import RuleGate.Proofs.Command.Rewrite
import RuleGate.Proofs.Cookie
import RuleGate.Proofs.Exchange.CookieUpdate
import RuleGate.Proofs.Command.CookieEdit
import RuleGate.Proofs.Command.Rooted
import RuleGate.Proofs.Command.Serve
import RuleGate.Proofs.Command.PathReadBack
import RuleGate.Proofs.Forwarding
import RuleGate.Proofs.Http.HeaderName
import RuleGate.Proofs.Net.Address
import RuleGate.Proofs.Forwarding.HopByHop
import RuleGate.Proofs.Forwarding.Sent
import RuleGate.Proofs.Forwarding.Chain
import RuleGate.Proofs.Forwarding.Protocol
import RuleGate.Proofs.Http.Authority
import RuleGate.Proofs.Condition.Host
import RuleGate.Proofs.Net.Reading
import RuleGate.Proofs.Net.Network
import RuleGate.Proofs.Condition.Peer
import RuleGate.Proofs.Command.Pipeline
import RuleGate.Proofs.Error
import RuleGate.Proofs.Rule.Faults
import RuleGate.Proofs.Directive.BareWord
import RuleGate.Proofs.Directive.References
import RuleGate.Proofs.Directive.Unresolved
import RuleGate.Proofs.Rule.LineNumbers
import RuleGate.Proofs.Condition.Quoting
import RuleGate.Proofs.UrlPath.NormalForm
import RuleGate.Proofs.UrlPath.Fragment
import RuleGate.Proofs.Matcher
import RuleGate.Proofs.Condition.PathPattern
import RuleGate.Proofs.Response.Draft
import RuleGate.Proofs.Response.Framing
import RuleGate.Proofs.UrlPath.BelowRoot
import RuleGate.Proofs.Command.RedirectPage
import RuleGate.Proofs.Command.Redirect
import RuleGate.Proofs.Files.SinkCheck
import RuleGate.Proofs.Params.Edits
import RuleGate.Proofs.Base64
import RuleGate.Proofs.Credentials
import RuleGate.Proofs.Text.Bytewise
import RuleGate.Proofs.Template.Bytewise
import RuleGate.Proofs.Template.Pieces
import RuleGate.Proofs.Matcher.Bytewise
import RuleGate.Proofs.Bytewise
