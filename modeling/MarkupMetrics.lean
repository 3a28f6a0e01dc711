import MarkupMetrics.Condition.Basic
import MarkupMetrics.Condition.Evaluation
import MarkupMetrics.Config.Basic
import MarkupMetrics.Config.Text
import MarkupMetrics.Css.Lexer
import MarkupMetrics.Css.Token
import MarkupMetrics.Document.Basic
import MarkupMetrics.Document.Dispatch
import MarkupMetrics.Dom.Edit
import MarkupMetrics.Dom.Element
import MarkupMetrics.Dom.Graft
import MarkupMetrics.Dom.Kin
import MarkupMetrics.Dom.Tree
import MarkupMetrics.Dom.Walk
import MarkupMetrics.Effect
import MarkupMetrics.Extractor.Basic
import MarkupMetrics.Extractor.Value
import MarkupMetrics.Html.BodyRules
import MarkupMetrics.Html.Builder
import MarkupMetrics.Html.Doctype
import MarkupMetrics.Html.Encoding
import MarkupMetrics.Html.Entities
import MarkupMetrics.Html.Foreign
import MarkupMetrics.Html.Formatting
import MarkupMetrics.Html.HeadRules
import MarkupMetrics.Html.Kinds
import MarkupMetrics.Html.Lexer
import MarkupMetrics.Html.Page
import MarkupMetrics.Html.Receiver
import MarkupMetrics.Html.Reference
import MarkupMetrics.Html.Rules
import MarkupMetrics.Html.Source
import MarkupMetrics.Html.TableRules
import MarkupMetrics.Html.Token
import MarkupMetrics.Html.TreeCall
import MarkupMetrics.Payload
import MarkupMetrics.Proofs.Condition.Agreement
import MarkupMetrics.Proofs.Condition.Evaluation
import MarkupMetrics.Proofs.Condition.Grammar
import MarkupMetrics.Proofs.Css.Lexing
import MarkupMetrics.Proofs.Css.Streams
import MarkupMetrics.Proofs.Css.Strings
import MarkupMetrics.Proofs.Document.Comparing
import MarkupMetrics.Proofs.Document.Delegation
import MarkupMetrics.Proofs.Document.Dispatch
import MarkupMetrics.Proofs.Document.Listeners
import MarkupMetrics.Proofs.Dom.Attributes
import MarkupMetrics.Proofs.Dom.Blanks
import MarkupMetrics.Proofs.Dom.Climb
import MarkupMetrics.Proofs.Dom.Copies
import MarkupMetrics.Proofs.Dom.Filling
import MarkupMetrics.Proofs.Dom.Grafts
import MarkupMetrics.Proofs.Dom.Growth
import MarkupMetrics.Proofs.Dom.Kinship
import MarkupMetrics.Proofs.Dom.Links
import MarkupMetrics.Proofs.Dom.Merging
import MarkupMetrics.Proofs.Dom.Moves
import MarkupMetrics.Proofs.Dom.Preorder
import MarkupMetrics.Proofs.Dom.Reading
import MarkupMetrics.Proofs.Dom.Siblings
import MarkupMetrics.Proofs.Dom.Splices
import MarkupMetrics.Proofs.Dom.Store
import MarkupMetrics.Proofs.Dom.Sweep
import MarkupMetrics.Proofs.Dom.Texts
import MarkupMetrics.Proofs.Dom.Touching
import MarkupMetrics.Proofs.Dom.Vacating
import MarkupMetrics.Proofs.Extractor.Grammar
import MarkupMetrics.Proofs.Extractor.Literals
import MarkupMetrics.Proofs.Extractor.Reading
import MarkupMetrics.Proofs.Html.Apart
import MarkupMetrics.Proofs.Html.Blanks
import MarkupMetrics.Proofs.Html.Calls
import MarkupMetrics.Proofs.Html.Insertion
import MarkupMetrics.Proofs.Html.Requests
import MarkupMetrics.Proofs.Html.Spots
import MarkupMetrics.Proofs.Outcome
import MarkupMetrics.Proofs.Provider.Building
import MarkupMetrics.Proofs.Provider.Ending
import MarkupMetrics.Proofs.Provider.Methods
import MarkupMetrics.Proofs.Provider.Running
import MarkupMetrics.Proofs.Registry.Accounts
import MarkupMetrics.Proofs.Registry.Binding
import MarkupMetrics.Proofs.Registry.Detaching
import MarkupMetrics.Proofs.Registry.Dismissal
import MarkupMetrics.Proofs.Registry.Plan
import MarkupMetrics.Proofs.Registry.Provenance
import MarkupMetrics.Proofs.Registry.Rounds
import MarkupMetrics.Proofs.Registry.Scanning
import MarkupMetrics.Proofs.Registry.Switches
import MarkupMetrics.Proofs.Selector.Attribute
import MarkupMetrics.Proofs.Selector.Chains
import MarkupMetrics.Proofs.Selector.Filling
import MarkupMetrics.Proofs.Selector.Finding
import MarkupMetrics.Proofs.Selector.Formed
import MarkupMetrics.Proofs.Selector.Names
import MarkupMetrics.Proofs.Selector.Places
import MarkupMetrics.Proofs.Selector.Positions
import MarkupMetrics.Proofs.Selector.Printing
import MarkupMetrics.Proofs.Selector.Reading
import MarkupMetrics.Proofs.Selector.RoundTrip
import MarkupMetrics.Proofs.Selector.Sound
import MarkupMetrics.Proofs.Selector.Values
import MarkupMetrics.Proofs.Session.Accounts
import MarkupMetrics.Proofs.Session.Arrivals
import MarkupMetrics.Proofs.Session.Copies
import MarkupMetrics.Proofs.Session.Custody
import MarkupMetrics.Proofs.Session.Delegation
import MarkupMetrics.Proofs.Session.Diagnostics
import MarkupMetrics.Proofs.Session.Dialogues
import MarkupMetrics.Proofs.Session.Dismissal
import MarkupMetrics.Proofs.Session.Dispatch
import MarkupMetrics.Proofs.Session.Filling
import MarkupMetrics.Proofs.Session.Gating
import MarkupMetrics.Proofs.Session.History
import MarkupMetrics.Proofs.Session.Insertions
import MarkupMetrics.Proofs.Session.LateMarkup
import MarkupMetrics.Proofs.Session.Likewise
import MarkupMetrics.Proofs.Session.Links
import MarkupMetrics.Proofs.Session.Listing
import MarkupMetrics.Proofs.Session.Lookups
import MarkupMetrics.Proofs.Session.Losses
import MarkupMetrics.Proofs.Session.Matching
import MarkupMetrics.Proofs.Session.Merging
import MarkupMetrics.Proofs.Session.Moments
import MarkupMetrics.Proofs.Session.Numbers
import MarkupMetrics.Proofs.Session.Order
import MarkupMetrics.Proofs.Session.Places
import MarkupMetrics.Proofs.Session.Provenance
import MarkupMetrics.Proofs.Session.Pushes
import MarkupMetrics.Proofs.Session.Registering
import MarkupMetrics.Proofs.Session.Removal
import MarkupMetrics.Proofs.Session.Rooted
import MarkupMetrics.Proofs.Session.Scanning
import MarkupMetrics.Proofs.Session.Scopes
import MarkupMetrics.Proofs.Session.Selecting
import MarkupMetrics.Proofs.Session.Siblings
import MarkupMetrics.Proofs.Session.Splicing
import MarkupMetrics.Proofs.Session.Switches
import MarkupMetrics.Proofs.Session.Texts
import MarkupMetrics.Proofs.Session.Unfailing
import MarkupMetrics.Proofs.Session.Vacancies
import MarkupMetrics.Proofs.Session.Writing
import MarkupMetrics.Proofs.Text.Blank
import MarkupMetrics.Proofs.Text.Case
import MarkupMetrics.Proofs.Text.Cutting
import MarkupMetrics.Provider.Basic
import MarkupMetrics.Provider.Handler
import MarkupMetrics.Provider.Methods
import MarkupMetrics.Provider.Samples
import MarkupMetrics.Registry.Basic
import MarkupMetrics.Registry.Providers
import MarkupMetrics.Registry.Scan
import MarkupMetrics.Selector.Basic
import MarkupMetrics.Selector.Error
import MarkupMetrics.Selector.Matching
import MarkupMetrics.Selector.Parser
import MarkupMetrics.Selector.Printer
import MarkupMetrics.Selector.Query
import MarkupMetrics.Session.Basic
import MarkupMetrics.Session.Operation
import MarkupMetrics.Text.Blank
import MarkupMetrics.Text.Case
import MarkupMetrics.Text.Digits
import MarkupMetrics.Text.Printable
import MarkupMetrics.Text.Quoted
import MarkupMetrics.Text.Shortest
import MarkupMetrics.Trace
