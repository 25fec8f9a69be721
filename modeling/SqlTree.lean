import SqlTree.Config
import SqlTree.Json.Reader
import SqlTree.Node.Builder
import SqlTree.Node.Equality
import SqlTree.Proofs.Calendar.Epoch
import SqlTree.Proofs.Json.Members
import SqlTree.Proofs.Json.Places
import SqlTree.Proofs.Json.Renaming
import SqlTree.Proofs.Naming.Letters
import SqlTree.Proofs.Naming.Repeated
import SqlTree.Proofs.Naming.RoundTrip
import SqlTree.Proofs.Plugin.Configured
import SqlTree.Proofs.Plugin.Execution
import SqlTree.Proofs.Plugin.Inbound
import SqlTree.Proofs.Plugin.Keys
import SqlTree.Proofs.Plugin.Layers
import SqlTree.Proofs.Plugin.Nested
import SqlTree.Proofs.Plugin.Outbound
import SqlTree.Proofs.Plugin.Renaming
import SqlTree.Proofs.Plugin.Repeated
import SqlTree.Proofs.Plugin.Schema
import SqlTree.Proofs.Plugin.Values
import SqlTree.Proofs.Reading.Comments
import SqlTree.Proofs.Reading.Condition
import SqlTree.Proofs.Reading.Conjunction
import SqlTree.Proofs.Reading.Filter
import SqlTree.Proofs.Reading.Quotients
import SqlTree.Proofs.Reading.Quoting
import SqlTree.Proofs.RuleSet.Calls
import SqlTree.Proofs.RuleSet.Failure
import SqlTree.Proofs.RuleSet.Rebuilding
import SqlTree.Proofs.RuleSet.Registrations
import SqlTree.Proofs.RuleSet.Unchanged
import SqlTree.Proofs.Statement.Conjunction
import SqlTree.Proofs.Statement.Marks
import SqlTree.Proofs.Statement.Parameters
import SqlTree.Proofs.Statement.Portable
import SqlTree.Proofs.Statement.Subqueries
import SqlTree.Proofs.Statement.Substitution
import SqlTree.Proofs.Statement.Values
import SqlTree.Proofs.Tree.Labels
import SqlTree.Proofs.Tree.Nodes
import SqlTree.Proofs.Tree.Places
import SqlTree.Proofs.Tree.Values
import SqlTree.Proofs.Wire.Binding
import SqlTree.Proofs.Wire.Echo
import SqlTree.Wire.ConnectionString
import SqlTree.Wire.Session
