import EntryClaims.Adapter.Binding
import EntryClaims.Adapter.Lookup
import EntryClaims.Adapter.Options
import EntryClaims.Adapter.Upsert
import EntryClaims.Claim.Chain
import EntryClaims.Claim.Document
import EntryClaims.Claim.Form
import EntryClaims.Claim.Mapping
import EntryClaims.Claim.Rule
import EntryClaims.Claim.Step
import EntryClaims.Decimal.Binary64
import EntryClaims.Decimal.Shortest
import EntryClaims.Directory.Credentials
import EntryClaims.Directory.Dialogue
import EntryClaims.Directory.Error
import EntryClaims.Directory.Interleaving
import EntryClaims.Directory.Memory
import EntryClaims.Directory.Name
import EntryClaims.Directory.NameReading
import EntryClaims.Directory.Sample
import EntryClaims.Directory.Script
import EntryClaims.Entry.Apply
import EntryClaims.Entry.Change
import EntryClaims.Entry.Difference
import EntryClaims.Entry.Record
import EntryClaims.Entry.Synonyms
import EntryClaims.Entry.Value
import EntryClaims.Entry.ValueSet
import EntryClaims.Filter.Escape
import EntryClaims.Filter.Matching
import EntryClaims.Filter.Meaning
import EntryClaims.Filter.Tree
import EntryClaims.Json.Form
import EntryClaims.Json.Parser
import EntryClaims.Json.Printer
import EntryClaims.Json.Value
import EntryClaims.Ldap.Config
import EntryClaims.Ldap.Entry
import EntryClaims.Ldap.Session
import EntryClaims.Ldap.Strict
import EntryClaims.OrderedMap
import EntryClaims.Text.CaseProperties
import EntryClaims.Text.Lowercase
import EntryClaims.Text.LowercaseTable
import EntryClaims.Text.Pieces
import EntryClaims.Proofs.Maps
import EntryClaims.Proofs.Entry.Texts
import EntryClaims.Proofs.Entry.Families
import EntryClaims.Proofs.Entry.Plan
import EntryClaims.Proofs.Directory.Modify
import EntryClaims.Proofs.Directory.Tasks
import EntryClaims.Proofs.Entry.Convergence
import EntryClaims.Proofs.Entry.Keeping
import EntryClaims.Proofs.Adapter.Operations
import EntryClaims.Proofs.Adapter.Protection
import EntryClaims.Proofs.Claim.Paths
import EntryClaims.Proofs.Claim.Reading
import EntryClaims.Proofs.Claim.Alignment
import EntryClaims.Proofs.Claim.Writing
import EntryClaims.Proofs.Claim.Splitting
import EntryClaims.Proofs.Claim.Unmodified
import EntryClaims.Proofs.Claim.Saving
import EntryClaims.Proofs.Filter.Reading
import EntryClaims.Proofs.Filter.Escaping
import EntryClaims.Proofs.Adapter.Lookup
import EntryClaims.Proofs.Adapter.Binding
import EntryClaims.Proofs.Adapter.Creation
import EntryClaims.Proofs.Claim.Labels
import EntryClaims.Proofs.Claim.Agreement
import EntryClaims.Proofs.Adapter.Concurrency
import EntryClaims.Proofs.Directory.Histories
import EntryClaims.Proofs.Directory.Naming
import EntryClaims.Proofs.Adapter.Commands
import EntryClaims.Proofs.Claim.Serialization
import EntryClaims.Proofs.Ldap.Acceptance
import EntryClaims.Proofs.Ldap.ReadBack
import EntryClaims.Proofs.Adapter.Repetition
import EntryClaims.Proofs.Adapter.Denial
import EntryClaims.Proofs.Adapter.Failures
import EntryClaims.Proofs.Claim.Lens
import EntryClaims.Proofs.Claim.Showing
import EntryClaims.Proofs.Claim.Overlap
import EntryClaims.Proofs.Claim.Collecting
import EntryClaims.Proofs.Claim.Rereading
import EntryClaims.Proofs.Claim.Regrouping
import EntryClaims.Proofs.Claim.Positions
import EntryClaims.Proofs.Claim.JsonText
import EntryClaims.Proofs.Claim.Elementwise
import EntryClaims.Proofs.Entry.Minimality
import EntryClaims.Proofs.Entry.AsDesired
import EntryClaims.Proofs.Adapter.Rejections
import EntryClaims.Proofs.Claim.Emptying
import EntryClaims.Proofs.Claim.Nulls
import EntryClaims.Proofs.Claim.Suffixes
import EntryClaims.Proofs.Claim.Sharing
import EntryClaims.Proofs.Ldap.Identity
import EntryClaims.Proofs.Adapter.Placement
import EntryClaims.Proofs.Claim.Assigning
import EntryClaims.Proofs.Claim.Leaves
