import AuthSec.Lib.CommonSubjects
import AuthSec.Lib.Coverage
import AuthSec.Lib.Crashes
import AuthSec.Lib.Except
import AuthSec.Lib.Glob
import AuthSec.Lib.Intervals
import AuthSec.Lib.Least
import AuthSec.Lib.Lists
import AuthSec.Lib.Occurrences
import AuthSec.Lib.Pieces
import AuthSec.Lib.Results
import AuthSec.Lib.Rounding
import AuthSec.Lib.Sorting
import AuthSec.Lib.Splices
import AuthSec.Lib.Substrings
import AuthSec.Lib.Tables
import AuthSec.Lib.Threads
import AuthSec.Lib.Unicode
import AuthSec.Canonical.Hash
import AuthSec.Canonical.Integers
import AuthSec.Canonical.Json
import AuthSec.Canonical.Lemmas.Normal
import AuthSec.Canonical.Lemmas.Number
import AuthSec.Canonical.Lemmas.Render
import AuthSec.Canonical.Marshal
import AuthSec.Canonical.NormalForm
import AuthSec.Canonical.Number
import AuthSec.Canonical.Objects
import AuthSec.Canonical.PlanHash
import AuthSec.Canonical.Spaces
import AuthSec.Go.Collections
import AuthSec.Go.Decode
import AuthSec.Go.JsonText
import AuthSec.Go.Quote
import AuthSec.Go.Strings
import AuthSec.Go.Time
import AuthSec.Go.Unmarshal
import AuthSec.Policy.Action
import AuthSec.Policy.Boundary
import AuthSec.Policy.Document
import AuthSec.Policy.Exclusion
import AuthSec.Policy.Lemmas.Decode
import AuthSec.Policy.Lemmas.Narrow
import AuthSec.Policy.Narrow
import AuthSec.Policy.NarrowSemantics
import AuthSec.Policy.Storable
import AuthSec.Policy.Wildcards
import AuthSec.Catalog
import AuthSec.Intent
import AuthSec.Routes
import AuthSec.Live
import AuthSec.Retains
import AuthSec.Evidence.BlindSpots
import AuthSec.Evidence.Bundle
import AuthSec.Evidence.BundleOrder
import AuthSec.Evidence.BundleParse
import AuthSec.Evidence.Impact
import AuthSec.Evidence.RouteEvidence
import AuthSec.Evidence.RoutePrincipals
import AuthSec.Qualification.Grants
import AuthSec.Qualification.Observation
import AuthSec.Qualification.Qualify
import AuthSec.Rollout.Canary
import AuthSec.Rollout.CanaryDenials
import AuthSec.Rollout.CanaryEvidence
import AuthSec.Rollout.Coverage
import AuthSec.Rollout.Events
import AuthSec.Collection.Calls
import AuthSec.Collection.Clients
import AuthSec.Collection.Complete
import AuthSec.Collection.Counts
import AuthSec.Collection.Coverage
import AuthSec.Collection.Forms
import AuthSec.Attempts.Execute
import AuthSec.Attempts.History
import AuthSec.Attempts.Jobs
import AuthSec.Attempts.Ownership
import AuthSec.Attempts.Programs
import AuthSec.Attempts.Quiet
import AuthSec.Attempts.Rules
import AuthSec.Attempts.Safety
import AuthSec.Attempts.Tables
import AuthSec.Attempts.Transactions
import AuthSec.Attempts.Workers
import AuthSec.Agents.Ceilings
import AuthSec.Agents.ScopeCeiling
import AuthSec.Findings.Catalogs
import AuthSec.Findings.Escalations
import AuthSec.Findings.Evaluate
import AuthSec.Findings.Fingerprints
import AuthSec.Findings.Lifecycle
import AuthSec.Findings.PlanAgain
import AuthSec.Findings.Snapshot
import AuthSec.Plans.Apply
import AuthSec.Plans.Built
import AuthSec.Plans.Classify
import AuthSec.Plans.Direct
import AuthSec.Plans.Execution
import AuthSec.Plans.Executor
import AuthSec.Plans.ExecutorRuns
import AuthSec.Plans.FirstAttachment
import AuthSec.Plans.Plan
import AuthSec.Plans.Progress
import AuthSec.Plans.Recognition
import AuthSec.Plans.Recovery
import AuthSec.Plans.Restored
import AuthSec.Plans.Spared
import AuthSec.Terraform.Blocks
import AuthSec.Terraform.Documents
import AuthSec.Terraform.Edits
import AuthSec.Terraform.Layout
import AuthSec.Terraform.Literals
import AuthSec.Terraform.Reread
import AuthSec.Terraform.RoundTrip
import AuthSec.Terraform.Scanner
import AuthSec.Terraform.Spans
import AuthSec.Terraform.Strings
import AuthSec.Connectors.Constraints
import AuthSec.Scopes.Resolver
import AuthSec.Read.Cursor
import AuthSec.Discovery.Actions
import AuthSec.Discovery.Documents
import AuthSec.Discovery.PrincipalKeys
import AuthSec.Discovery.Principals
import AuthSec.Discovery.StatementKeys
import AuthSec.Discovery.Trust
import AuthSec.Kubernetes.Partitions
