import VaultOperator.Crd
import VaultOperator.Json.Printer
import VaultOperator.Memory.World
import VaultOperator.Probe
import VaultOperator.Proofs.Credential.Lookup
import VaultOperator.Proofs.Database.Flatten
import VaultOperator.Proofs.Engine.Convergence
import VaultOperator.Proofs.Engine.Course
import VaultOperator.Proofs.Engine.Deletion
import VaultOperator.Proofs.Engine.Discipline
import VaultOperator.Proofs.Engine.Echo
import VaultOperator.Proofs.Engine.Login
import VaultOperator.Proofs.Engine.Mirror
import VaultOperator.Proofs.Engine.Plain
import VaultOperator.Proofs.Engine.Reconcile
import VaultOperator.Proofs.Engine.Surroundings
import VaultOperator.Proofs.Engine.Sync
import VaultOperator.Proofs.Json.Dict
import VaultOperator.Proofs.Json.MergePatch
import VaultOperator.Proofs.Json.Reader
import VaultOperator.Proofs.Mount.Standing
import VaultOperator.Proofs.Mount.Tuning
import VaultOperator.Proofs.Pass.Execution
import VaultOperator.Proofs.Pass.Follows
import VaultOperator.Proofs.Pass.Trace
import VaultOperator.Proofs.Path.Segments
import VaultOperator.Proofs.Pki.Ending
import VaultOperator.Proofs.Pki.Generation
import VaultOperator.Proofs.Pki.History
import VaultOperator.Proofs.Pki.Plan
import VaultOperator.Proofs.Pki.Recorded
import VaultOperator.Proofs.Pki.Seen
import VaultOperator.Proofs.Pki.Steps
import VaultOperator.Proofs.RandomSecret.Course
import VaultOperator.Proofs.RandomSecret.Record
import VaultOperator.Proofs.RandomSecret.Rotation
import VaultOperator.Proofs.RandomSecret.Standing
import VaultOperator.Proofs.Resource.Equivalence
import VaultOperator.Proofs.Resource.Reading
import VaultOperator.Proofs.Status.LastUpdate
import VaultOperator.Proofs.Status.Stored
import VaultOperator.Proofs.Time.Calendar
import VaultOperator.Proofs.Time.Instant
import VaultOperator.Proofs.Time.Rfc3339
import VaultOperator.Proofs.Watch.Finalizers
import VaultOperator.Proofs.Watch.Life
import VaultOperator.Proofs.Watch.Ownership
import VaultOperator.Proofs.Watch.Pass
import VaultOperator.Proofs.Watch.Stored
import VaultOperator.Proofs.Watch.Turns
import VaultOperator.Text.Hex
import VaultOperator.Vault.Client
import VaultOperator.Watch.Pass
import VaultOperator.Watch.StreamError
import VaultOperator.Proofs.Json.Floatless
import VaultOperator.Proofs.Pass.Determined
import VaultOperator.Proofs.Resource.Drift
import VaultOperator.Proofs.Engine.Drift
import VaultOperator.Proofs.Credential.Resolution
import VaultOperator.Proofs.Credential.Secrecy
import VaultOperator.Proofs.Engine.Secrecy
import VaultOperator.Proofs.RandomSecret.HandOver
import VaultOperator.Proofs.Pki.Signer
import VaultOperator.Proofs.Pki.Companion
import VaultOperator.Proofs.Pki.Origin
import VaultOperator.Proofs.Pki.Request
import VaultOperator.Proofs.Json.ReadBack
import VaultOperator.Proofs.Status.ReadBack
import VaultOperator.Proofs.Watch.Schedule
import VaultOperator.Proofs.Engine.Working
import VaultOperator.Proofs.Pki.External
import VaultOperator.Proofs.Watch.CleanUp
import VaultOperator.Proofs.Backoff.Table
import VaultOperator.Proofs.Watch.Retry
import VaultOperator.Proofs.Watch.Foreign
import VaultOperator.Proofs.Engine.Concurrent
import VaultOperator.Proofs.Status.Conditions
import VaultOperator.Proofs.Status.Coherence
import VaultOperator.Proofs.Path.Names
import VaultOperator.Proofs.Pass.Raises
import VaultOperator.Proofs.Engine.Refusal
import VaultOperator.Proofs.Pki.Refusal
import VaultOperator.Proofs.Path.Canonical
import VaultOperator.Proofs.Path.Agreement
import VaultOperator.Proofs.Duration.Grammar
import VaultOperator.Proofs.Vault.Addressing
import VaultOperator.Proofs.Database.Nesting
import VaultOperator.Proofs.Json.Same
import VaultOperator.Proofs.Resource.Laws
import VaultOperator.Proofs.Policy.Placeholders
import VaultOperator.Proofs.Policy.Rendering
import VaultOperator.Proofs.Time.Range
import VaultOperator.Proofs.Watch.Horizon
import VaultOperator.Proofs.Policy.Course
import VaultOperator.Proofs.Watch.Expiry
