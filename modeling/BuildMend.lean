import BuildMend.Main
import BuildMend.Proofs.BuildOutput
import BuildMend.Proofs.Diagnostic.Rendering
import BuildMend.Proofs.FixRun.Abort
import BuildMend.Proofs.FixRun.Plan
import BuildMend.Proofs.Migration.Effect
import BuildMend.Proofs.Assistant.Lifecycle
import BuildMend.Proofs.Assistant.Prompt
import BuildMend.Proofs.FixRun.Requests
import BuildMend.Proofs.Migration.Sequence
import BuildMend.Proofs.Diagnostic.Locality
import BuildMend.Proofs.Diagnostic.Stability
import BuildMend.Proofs.Text.Field
import BuildMend.Proofs.TspLocation.Commit
import BuildMend.Proofs.Migration.CommitUpdate
import BuildMend.Proofs.Migration.LocationFile
import BuildMend.Proofs.Migration.LookupFailures
import BuildMend.Proofs.Migration.Identifiers
import BuildMend.Proofs.Migration.ImportPlace
import BuildMend.Proofs.Migration.DirectiveLines
import BuildMend.Proofs.Migration.ProjectElement
import BuildMend.Proofs.Assistant.Clients
import BuildMend.Proofs.Migration.Unreadable
import BuildMend.Proofs.Migration.ByteOrderMark
import BuildMend.Proofs.Migration.CommitChoice
import BuildMend.Proofs.Progress
import BuildMend.Proofs.Assistant.Profile
import BuildMend.Proofs.Json.Spelling
import BuildMend.Proofs.Json.Stops
import BuildMend.Proofs.SpecSearch.Answer
import BuildMend.Proofs.SpecSearch.Course
import BuildMend.Proofs.TspLocation.Repository
