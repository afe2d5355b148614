import QueryCache.Client.Basic
import QueryCache.Http.Transport
import QueryCache.Proofs.Client.Agreement
import QueryCache.Proofs.Client.Convergence
import QueryCache.Proofs.Client.GivenUp
import QueryCache.Proofs.Client.Returned
import QueryCache.Proofs.Client.Termination
import QueryCache.Proofs.Local.Answers
import QueryCache.Proofs.Local.Concealed
import QueryCache.Proofs.Query.Key
import QueryCache.Proofs.Query.RoundTrip
import QueryCache.Proofs.Store.Change
import QueryCache.Proofs.Store.Lifecycle
import QueryCache.Settings.File
import QueryCache.Store.Outline
import QueryCache.Proofs.Store.Compatible
import QueryCache.Proofs.Client.Quiet
import QueryCache.Proofs.Store.Reports
import QueryCache.Proofs.Client.Failures
import QueryCache.Proofs.Client.Events
import QueryCache.Proofs.Client.Trails
import QueryCache.Proofs.Store.Handles
import QueryCache.Proofs.Query.Trees
import QueryCache.Proofs.Local.Parents
import QueryCache.Proofs.Local.Remainder
import QueryCache.Proofs.Client.Injected
import QueryCache.Proofs.Local.Paths
import QueryCache.Proofs.Local.Outermost
import QueryCache.Proofs.Text.Reading
import QueryCache.Proofs.Toml.Quoted
import QueryCache.Proofs.Toml.Documents
import QueryCache.Proofs.Settings.File
import QueryCache.Proofs.Local.Removal
import QueryCache.Proofs.Query.Unfolded
import QueryCache.Proofs.Client.Asked
import QueryCache.Proofs.Json.Position
import QueryCache.Proofs.Local.Resolution
import QueryCache.Proofs.Query.Survivors
import QueryCache.Proofs.Entity.Gathered
import QueryCache.Proofs.Local.Untouched
import QueryCache.Proofs.Entity.Distinct
import QueryCache.Proofs.Store.Repeated
import QueryCache.Proofs.Store.Commuting
import QueryCache.Proofs.Client.Phases
import QueryCache.Proofs.Query.Grown
import QueryCache.Proofs.Local.Insertion
import QueryCache.Proofs.Http.Responses
import QueryCache.Proofs.Json.Clash
