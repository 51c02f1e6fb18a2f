import LifecycleFabric.Identity
import LifecycleFabric.Artifact
import LifecycleFabric.Lib.OrdMap
import LifecycleFabric.Status
import LifecycleFabric.Lifecycle
import LifecycleFabric.Lib.Runs
import LifecycleFabric.Scope
import LifecycleFabric.Authority
import LifecycleFabric.AuthorityChange
import LifecycleFabric.AuthorityRoom
import LifecycleFabric.Compatibility
import LifecycleFabric.ModelRecord
import LifecycleFabric.Evidence
import LifecycleFabric.Policy
import LifecycleFabric.Rollout
import LifecycleFabric.Engine.State
import LifecycleFabric.Engine.Checks
import LifecycleFabric.Engine.Grant
import LifecycleFabric.Engine.Registry
import LifecycleFabric.Engine.Promotion
import LifecycleFabric.Engine.Rollback
import LifecycleFabric.Engine.Rollout
import LifecycleFabric.Engine.StageAdvance
import LifecycleFabric.Engine.Retirement
import LifecycleFabric.Engine.Workers
import LifecycleFabric.Engine.Query
import LifecycleFabric.Lib.Validation
import LifecycleFabric.Engine.Snapshot
import LifecycleFabric.Engine.Step
import LifecycleFabric.Coordinator
import LifecycleFabric.Engine.Gates
import LifecycleFabric.Engine.Effect
import LifecycleFabric.Engine.Coherence
import LifecycleFabric.Engine.PlanSteps
import LifecycleFabric.Engine.Chains
import LifecycleFabric.Engine.StageChains
import LifecycleFabric.Engine.Endings
import LifecycleFabric.EvidenceFiling
import LifecycleFabric.EvidenceLookup
import LifecycleFabric.Engine.Aside
import LifecycleFabric.Engine.Recovery
import LifecycleFabric.Engine.Reachable
import LifecycleFabric.ScopeTree
import LifecycleFabric.Engine.Standing
import LifecycleFabric.Engine.Admission
import LifecycleFabric.Engine.Appended
import LifecycleFabric.Engine.Generations
import LifecycleFabric.Engine.GrantRuns
import LifecycleFabric.Engine.LiveLists
import LifecycleFabric.Engine.RollbackGate
import LifecycleFabric.Engine.StageGrants
import LifecycleFabric.Engine.BriefDecisions
import LifecycleFabric.Lib.Stamps
import LifecycleFabric.Properties.Holders
import LifecycleFabric.Properties.Imports
import LifecycleFabric.Properties.Query
import LifecycleFabric.Properties.Rollbacks
import LifecycleFabric.Properties.AutomaticRollback
import LifecycleFabric.Properties.Boots
import LifecycleFabric.Properties.Clocks
import LifecycleFabric.Properties.StageCommits
import LifecycleFabric.Properties.CommitLists
import LifecycleFabric.Properties.Promotions
import LifecycleFabric.Properties.CompatibleGrants
import LifecycleFabric.Properties.Fencing
import LifecycleFabric.Properties.Incarnations
import LifecycleFabric.Properties.LateSuccess
import LifecycleFabric.Properties.Lifecycles
import LifecycleFabric.Properties.Recording
import LifecycleFabric.Properties.Recoveries
import LifecycleFabric.Properties.References
import LifecycleFabric.Properties.Residency
import LifecycleFabric.Properties.Revalidations
import LifecycleFabric.Properties.Stages
import LifecycleFabric.Properties.ScopeGenerations
import LifecycleFabric.Engine.ActiveGenerations
import LifecycleFabric.Properties.Coexistence
import LifecycleFabric.Engine.Attempts
import LifecycleFabric.Properties.Attempts
import LifecycleFabric.Engine.Plans
import LifecycleFabric.Properties.LivePlans
import LifecycleFabric.Properties.Withdrawals
import LifecycleFabric.Sessions
import LifecycleFabric.Properties.Departures
import LifecycleFabric.Properties.Dispatch
import LifecycleFabric.Properties.CommittedStages
import LifecycleFabric.Properties.Drains
import LifecycleFabric.Properties.Completions
import LifecycleFabric.Properties.Framing
import LifecycleFabric.Properties.Decoders
import LifecycleFabric.Properties.Messages
import LifecycleFabric.Properties.Corruption
import LifecycleFabric.Properties.Effects
import LifecycleFabric.Properties.StageEvidence
import LifecycleFabric.Properties.Answers
import LifecycleFabric.Properties.Replies
import LifecycleFabric.Properties.SnapshotGenerations
import LifecycleFabric.Properties.LateReports
import LifecycleFabric.Properties.PlanRequests
import LifecycleFabric.Properties.BlastRadius
import LifecycleFabric.Properties.Publishers
import LifecycleFabric.Properties.Retirements
import LifecycleFabric.Properties.Cutovers
import LifecycleFabric.Properties.CutoverBindings
import LifecycleFabric.Properties.RollbackTargets
import LifecycleFabric.Properties.Supersessions
import LifecycleFabric.Engine.PartialGrants
import LifecycleFabric.Properties.PartialAuthority
import LifecycleFabric.Properties.StageCanaries
import LifecycleFabric.StateFile.RecordBounds
import LifecycleFabric.StateFile.SectionBounds
import LifecycleFabric.Properties.StateFiles
import LifecycleFabric.Lib.Journal
import LifecycleFabric.EvidenceJournal
import LifecycleFabric.EvidenceHistory
import LifecycleFabric.Properties.EvidenceStores
import LifecycleFabric.Engine.Stats
import LifecycleFabric.Properties.EvidenceStats
import LifecycleFabric.Properties.AuthorityBounds
import LifecycleFabric.Lib.Lineage
import LifecycleFabric.ScopeShape
import LifecycleFabric.ScopeCalls
import LifecycleFabric.ScopeWalks
import LifecycleFabric.ScopePaths
import LifecycleFabric.PolicyChains
import LifecycleFabric.Properties.Policies
import LifecycleFabric.Properties.Scopes
import LifecycleFabric.Engine.CurrentVersions
import LifecycleFabric.Properties.CurrentSteps
import LifecycleFabric.Properties.CurrentAuthority
import LifecycleFabric.Lib.ThreeWay
import LifecycleFabric.VersionOrder
import LifecycleFabric.Properties.Requirements
import LifecycleFabric.Properties.Revisions
import LifecycleFabric.Properties.Registrations
import LifecycleFabric.Lib.KeyedSort
import LifecycleFabric.Properties.Findings
import LifecycleFabric.Properties.ReplicaFindings
import LifecycleFabric.BackendCalls
import LifecycleFabric.Properties.Readiness
import LifecycleFabric.Lib.Numerals
import LifecycleFabric.Decimals
import LifecycleFabric.Properties.Decimals
import LifecycleFabric.Lib.Blocks
import LifecycleFabric.Lib.BigEndian
import LifecycleFabric.Lib.Sha256Standard
import LifecycleFabric.Sha256
import LifecycleFabric.Compression
import LifecycleFabric.Properties.Digests
import LifecycleFabric.Lib.Allocators
import LifecycleFabric.Engine.Identities
import LifecycleFabric.Engine.Issued
import LifecycleFabric.Engine.Spending
import LifecycleFabric.Properties.Identities
import LifecycleFabric.Lib.AtomicReplace
import LifecycleFabric.StateFile.Save
import LifecycleFabric.Properties.Saves
import LifecycleFabric.Wire.Handling
import LifecycleFabric.Host
import LifecycleFabric.Properties.Descents
import LifecycleFabric.Properties.Durability
import LifecycleFabric.Properties.Streams
import LifecycleFabric.Lib.Outputs
import LifecycleFabric.Properties.Commands
import LifecycleFabric.Lib.Deliveries
import LifecycleFabric.Workers
import LifecycleFabric.Fabric
import LifecycleFabric.Properties.Executions
import LifecycleFabric.Lib.SecondaryIndex
import LifecycleFabric.Engine.Enrollments
import LifecycleFabric.Properties.Indexes
import LifecycleFabric.Properties.Lookups
import LifecycleFabric.Properties.Consistency
import LifecycleFabric.Properties.Exports
