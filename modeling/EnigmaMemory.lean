import EnigmaMemory.Proof.Atomic
import EnigmaMemory.Proof.Binding
import EnigmaMemory.Proof.Filed
import EnigmaMemory.Proof.Deletion
import EnigmaMemory.Proof.Import
import EnigmaMemory.Proof.Lifecycle
import EnigmaMemory.Proof.LifecycleRoot
import EnigmaMemory.Proof.MerkleNonMembership
import EnigmaMemory.Proof.ReceiptLog
import EnigmaMemory.Proof.Replay
import EnigmaMemory.Proof.RoundTrip
import EnigmaMemory.Proof.PlaintextCache
import EnigmaMemory.Proof.StableRecords
import EnigmaMemory.Proof.PackSoundness
import EnigmaMemory.Lib.Regex
import EnigmaMemory.Spec.ControllerReports
import EnigmaMemory.Proof.RecallVeto
import EnigmaMemory.Proof.Sessions
import EnigmaMemory.Proof.ReferenceChain
import EnigmaMemory.Proof.SessionLimits
import EnigmaMemory.Proof.Memories
import EnigmaMemory.Proof.Budgets
import EnigmaMemory.Proof.Royalties
import EnigmaMemory.Proof.Votes
import EnigmaMemory.Proof.TokenBudgets
import EnigmaMemory.Proof.Settlement
import EnigmaMemory.Proof.SettlementBatch
import EnigmaMemory.Proof.Metering
import EnigmaMemory.Proof.ConsentScope
import EnigmaMemory.Proof.PrefixSearch
import EnigmaMemory.Proof.UserStore
import EnigmaMemory.Proof.McpServer
import EnigmaMemory.Proof.Boundary
import EnigmaMemory.Proof.AutoSave
import EnigmaMemory.Proof.SaveSafety
import EnigmaMemory.Proof.ControllerSchemas
import EnigmaMemory.Proof.SessionData
import EnigmaMemory.Proof.NodeSession
import EnigmaMemory.Proof.MemoryTree
import EnigmaMemory.Proof.OAuth
import EnigmaMemory.Proof.NodeServer
import EnigmaMemory.Proof.RelayReplay
import EnigmaMemory.Proof.Storage
import EnigmaMemory.Proof.Enterprise
import EnigmaMemory.Proof.JsonRpc
import EnigmaMemory.Proof.VerifyBundle
import EnigmaMemory.Proof.McpVault
import EnigmaMemory.Proof.Detection
import EnigmaMemory.Proof.TamperEvidence
import EnigmaMemory.Proof.Grants
import EnigmaMemory.Proof.NativeHost
import EnigmaMemory.Proof.Service
import EnigmaMemory.Proof.Optimizer
import EnigmaMemory.Proof.PackOptimizer
import EnigmaMemory.Proof.MeshArtifacts
import EnigmaMemory.Proof.LegalHolds
import EnigmaMemory.Proof.Wrapping
import EnigmaMemory.Proof.RenderedContext
import EnigmaMemory.Proof.DriveHealth
import EnigmaMemory.Proof.SettledTombstones
import EnigmaMemory.Lib.StableSort
import EnigmaMemory.Proof.GrantWindow
import EnigmaMemory.Proof.AnchorBatch
import EnigmaMemory.Proof.ServerEntry
import EnigmaMemory.Proof.FailedWrite
import EnigmaMemory.Proof.ImportPreview
import EnigmaMemory.Proof.ImportCapsule
import EnigmaMemory.Proof.PlaintextMetadata
