import LocalProvisioner.Interleaving
import LocalProvisioner.UnixPath
import LocalProvisioner.GlobPattern
import LocalProvisioner.ObjectStore
import LocalProvisioner.Objects
import LocalProvisioner.ProcTable
import LocalProvisioner.Operations
import LocalProvisioner.Deleter
import LocalProvisioner.Discovery
import LocalProvisioner.VolumeCache
import LocalProvisioner.Cluster
import LocalProvisioner.SyncProtocol
import LocalProvisioner.SyncLoop
import LocalProvisioner.CleanerTable
import LocalProvisioner.ProcessMode
import LocalProvisioner.JobFreshness
import LocalProvisioner.JobExclusion
import LocalProvisioner.ModeSwitch
import LocalProvisioner.NodeAffinity
import LocalProvisioner.NodeCleanup
import LocalProvisioner.LiveNodes
import LocalProvisioner.Configuration
import LocalProvisioner.Confinement
import LocalProvisioner.PathUniqueness
import LocalProvisioner.DelayQueue
import LocalProvisioner.GracePeriod
import LocalProvisioner.ConfigWatcher
import LocalProvisioner.SharedUpdates
import LocalProvisioner.NodeTaint
import LocalProvisioner.CleanupRecord
import LocalProvisioner.ControllerStart
import LocalProvisioner.StopHandshake
import LocalProvisioner.CleanupOwnership
import LocalProvisioner.CleanupSystem
import LocalProvisioner.ClaimDeletion
import LocalProvisioner.StaleTracking
import LocalProvisioner.DeletionIsolation
import LocalProvisioner.DiscoverySpec
import LocalProvisioner.NameCollision
import LocalProvisioner.OwnedCache
import LocalProvisioner.PathAgreement
import LocalProvisioner.CleanerAccounts
import LocalProvisioner.TaintRemoval
import LocalProvisioner.BetaMigration
import LocalProvisioner.DiscoveryWalk
import LocalProvisioner.DiscoveryPass
import LocalProvisioner.MalformedPattern
import LocalProvisioner.CapacityGauge
import LocalProvisioner.DiscoveryConvergence
import LocalProvisioner.CapacityRounding
import LocalProvisioner.ConfigRoundTrip
import LocalProvisioner.TableFailures
import LocalProvisioner.ChartValues
import LocalProvisioner.ChartTrees
import LocalProvisioner.HelmUpgrade
import LocalProvisioner.ChartDecoding
import LocalProvisioner.HelmMigration
import LocalProvisioner.CleanerSafety
import LocalProvisioner.PassCalls
import LocalProvisioner.VolumeLife
import LocalProvisioner.CleanerScripts
import LocalProvisioner.FileTree
import LocalProvisioner.FilesystemCleaning
import LocalProvisioner.Inevitability
import LocalProvisioner.PipedProcess
import LocalProvisioner.ScriptExecution
import LocalProvisioner.DeletionTurns
import LocalProvisioner.VolumeRounds
import LocalProvisioner.VolumeStages
import LocalProvisioner.Fleet
import LocalProvisioner.NodeFleet
