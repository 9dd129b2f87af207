import LocalProvisioner.Interleaving
import LocalProvisioner.ProcTable

namespace LocalProvisioner

/-!
# The calls of the sync loop

The sync loop touches state it shares with other goroutines, with the API
server, or with the filesystem only through the calls listed here.  Methods of
the source that hold one lock throughout, or read one lister once, are one
call each.  `MarkRunning` and the `go` statement after it are one call too:
nothing shared is accessed between them.

Log lines are left out.  Events and metrics are kept as `Report`s.
-/

/-- The classes of API errors that the code tells apart. -/
inductive ApiError where
  | notFound : ApiError
  | alreadyExists : ApiError
  | other : String → ApiError
  deriving Repr, DecidableEq

/-- The text of an API error. -/
def ApiError.text : ApiError → String
  | .notFound => "not found"
  | .alreadyExists => "already exists"
  | .other message => message

/-- What a cleaner goroutine is started with: the arguments of `asyncCleanPV`. -/
structure CleanerWork where
  pv : PersistentVolume
  volMode : VolumeMode
  mountPath : String
  config : MountConfig
  deriving DecidableEq

/-- Events and metrics that a pass emits. -/
inductive Report where
  | event : (pvName reason message : String) → Report
  | deleteFailed : (mode deleteType : String) → Report
  | deleted : (mode deleteType : String) → Report
  | deleteDuration :
      (mode deleteType : String) →
      (capacityBytes : Int) →
      (cleanupCommand : String) →
      (startTime : Nat) →
      Report
  | discovered : (mode : String) → (startTime : Nat) → Report
  | capacity : VolumeMode → (bytes : Int) → Report
  deriving Repr, DecidableEq

/-- One call of the sync loop. -/
inductive Op where
  | listPVs : Op
  | getPV : (pvName : String) → Op
  | lookupPVsByPath : (pvName path : String) → Op
  | isRunning : (pvName : String) → Op
  | removeEntry : (pvName : String) → Op
  | spawnCleaner : CleanerWork → Op
  | isCleaningJobRunning : (pvName : String) → Op
  | getJob : (jobName : String) → Op
  | deleteJob : (jobName namespaceName : String) → Op
  | createJob : Job → Op
  | createPV : PersistentVolume → Op
  | deletePV : (pvName : String) → Op
  | isDir : (path : String) → Op
  | isBlock : (path : String) → Op
  | readDir : (path : String) → Op
  | listMounts : Op
  | getBlockCapacityByte : (path : String) → Op
  | getFsCapacityByte : (hostPath mountPath : String) → Op
  | getStorageClass : (name : String) → Op
  | rangeDiscoveryMap : GoMap MountConfig → Op
  | now : Op
  | report : Report → Op
  | setReady : Bool → Op
  | crash : (reason : String) → Op

/-- The reply type of each call; a crash never returns. -/
def Op.Reply : Op → Type
  | .listPVs => List PersistentVolume
  | .getPV _ => Option PersistentVolume
  | .lookupPVsByPath _ _ => List String
  | .isRunning _ => Bool
  | .removeEntry _ => Except String (CleanupState × Option Nat)
  | .spawnCleaner _ => Except String Unit
  | .isCleaningJobRunning _ => Bool
  | .getJob _ => Except ApiError Job
  | .deleteJob _ _ => Except ApiError Unit
  | .createJob _ => Except ApiError Unit
  | .createPV _ => Except ApiError Unit
  | .deletePV _ => Except ApiError Unit
  | .isDir _ => Except String Bool
  | .isBlock _ => Except String Bool
  | .readDir _ => Except String (List String)
  | .listMounts => Except String (List String)
  | .getBlockCapacityByte _ => Except String Int
  | .getFsCapacityByte _ _ => Except String Int
  | .getStorageClass _ => Except String StorageClass
  | .rangeDiscoveryMap _ => List (String × MountConfig)
  | .now => Nat
  | .report _ => Unit
  | .setReady _ => Unit
  | .crash _ => Empty

/-- The signature of sync-loop programs. -/
abbrev syncSignature : Interleaving.Signature where
  Op := Op
  Reply := Op.Reply

/-- A routine of the sync loop. -/
abbrev Routine (α : Type) := Interleaving.Program syncSignature α

/-- Make one call of the sync loop. -/
def perform (op : Op) : Routine op.Reply :=
  @Interleaving.Program.perform syncSignature op

/-- A nil dereference or another run-time panic. -/
def crash {α : Type} (reason : String) : Routine α :=
  .call (Op.crash reason) fun impossible : Empty => nomatch impossible

/-- The calls that neither read nor write cleanup status, PVs, or jobs. -/
def Op.Probing : Op → Prop
  | .isDir _ | .isBlock _ | .readDir _ | .listMounts => True
  | .getBlockCapacityByte _ | .getFsCapacityByte _ _ => True
  | .getStorageClass _ | .rangeDiscoveryMap _ | .now => True
  | .report _ | .setReady _ | .crash _ => True
  | _ => False

/-- The name of the PV that a call creates, if it creates one. -/
def Op.createdName : Op → Option String
  | .createPV pv => some pv.name
  | _ => none

end LocalProvisioner
