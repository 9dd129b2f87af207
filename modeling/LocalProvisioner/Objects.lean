import Mathlib.Data.List.AList

namespace LocalProvisioner

/-!
# Cluster objects and configuration

The Kubernetes objects the provisioner reads and writes, restricted to the
fields its code uses, and the configuration of one sync-loop instance.  A
string type of the API that has named constants is an inductive type with one
constructor for every other string.
-/

/-- A Go map with string keys.  Its entry order stands for one iteration order. -/
abbrev GoMap (Value : Type) := AList fun _ : String => Value

/-- The entries after `delete`. -/
theorem entries_erase {α : Type} (map : GoMap α) (key : String) :
    (map.erase key).entries = map.entries.kerase key :=
  rfl

/-- Lookups after an assignment. -/
theorem lookup_assign
    {α : Type}
    (map : GoMap α)
    (key : String)
    (value : α)
    (other : String) :
    (map.insert key value).lookup other =
      if other = key then some value else map.lookup other := by
  split
  · rename_i same
    rw [same, AList.lookup_insert]
  · rename_i apart
    exact AList.lookup_insert_ne apart

/-- Lookups after `delete`. -/
theorem lookup_delete
    {α : Type}
    (map : GoMap α)
    (key other : String) :
    (map.erase key).lookup other =
      if other = key then none else map.lookup other := by
  split
  · rename_i same
    rw [same, AList.lookup_erase]
  · rename_i apart
    exact AList.lookup_erase_ne apart

/-- A map after all entries of another one have been assigned to it. -/
theorem lookup_foldl_assign
    {α : Type}
    (map other : GoMap α)
    (key : String) :
    (other.entries.foldl (fun map entry => map.insert entry.1 entry.2)
        map).lookup key =
      (other.lookup key).or (map.lookup key) := by
  obtain ⟨entries, distinct⟩ := other
  change _ = (entries.dlookup key).or (map.lookup key)
  induction entries generalizing map with
  | nil => rfl
  | cons entry rest inductionHypothesis =>
      obtain ⟨apart, distinctRest⟩ := List.nodupKeys_cons.mp distinct
      rw [List.foldl_cons, inductionHypothesis _ distinctRest, lookup_assign]
      by_cases same : key = entry.1
      · subst same
        rw [List.dlookup_cons_eq, List.dlookup_eq_none.mpr apart, if_pos rfl]
        rfl
      · rw [List.dlookup_cons_ne rest entry same, if_neg same]

/-- `v1.PersistentVolumeMode`. -/
inductive VolumeMode where
  | block : VolumeMode
  | filesystem : VolumeMode
  | other : String → VolumeMode
  deriving Repr, DecidableEq

namespace VolumeMode

/-- The conversion `v1.PersistentVolumeMode(s)`. -/
def ofString (value : String) : VolumeMode :=
  if value = "Block" then
    .block
  else if value = "Filesystem" then
    .filesystem
  else
    .other value

/-- The API string of a volume mode. -/
def text : VolumeMode → String
  | .block => "Block"
  | .filesystem => "Filesystem"
  | .other value => value

end VolumeMode

/-- `v1.PersistentVolumeReclaimPolicy`. -/
inductive ReclaimPolicy where
  | retain : ReclaimPolicy
  | recycle : ReclaimPolicy
  | delete : ReclaimPolicy
  | other : String → ReclaimPolicy
  deriving Repr, DecidableEq

/-- The API string of a reclaim policy. -/
def ReclaimPolicy.text : ReclaimPolicy → String
  | .retain => "Retain"
  | .recycle => "Recycle"
  | .delete => "Delete"
  | .other value => value

/-- `v1.PersistentVolumePhase`; a PV built in memory has none yet. -/
inductive VolumePhase where
  | unset : VolumePhase
  | pending : VolumePhase
  | available : VolumePhase
  | bound : VolumePhase
  | released : VolumePhase
  | failed : VolumePhase
  deriving Repr, DecidableEq

/-- `v1.NodeSelectorOperator`. -/
inductive SelectorOperator where
  | opIn : SelectorOperator
  | opNotIn : SelectorOperator
  | opExists : SelectorOperator
  | opDoesNotExist : SelectorOperator
  | opGt : SelectorOperator
  | opLt : SelectorOperator
  deriving Repr, DecidableEq

/-- `v1.NodeSelectorRequirement`: one match expression. -/
structure NodeSelectorRequirement where
  key : String
  operator : SelectorOperator
  values : List String
  deriving Repr, DecidableEq

/-- `v1.NodeSelectorTerm`: a conjunction of match expressions. -/
structure NodeSelectorTerm where
  matchExpressions : List NodeSelectorRequirement
  deriving Repr, DecidableEq

/-- `v1.NodeSelector`: a disjunction of terms. -/
structure NodeSelector where
  nodeSelectorTerms : List NodeSelectorTerm
  deriving Repr, DecidableEq

/-- `v1.VolumeNodeAffinity`. -/
structure VolumeNodeAffinity where
  required : Option NodeSelector
  deriving Repr, DecidableEq

/-- `v1.LocalVolumeSource`. -/
structure LocalVolumeSource where
  path : String
  fsType : Option String
  deriving Repr, DecidableEq

/-- The claim a PV is bound to. -/
structure ObjectReference where
  namespaceName : String
  name : String
  uid : Nat
  deriving Repr, DecidableEq

/-- `metav1.OwnerReference`. -/
structure OwnerReference where
  kind : String
  apiVersion : String
  name : String
  uid : String
  deriving Repr, DecidableEq

/-- `v1.PersistentVolume`. -/
structure PersistentVolume where
  name : String
  uid : Nat
  labels : GoMap String
  annotations : GoMap String
  ownerReferences : List OwnerReference
  deletionTimestamp : Option Nat
  reclaimPolicy : ReclaimPolicy
  capacity : Option Int
  localSource : Option LocalVolumeSource
  accessModes : List String
  storageClassName : String
  volumeMode : Option VolumeMode
  mountOptions : List String
  nodeAffinity : Option VolumeNodeAffinity
  claimRef : Option ObjectReference
  phase : VolumePhase
  deriving DecidableEq

/-- An available local PV, of which the samples are variants. -/
def samplePV : PersistentVolume where
  name := "local-pv-1"
  uid := 1
  labels := ∅
  annotations := ∅
  ownerReferences := []
  deletionTimestamp := none
  reclaimPolicy := .delete
  capacity := none
  localSource := some { path := "/mnt/disks/volume", fsType := none }
  accessModes := []
  storageClassName := "fast"
  volumeMode := none
  mountOptions := []
  nodeAffinity := none
  claimRef := none
  phase := .available

/-- The local path of a PV, if it is a local volume. -/
def PersistentVolume.localPath (pv : PersistentVolume) : Option String :=
  pv.localSource.map LocalVolumeSource.path

/-- `v1.Toleration`. -/
structure Toleration where
  key : String
  operator : String
  value : String
  effect : String
  tolerationSeconds : Option Int
  deriving Repr, DecidableEq

/-- `v1.EnvVar` with a literal value. -/
structure EnvVar where
  name : String
  value : String
  deriving Repr, DecidableEq

/-- A host-path volume of a pod. -/
structure HostPathVolume where
  name : String
  path : String
  deriving Repr, DecidableEq

/-- `v1.VolumeMount`. -/
structure VolumeMount where
  name : String
  mountPath : String
  deriving Repr, DecidableEq

/-- The labels that `NewCleanupJob` puts on a job. -/
structure JobLabels where
  nodeName : String
  pv : String
  pvUUID : Nat
  deriving Repr, DecidableEq

/-- `batch_v1.Job` with the single cleaning container of its pod template. -/
structure Job where
  name : String
  namespaceName : String
  uid : Nat
  deletionTimestamp : Option Nat
  labels : JobLabels
  device : String
  startTime : Option Nat
  containerName : String
  image : String
  command : List String
  env : List EnvVar
  volumeMounts : List VolumeMount
  volumes : List HostPathVolume
  nodeSelector : String
  tolerations : List Toleration
  succeeded : Int
  deriving Repr, DecidableEq

/-- The part of `storagev1.StorageClass` that discovery reads. -/
structure StorageClass where
  reclaimPolicy : Option ReclaimPolicy
  mountOptions : List String
  deriving Repr, DecidableEq

/-- `v1.Node`. -/
structure Node where
  name : String
  uid : String
  labels : GoMap String
  deriving DecidableEq

/-- `common.MountConfig`: how one storage class is discovered and cleaned. -/
structure MountConfig where
  hostDir : String
  mountDir : String
  blockCleanerCommand : List String
  volumeMode : String
  accessMode : String
  fsType : String
  namePattern : String
  selector : List NodeSelectorTerm
  deriving Repr, DecidableEq

/--
`common.RuntimeConfig`: what one instance of the sync loop runs with.
`marshalAffinity` is `json.Marshal` on node affinities, which stays abstract.
-/
structure RuntimeConfig where
  name : String
  node : Node
  discoveryMap : GoMap MountConfig
  nodeLabelsForPV : List String
  labelsForPV : GoMap String
  useAlphaAPI : Bool
  useJobForCleaning : Bool
  useNodeNameOnly : Bool
  setPVOwnerRef : Bool
  namespaceName : String
  jobContainerImage : String
  jobTolerations : List Toleration
  marshalAffinity : NodeSelector → Except String String

/-- `v1.LabelHostname`, used as `common.NodeLabelKey` and `common.NodeNameLabel`. -/
def hostnameLabel : String :=
  "kubernetes.io/hostname"

/-- `common.AnnProvisionedBy`. -/
def annProvisionedBy : String :=
  "pv.kubernetes.io/provisioned-by"

/-- `common.AlphaStorageNodeAffinityAnnotation`. -/
def alphaNodeAffinityAnnotation : String :=
  "volume.alpha.kubernetes.io/node-affinity"

/-- `common.LocalPVEnv`. -/
def localPVEnv : String :=
  "LOCAL_PV_BLKDEVICE"

/-- `common.LocalFilesystemEnv`. -/
def localFilesystemEnv : String :=
  "LOCAL_PV_FILESYSTEM"

/-- The quoting of the `%q` verb for text without special characters. -/
def quoted (text : String) : String :=
  "\"" ++ text ++ "\""

/-- The FNV-1a 32-bit hash of a byte sequence. -/
def fnv32a (bytes : List UInt8) : Nat :=
  bytes.foldl
    (fun hash byte => (hash ^^^ byte.toNat) * 16777619 % 4294967296)
    2166136261

/-- Lowercase hexadecimal digits, the `%x` verb. -/
def hexadecimal (value : Nat) : String :=
  String.ofList (Nat.toDigits 16 value)

/-- The UTF-8 bytes of a string. -/
def utf8Bytes (text : String) : List UInt8 :=
  text.toList.flatMap String.utf8EncodeChar

end LocalProvisioner
