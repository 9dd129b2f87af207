import LocalProvisioner.BinaryRounding
import LocalProvisioner.Deleter
import LocalProvisioner.GlobPattern

namespace LocalProvisioner

/-!
# The discoverer

`DiscoverLocalVolumes` walks the configured classes in some order, reads the
discovery directory of each one, and creates a PV for every file that has
none, whose path no cached PV uses, and that is not being cleaned.  Every exit
of the source's loop body is kept, with the error it adds.
-/

/-- A discoverer: the runtime configuration and what is derived from it once. -/
structure Discoverer extends RuntimeConfig where
  labels : GoMap String
  nodeSelector : NodeSelector
  ownerReference : OwnerReference

/-- `generateOwnerReference`. -/
def generateOwnerReference (node : Node) : Except String OwnerReference :=
  if node.name = "" then
    .error "Node does not have name"
  else if node.uid = "" then
    .error "Node does not have UID"
  else
    .ok {
      kind := "Node"
      apiVersion := "v1"
      name := node.name
      uid := node.uid
    }

/-- `generateNodeSelector`; a node without labels is decoded with a nil map. -/
def generateNodeSelector (node : Node) : Except String NodeSelector :=
  if node.labels.entries = [] then
    .error "Node does not have labels"
  else
    match node.labels.lookup hostnameLabel with
    | none =>
        .error ("Node does not have expected label " ++ hostnameLabel)
    | some nodeValue =>
        .ok {
          nodeSelectorTerms := [{
            matchExpressions := [{
              key := hostnameLabel
              operator := .opIn
              values := [nodeValue]
            }]
          }]
        }

/-- The labels of every PV: selected node labels, then configured ones. -/
def labelsForPVs (runtime : RuntimeConfig) : GoMap String :=
  let fromNode :=
    runtime.nodeLabelsForPV.foldl
      (fun (labels : GoMap String) labelName =>
        match runtime.node.labels.lookup labelName with
        | none => labels
        | some value => labels.insert labelName value)
      ∅
  runtime.labelsForPV.entries.foldl
    (fun (labels : GoMap String) label => labels.insert label.1 label.2)
    fromNode

/-- `NewDiscoverer`. -/
def newDiscoverer (runtime : RuntimeConfig) : Except String Discoverer :=
  match generateOwnerReference runtime.node with
  | .error err => .error ("Failed to generate owner reference: " ++ err)
  | .ok ownerReference =>
      match generateNodeSelector runtime.node with
      | .error err => .error ("Failed to generate node selector: " ++ err)
      | .ok nodeSelector =>
          .ok {
            runtime with
            labels := labelsForPVs runtime
            nodeSelector := nodeSelector
            ownerReference := ownerReference
          }

/-- A discoverer runs with the configuration it was made from. -/
theorem toRuntimeConfig_newDiscoverer
    {runtime : RuntimeConfig}
    {discoverer : Discoverer}
    (made : newDiscoverer runtime = .ok discoverer) :
    discoverer.toRuntimeConfig = runtime := by
  unfold newDiscoverer at made
  split at made
  · cases made
  · split at made
    · cases made
    · cases made
      rfl

/-- `generatePVName`. -/
def generatePVName (file node storageClass : String) : String :=
  "local-pv-" ++ hexadecimal
    (fnv32a (utf8Bytes file ++ utf8Bytes node ++ utf8Bytes storageClass))

/-- `roundDownCapacityPretty`. -/
def roundDownCapacityPretty (capacityBytes : Int) : Int :=
  let gib : Int := 1024 * 1024 * 1024
  let mib : Int := 1024 * 1024
  if 10 ≤ capacityBytes.tdiv gib then
    capacityBytes.tdiv gib * gib
  else if 10 ≤ capacityBytes.tdiv mib then
    capacityBytes.tdiv mib * mib
  else
    capacityBytes

/-- `common.LocalPVConfig`. -/
structure LocalPVConfig where
  name : String
  hostPath : String
  capacity : Int
  storageClass : String
  reclaimPolicy : ReclaimPolicy
  provisionerName : String
  useAlphaAPI : Bool
  affinityAnn : String
  nodeAffinity : Option VolumeNodeAffinity
  volumeMode : VolumeMode
  accessMode : String
  mountOptions : List String
  fsType : Option String
  labels : GoMap String
  setPVOwnerRef : Bool
  ownerReference : OwnerReference

/-- `CreateLocalPVSpec`. -/
def createLocalPVSpec (config : LocalPVConfig) : PersistentVolume where
  name := config.name
  uid := 0
  labels := config.labels
  annotations :=
    let provisionedBy : GoMap String :=
      AList.insert annProvisionedBy config.provisionerName ∅
    if config.useAlphaAPI then
      provisionedBy.insert alphaNodeAffinityAnnotation config.affinityAnn
    else
      provisionedBy
  ownerReferences :=
    if config.setPVOwnerRef then [config.ownerReference] else []
  deletionTimestamp := none
  reclaimPolicy := config.reclaimPolicy
  capacity := some config.capacity
  localSource := some { path := config.hostPath, fsType := config.fsType }
  accessModes :=
    [if config.accessMode = "" then "ReadWriteOnce" else config.accessMode]
  storageClassName := config.storageClass
  volumeMode := some config.volumeMode
  mountOptions := config.mountOptions
  nodeAffinity := if config.useAlphaAPI then none else config.nodeAffinity
  claimRef := none
  phase := .unset

/-- What the discoverer has found out about a file by the time it makes a PV. -/
structure Candidate where
  file : String
  storageClass : String
  config : MountConfig
  reclaimPolicy : ReclaimPolicy
  startTime : Nat

namespace Candidate

/-- The path of the file inside the provisioner's container. -/
def filePath (candidate : Candidate) : String :=
  UnixPath.join [candidate.config.mountDir, candidate.file]

/-- The path of the file on the host, which becomes the PV's local path. -/
def outsidePath (candidate : Candidate) : String :=
  UnixPath.join [candidate.config.hostDir, candidate.file]

/-- The name a PV for the file gets on a node. -/
def pvName (candidate : Candidate) (node : Node) : String :=
  generatePVName candidate.file node.name candidate.storageClass

/-- The access mode of a PV for the file. -/
def desiredAccessMode (candidate : Candidate) : String :=
  if candidate.config.accessMode = "" then
    "ReadWriteOnce"
  else
    candidate.config.accessMode

/-- The volume mode of a PV for the file. -/
def desireVolumeMode (candidate : Candidate) : VolumeMode :=
  .ofString candidate.config.volumeMode

end Candidate

/-- The PV object that `createPV` sends to the API server. -/
def localPV
    (discoverer : Discoverer)
    (candidate : Candidate)
    (mountOptions : List String)
    (capacityByte : Int)
    (affinityAnn : String) :
    PersistentVolume :=
  createLocalPVSpec {
    name := candidate.pvName discoverer.node
    hostPath := candidate.outsidePath
    capacity := roundDownCapacityPretty capacityByte
    storageClass := candidate.storageClass
    reclaimPolicy := candidate.reclaimPolicy
    provisionerName := discoverer.name
    useAlphaAPI := discoverer.useAlphaAPI
    affinityAnn := affinityAnn
    nodeAffinity := some {
      required := some {
        nodeSelectorTerms :=
          discoverer.nodeSelector.nodeSelectorTerms ++
            candidate.config.selector
      }
    }
    volumeMode := candidate.desireVolumeMode
    accessMode := candidate.desiredAccessMode
    mountOptions := mountOptions
    fsType :=
      if candidate.config.fsType = "" then
        none
      else
        some candidate.config.fsType
    labels := discoverer.labels
    setPVOwnerRef := discoverer.setPVOwnerRef
    ownerReference := discoverer.ownerReference
  }

/-- The alpha affinity annotation, empty unless the alpha API is used. -/
def generateAffinityAnn
    (discoverer : Discoverer)
    (config : MountConfig) :
    Except String String :=
  if discoverer.useAlphaAPI then
    match discoverer.marshalAffinity {
        nodeSelectorTerms :=
          discoverer.nodeSelector.nodeSelectorTerms ++ config.selector } with
    | .error err =>
        .error ("error converting volume affinity to alpha annotation: " ++
          err)
    | .ok annotation => .ok annotation
  else
    .ok ""

/-- `createPV`. -/
def createPV
    (discoverer : Discoverer)
    (candidate : Candidate)
    (mountOptions : List String)
    (capacityByte : Int) :
    Routine (Except String Unit) :=
  match generateAffinityAnn discoverer candidate.config with
  | .error err => pure (.error err)
  | .ok affinityAnn => do
      match ← perform (.createPV
          (localPV discoverer candidate mountOptions capacityByte
            affinityAnn)) with
      | .error err =>
          pure (.error ("error creating PV " ++
            quoted (candidate.pvName discoverer.node) ++
            " for volume at " ++ quoted candidate.outsidePath ++ ": " ++
            err.text))
      | .ok _ =>
          let _ ← perform (.report
            (.discovered candidate.desireVolumeMode.text
              candidate.startTime))
          pure (.ok ())

/-- `createPV` sends this PV to the API server, if any. -/
theorem localPV_of_mem_calls_createPV
    {discoverer : Discoverer}
    {candidate : Candidate}
    {mountOptions : List String}
    {capacityByte : Int}
    {answer : (op : Op) → Option op.Reply}
    {pv : PersistentVolume}
    (created :
      .createPV pv ∈
        (createPV discoverer candidate mountOptions capacityByte).calls
          answer) :
    ∃ affinityAnn,
      generateAffinityAnn discoverer candidate.config = .ok affinityAnn ∧
        pv = localPV discoverer candidate mountOptions capacityByte
          affinityAnn := by
  have only :
      Interleaving.Program.Only
        (fun op : Op =>
          ∀ pv,
            op = .createPV pv →
            ∃ affinityAnn,
              generateAffinityAnn discoverer candidate.config =
                  .ok affinityAnn ∧
                pv = localPV discoverer candidate mountOptions capacityByte
                  affinityAnn)
        (createPV discoverer candidate mountOptions capacityByte) := by
    unfold createPV
    cases generateAffinityAnn discoverer candidate.config with
    | error err => exact .done
    | ok affinityAnn =>
        refine .call ?_ ?_
        · intro pv same
          cases same
          exact ⟨affinityAnn, rfl, rfl⟩
        · intro (reply : Except ApiError Unit)
          rcases reply with err | _
          · exact .done
          · refine .call ?_ fun _ => .done
            intro pv impossible
            cases impossible
  exact only.of_mem_calls created pv rfl

/-- What walking over some files adds up to. -/
structure Tally where
  discoErrors : List String := []
  totalCapacityBlockBytes : Int64 := 0
  totalCapacityFSBytes : Int64 := 0
  deriving Repr, DecidableEq

namespace Tally

/-- The tally of a file that only adds an error. -/
def failed (err : String) : Tally :=
  { discoErrors := [err] }

/-- Append the tally of one more file. -/
def add (total file : Tally) : Tally where
  discoErrors := total.discoErrors ++ file.discoErrors
  totalCapacityBlockBytes :=
    total.totalCapacityBlockBytes + file.totalCapacityBlockBytes
  totalCapacityFSBytes :=
    total.totalCapacityFSBytes + file.totalCapacityFSBytes

/-- The errors that the outcome of `createPV` adds. -/
def errorsOf : Except String Unit → List String
  | .ok _ => []
  | .error err => [err]

end Tally

/-- `getReclaimPolicyFromStorageClass`. -/
def getReclaimPolicyFromStorageClass
    (name : String) :
    Routine (Except String ReclaimPolicy) := do
  match ← perform (.getStorageClass name) with
  | .error err => pure (.error err)
  | .ok storageClass =>
      pure (.ok (storageClass.reclaimPolicy.getD .delete))

/-- `getMountOptionsFromStorageClass`. -/
def getMountOptionsFromStorageClass
    (name : String) :
    Routine (Except String (List String)) := do
  match ← perform (.getStorageClass name) with
  | .error err => pure (.error err)
  | .ok storageClass => pure (.ok storageClass.mountOptions)

/-- The block branch of the capacity switch. -/
def provisionBlock
    (discoverer : Discoverer)
    (candidate : Candidate)
    (mountOptions : List String) :
    Routine Tally := do
  match ← perform (.getBlockCapacityByte candidate.filePath) with
  | .error err =>
      pure (.failed ("path " ++ quoted candidate.filePath ++
        " block stats error: " ++ err))
  | .ok capacityByte =>
      let outcome ← createPV discoverer candidate mountOptions capacityByte
      pure {
        discoErrors := Tally.errorsOf outcome
        totalCapacityBlockBytes := Int64.ofInt capacityByte
      }

/-- The filesystem branch of the capacity switch, on Linux. -/
def provisionFilesystem
    (discoverer : Discoverer)
    (candidate : Candidate)
    (mountPoints : List String)
    (mountOptions : List String) :
    Routine Tally :=
  if candidate.desireVolumeMode = .block then
    pure (.failed ("path " ++ quoted candidate.filePath ++
      " of filesystem mode cannot be used to create block volume"))
  else if candidate.filePath ∉ mountPoints then
    pure (.failed ("path " ++ quoted candidate.filePath ++
      " is not a valid mount point: mountPath=" ++
      quoted candidate.filePath ++ " wasn't found in the /proc/mounts file"))
  else do
    match ← perform
        (.getFsCapacityByte candidate.outsidePath candidate.filePath) with
    | .error err =>
        pure (.failed ("path " ++ quoted candidate.filePath ++
          " fs stats error: " ++ err))
    | .ok capacityByte =>
        let outcome ← createPV discoverer candidate mountOptions capacityByte
        pure {
          discoErrors := Tally.errorsOf outcome
          totalCapacityFSBytes := Int64.ofInt capacityByte
        }

/-- The loop body after the cleanup status has been removed. -/
def provision
    (discoverer : Discoverer)
    (candidate : Candidate)
    (mountPoints : List String)
    (volMode : VolumeMode) :
    Routine Tally := do
  match ← getMountOptionsFromStorageClass candidate.storageClass with
  | .error err =>
      pure (.failed ("failed to get mount options from storage class " ++
        candidate.storageClass ++ ": " ++ err))
  | .ok mountOptions =>
      match volMode with
      | .block => provisionBlock discoverer candidate mountOptions
      | .filesystem =>
          provisionFilesystem discoverer candidate mountPoints mountOptions
      | .other mode =>
          pure (.failed ("path " ++ quoted candidate.filePath ++
            " has unexpected volume type " ++ quoted mode))

/-- The loop body from the in-progress check on. -/
def provisionUnlessCleaning
    (discoverer : Discoverer)
    (candidate : Candidate)
    (mountPoints : List String)
    (volMode : VolumeMode) :
    Routine Tally := do
  let pvName := candidate.pvName discoverer.node
  let usejob := if volMode = .block then discoverer.useJobForCleaning else false
  if ← inProgress pvName usejob then
    pure {}
  else
    match ← removeStatus discoverer.toRuntimeConfig pvName usejob with
    | .error _ => pure {}
    | .ok _ => provision discoverer candidate mountPoints volMode

/-- The loop body for a file whose PV is in the cache. -/
def skipExisting
    (pv : PersistentVolume)
    (pvName filePath : String)
    (volMode : VolumeMode) :
    Routine Tally :=
  if pv.volumeMode = some .block ∧ volMode = .filesystem then do
    let err :=
      "incorrect Volume Mode: PV " ++ quoted pvName ++
        " requires block mode but path " ++ quoted filePath ++
        " was in fs mode"
    let _ ← perform (.report (.event pv.name "VolumeFailedDelete" err))
    pure (.failed err)
  else
    pure {}

/-- The loop body of `discoverVolumesAtPath` for a file that matches. -/
def discoverFile
    (discoverer : Discoverer)
    (storageClass : String)
    (config : MountConfig)
    (reclaimPolicy : ReclaimPolicy)
    (mountPoints : List String)
    (file : String) :
    Routine Tally := do
  let startTime ← perform .now
  let candidate : Candidate :=
    { file, storageClass, config, reclaimPolicy, startTime }
  match ← getVolumeMode candidate.filePath with
  | .error err => pure (.failed err)
  | .ok volMode =>
      let pvName := candidate.pvName discoverer.node
      match ← perform (.getPV pvName) with
      | some pv => skipExisting pv pvName candidate.filePath volMode
      | none =>
          match ← perform
              (.lookupPVsByPath pvName candidate.outsidePath) with
          | _ :: _ => pure {}
          | [] =>
              provisionUnlessCleaning discoverer candidate mountPoints
                volMode

/-- The pattern loop: does some nonempty pattern match the file name? -/
def matchesSome (file : String) : List String → Except String Bool
  | [] => .ok false
  | pattern :: rest =>
      if pattern = "" then
        matchesSome file rest
      else
        match GlobPattern.fileMatch pattern file with
        | .error err => .error err
        | .ok true => .ok true
        | .ok false => matchesSome file rest

/-- A class without a name pattern takes every file. -/
def selectsFile (config : MountConfig) (file : String) : Except String Bool :=
  if config.namePattern = "" then
    .ok true
  else
    matchesSome file
      ((config.namePattern.toList.splitOn ',').map String.ofList)

/-- The file loop of `discoverVolumesAtPath`; a malformed pattern aborts it. -/
def discoverFiles
    (discoverer : Discoverer)
    (storageClass : String)
    (config : MountConfig)
    (reclaimPolicy : ReclaimPolicy)
    (mountPoints : List String) :
    List String → Tally → Routine (Except String Tally)
  | [], total => pure (.ok total)
  | file :: rest, total =>
      match selectsFile config file with
      | .error err => pure (.error err)
      | .ok false =>
          discoverFiles discoverer storageClass config reclaimPolicy
            mountPoints rest total
      | .ok true => do
          let found ← discoverFile discoverer storageClass config
            reclaimPolicy mountPoints file
          discoverFiles discoverer storageClass config reclaimPolicy
            mountPoints rest (total.add found)

/-- The conversion of an `int64` to `float64`. -/
def float64 (bytes : Int64) : Int :=
  BinaryRounding.roundInt 53 bytes.toInt

/-- The end of `discoverVolumesAtPath`: metrics, then the collected errors. -/
def concludeDiscovery (total : Tally) : Routine (Except String Unit) := do
  let _ ← perform
    (.report (.capacity .block (float64 total.totalCapacityBlockBytes)))
  let _ ← perform
    (.report (.capacity .filesystem (float64 total.totalCapacityFSBytes)))
  if total.discoErrors = [] then
    pure (.ok ())
  else
    pure (.error (toString total.discoErrors.length ++
      " error(s) while discovering volumes: [" ++
      " ".intercalate total.discoErrors ++ "]"))

/-- The part of `discoverVolumesAtPath` after the policy has been read. -/
def discoverWithPolicy
    (discoverer : Discoverer)
    (storageClass : String)
    (config : MountConfig)
    (reclaimPolicy : ReclaimPolicy) :
    Routine (Except String Unit) :=
  if reclaimPolicy ≠ .retain ∧ reclaimPolicy ≠ .delete then
    pure (.error ("unsupported ReclaimPolicy " ++
      quoted reclaimPolicy.text ++ " from storage class " ++
      quoted storageClass ++ ", supported policy are Retain and Delete"))
  else do
    match ← perform (.readDir config.mountDir) with
    | .error err => pure (.error ("error reading directory: " ++ err))
    | .ok files =>
        match ← perform .listMounts with
        | .error err =>
            pure (.error ("error retrieving mountpoints: " ++ err))
        | .ok mountPoints =>
            match ← discoverFiles discoverer storageClass config
                reclaimPolicy mountPoints files {} with
            | .error err => pure (.error err)
            | .ok total => concludeDiscovery total

/-- `discoverVolumesAtPath`. -/
def discoverVolumesAtPath
    (discoverer : Discoverer)
    (storageClass : String)
    (config : MountConfig) :
    Routine (Except String Unit) := do
  match ← getReclaimPolicyFromStorageClass storageClass with
  | .error err =>
      pure (.error ("failed to get ReclaimPolicy from storage class " ++
        quoted storageClass ++ ": " ++ err))
  | .ok reclaimPolicy =>
      discoverWithPolicy discoverer storageClass config reclaimPolicy

/-- The class loop of `DiscoverLocalVolumes`. -/
def discoverClasses
    (discoverer : Discoverer) :
    List (String × MountConfig) → Bool → Routine Bool
  | [], readyz => pure readyz
  | (storageClass, config) :: rest, readyz => do
      match ← discoverVolumesAtPath discoverer storageClass config with
      | .error _ => discoverClasses discoverer rest false
      | .ok _ => discoverClasses discoverer rest readyz

/-- `DiscoverLocalVolumes`. -/
def discoverLocalVolumes (discoverer : Discoverer) : Routine Unit := do
  let classes ← perform (.rangeDiscoveryMap discoverer.discoveryMap)
  let readyz ← discoverClasses discoverer classes true
  perform (.setReady readyz)

/-- One pass of the sync loop. -/
def syncPass (discoverer : Discoverer) : Routine Unit := do
  deletePVs discoverer.toRuntimeConfig
  discoverLocalVolumes discoverer

end LocalProvisioner
