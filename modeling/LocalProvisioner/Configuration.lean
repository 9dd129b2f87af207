import LocalProvisioner.Objects
import LocalProvisioner.SharedSlices
import Mathlib.Data.Finmap

namespace LocalProvisioner

/-!
# Loading the configuration

`LoadProvisionerConfigs` decodes the files of the mounted config map into an
existing `ProvisionerConfiguration` and then checks every storage class and
fills in its defaults.  Decoding leaves fields that the files do not mention
as they are, and decodes into existing maps key by key.  It decodes into an
existing slice element by element: an element is decoded over what the array
has at its index, be it before or after the end of the slice, and only an array
that is full is replaced.  Maps and arrays are held by reference: a copy of the
struct shares them.

Reading and parsing the files is not modelled.  A `ConfigDocument` is what the
decoder finds in them.
-/

/-- A `MountConfig` as it is decoded, where nil and empty slices differ. -/
structure MountSettings where
  hostDir : String := ""
  mountDir : String := ""
  blockCleanerCommand : Option (List String) := none
  volumeMode : String := ""
  accessMode : String := ""
  fsType : String := ""
  namePattern : String := ""
  selector : Option (List NodeSelectorTerm) := none
  deriving Repr, DecidableEq

/-- The class configuration that the sync loop reads. -/
def MountSettings.toMountConfig (settings : MountSettings) : MountConfig where
  hostDir := settings.hostDir
  mountDir := settings.mountDir
  blockCleanerCommand := settings.blockCleanerCommand.getD []
  volumeMode := settings.volumeMode
  accessMode := settings.accessMode
  fsType := settings.fsType
  namePattern := settings.namePattern
  selector := settings.selector.getD []

/-- `DefaultBlockCleanerCommand`. -/
def defaultBlockCleanerCommand : String :=
  "/scripts/quick_reset.sh"

/-- `DefaultVolumeMode`. -/
def defaultVolumeMode : String :=
  "Filesystem"

/-- `DefaultNamePattern`. -/
def defaultNamePattern : String :=
  "*"

/-- `normalizePath` on Unix. -/
def normalizePath (path : String) : String :=
  path

/-- The defaults of a class; the body of the loop without its checks. -/
def MountSettings.withDefaults (config : MountSettings) : MountSettings :=
  { config with
    blockCleanerCommand :=
      some (config.blockCleanerCommand.getD [defaultBlockCleanerCommand])
    mountDir := normalizePath config.mountDir
    hostDir := normalizePath config.hostDir
    volumeMode :=
      if config.volumeMode = "" then defaultVolumeMode else config.volumeMode
    namePattern :=
      if config.namePattern = "" then
        defaultNamePattern
      else
        config.namePattern }

/-- The body of the loop of `ConfigMapDataToVolumeConfig`. -/
def configureClass
    (className : String)
    (config : MountSettings) :
    Except String MountSettings :=
  if config.blockCleanerCommand = some [] then
    .error ("Invalid empty block cleaner command for class " ++ className)
  else if config.mountDir = "" ∨ config.hostDir = "" then
    .error ("Storage Class " ++ className ++
      " is misconfigured, missing HostDir or MountDir parameter")
  else
    let configured := config.withDefaults
    match VolumeMode.ofString configured.volumeMode with
    | .block => .ok configured
    | .filesystem => .ok configured
    | .other mode => .error ("unsupported volume mode " ++ mode)

/-- The loop of `ConfigMapDataToVolumeConfig` over the classes of a map. -/
def configureClasses :
    List ((_ : String) × MountSettings) →
    GoMap MountSettings →
    Except String (GoMap MountSettings)
  | [], classes => .ok classes
  | ⟨className, config⟩ :: rest, classes =>
      match configureClass className config with
      | .error err => .error err
      | .ok configured =>
          configureClasses rest (classes.insert className configured)

/-- The fields of `ProvisionerConfiguration` that are held by value. -/
structure ConfigFlags where
  useAlphaAPI : Bool
  useJobForCleaning : Bool
  minResyncPeriod : Int
  useNodeNameOnly : Bool
  setPVOwnerRef : Bool
  removeNodeNotReadyTaint : Bool
  provisionerNotReadyNodeTaintKey : String
  deriving Repr, DecidableEq

/-- The fields of `ProvisionerConfiguration` other than maps; `none` is nil. -/
structure ConfigValues extends ConfigFlags where
  nodeLabelsForPV : Option (List String)
  jobTolerations : Option (List Toleration)
  deriving Repr, DecidableEq

/-- The fields of a `v1.Toleration` that an array holds by value. -/
structure TolerationTexts where
  key : String
  operator : String
  value : String
  effect : String
  deriving Repr, DecidableEq

/-- The toleration that an array holds, with the seconds that it points to. -/
def Toleration.ofStored (stored : TolerationTexts × Option Int) : Toleration where
  key := stored.1.key
  operator := stored.1.operator
  value := stored.1.value
  effect := stored.1.effect
  tolerationSeconds := stored.2

/--
`ProvisionerConfiguration`; maps are references, slices are the start of an
array, and `none` is nil.
-/
structure ProvisionerConfiguration where
  storageClassConfig : Option Nat
  labelsForPV : Option Nat
  nodeLabelsForPV : Option Slice
  jobTolerations : Option Slice
  flags : ConfigFlags
  deriving Repr, DecidableEq

/-- The maps and arrays that configurations refer to. -/
structure SharedMemory where
  classes : SharedCells (GoMap MountSettings)
  labels : SharedCells (GoMap String)
  nodeLabels : SliceMemory String Empty
  jobTolerations : SliceMemory TolerationTexts Int

/--
A toleration as the decoder finds it; a field is `none` if it is left as it is.
A null element leaves them all.
-/
structure TolerationDocument where
  key : Option String := none
  operator : Option String := none
  value : Option String := none
  effect : Option String := none
  tolerationSeconds : Option (Option Int) := none

/--
What the decoder finds in the files.  A field is `none` if it is left as it
is: if no file mentions it, or if it is null and its type has no nil.  A class
is decoded into a zero `MountConfig`, and a null label is `none`.
-/
structure ConfigDocument where
  storageClassMap : Option (Option (GoMap MountSettings)) := none
  labelsForPV : Option (Option (GoMap String)) := none
  nodeLabelsForPV : Option (Option (List (Option String))) := none
  useAlphaAPI : Option Bool := none
  useJobForCleaning : Option Bool := none
  jobTolerations : Option (Option (List TolerationDocument)) := none
  minResyncPeriod : Option Int := none
  useNodeNameOnly : Option Bool := none
  setPVOwnerRef : Option Bool := none
  removeNodeNotReadyTaint : Option Bool := none
  provisionerNotReadyNodeTaintKey : Option String := none

/-- Decoding into the fields held by value. -/
def ConfigDocument.decodeFlags
    (document : ConfigDocument)
    (flags : ConfigFlags) :
    ConfigFlags where
  useAlphaAPI := document.useAlphaAPI.getD flags.useAlphaAPI
  useJobForCleaning :=
    document.useJobForCleaning.getD flags.useJobForCleaning
  minResyncPeriod := document.minResyncPeriod.getD flags.minResyncPeriod
  useNodeNameOnly := document.useNodeNameOnly.getD flags.useNodeNameOnly
  setPVOwnerRef := document.setPVOwnerRef.getD flags.setPVOwnerRef
  removeNodeNotReadyTaint :=
    document.removeNodeNotReadyTaint.getD flags.removeNodeNotReadyTaint
  provisionerNotReadyNodeTaintKey :=
    document.provisionerNotReadyNodeTaintKey.getD
      flags.provisionerNotReadyNodeTaintKey

/-- Decoding into a label of an array. -/
def labelChange (label : Option String) : ElementChange String Empty where
  plain := fun earlier => label.getD earlier
  pointed := none

/-- Decoding into a toleration of an array. -/
def TolerationDocument.change (document : TolerationDocument) :
    ElementChange TolerationTexts Int where
  plain := fun earlier =>
    { key := document.key.getD earlier.key
      operator := document.operator.getD earlier.operator
      value := document.value.getD earlier.value
      effect := document.effect.getD earlier.effect }
  pointed := document.tolerationSeconds

/-- What is decoded into the labels. -/
def ConfigDocument.labelChanges (document : ConfigDocument) :
    Option (Option (List (ElementChange String Empty))) :=
  document.nodeLabelsForPV.map (Option.map (List.map labelChange))

/-- What is decoded into the tolerations. -/
def ConfigDocument.tolerationChanges (document : ConfigDocument) :
    Option (Option (List (ElementChange TolerationTexts Int))) :=
  document.jobTolerations.map (Option.map (List.map TolerationDocument.change))

/-- A label of an array before anything is decoded into it. -/
def blankLabel : String :=
  ""

/-- A toleration of an array before anything is decoded into it. -/
def blankToleration : TolerationTexts where
  key := ""
  operator := ""
  value := ""
  effect := ""

/-- Decoding into a field that holds a map: null, a new map, or key by key. -/
def decodeMap
    {Value : Type}
    (maps : SharedCells (GoMap Value))
    (reference : Option Nat) :
    Option (Option (GoMap Value)) → SharedCells (GoMap Value) × Option Nat
  | none => (maps, reference)
  | some none => (maps, none)
  | some (some entries) =>
      match reference with
      | none =>
          let allocated := maps.alloc entries
          (allocated.2, some allocated.1)
      | some existing =>
          (maps.write existing (entries ∪ maps.read existing), some existing)

/-- `ConfigMapDataToVolumeConfig` after parsing. -/
def configMapDataToVolumeConfig
    (document : ConfigDocument)
    (memory : SharedMemory)
    (provisionerConfig : ProvisionerConfiguration) :
    Except String (SharedMemory × ProvisionerConfiguration) :=
  let (classes, storageClassConfig) :=
    decodeMap memory.classes provisionerConfig.storageClassConfig
      document.storageClassMap
  let (labels, labelsForPV) :=
    decodeMap memory.labels provisionerConfig.labelsForPV document.labelsForPV
  let (nodeLabels, nodeLabelsForPV) :=
    memory.nodeLabels.assignSlice blankLabel provisionerConfig.nodeLabelsForPV
      document.labelChanges
  let (tolerations, jobTolerations) :=
    memory.jobTolerations.assignSlice blankToleration
      provisionerConfig.jobTolerations document.tolerationChanges
  let decoded : ProvisionerConfiguration :=
    { storageClassConfig
      labelsForPV
      nodeLabelsForPV
      jobTolerations
      flags := document.decodeFlags provisionerConfig.flags }
  let memory : SharedMemory :=
    { classes, labels, nodeLabels, jobTolerations := tolerations }
  match storageClassConfig with
  | none => .ok (memory, decoded)
  | some reference =>
      let discovered := classes.read reference
      match configureClasses discovered.entries discovered with
      | .error err => .error err
      | .ok configured =>
          .ok ({ memory with classes := classes.write reference configured },
            decoded)

/-!
## What loading does

A class that passes the checks gets its defaults, and gets no others when it
is checked again.  `ConfigContents` is a configuration with the contents of its
maps and slices, `LoadTarget` adds what its arrays hold after the end of a
slice, and `ConfigDocument.over` is the effect of a load on it.
-/

/-- The class configurations that pass the checks. -/
def MountSettings.Accepted (config : MountSettings) : Prop :=
  config.blockCleanerCommand ≠ some [] ∧
    config.mountDir ≠ "" ∧
    config.hostDir ≠ "" ∧
    VolumeMode.ofString config.withDefaults.volumeMode ∈
      [VolumeMode.block, VolumeMode.filesystem]

instance (config : MountSettings) : Decidable config.Accepted :=
  inferInstanceAs (Decidable (_ ∧ _ ∧ _ ∧ _))

/-- A class is configured by its defaults if it passes the checks. -/
theorem configureClass_ok_iff
    {className : String}
    {config configured : MountSettings} :
    configureClass className config = .ok configured ↔
      config.Accepted ∧ configured = config.withDefaults := by
  unfold configureClass MountSettings.Accepted
  split
  · rename_i empty
    simp [empty]
  · rename_i command
    split
    · rename_i missing
      constructor
      · nofun
      · rintro ⟨⟨_, noMount, noHost, _⟩, _⟩
        exact (missing.elim noMount noHost).elim
    · rename_i directories
      rw [not_or] at directories
      simp only
      split <;> rename_i mode <;>
        simp [command, directories, mode, eq_comm]

/-- The defaults of a configured class are the values it has. -/
@[simp] theorem MountSettings.withDefaults_withDefaults
    (config : MountSettings) :
    config.withDefaults.withDefaults = config.withDefaults := by
  have defaults : defaultVolumeMode ≠ "" ∧ defaultNamePattern ≠ "" := by
    decide
  by_cases noMode : config.volumeMode = "" <;>
    by_cases noPattern : config.namePattern = "" <;>
    simp [MountSettings.withDefaults, normalizePath, noMode, noPattern,
      defaults]

/-- Checking a configured class again accepts it. -/
theorem MountSettings.Accepted.withDefaults
    {config : MountSettings}
    (accepted : config.Accepted) :
    config.withDefaults.Accepted := by
  obtain ⟨command, mountDir, hostDir, mode⟩ := accepted
  refine ⟨?_, mountDir, hostDir, ?_⟩
  · cases given : config.blockCleanerCommand with
    | none => simp [MountSettings.withDefaults, given]
    | some words =>
        rw [given] at command
        simpa [MountSettings.withDefaults, given] using command
  · rw [MountSettings.withDefaults_withDefaults]
    exact mode

/-- The loop over accepted classes ends, with the defaults filled in. -/
theorem configureClasses_of_accepted
    {entries : List ((_ : String) × MountSettings)}
    {classes : GoMap MountSettings}
    (distinct : entries.NodupKeys)
    (accepted : ∀ entry ∈ entries, entry.2.Accepted) :
    ∃ configured,
      configureClasses entries classes = .ok configured ∧
        ∀ className,
          configured.lookup className =
            ((entries.dlookup className).map
              MountSettings.withDefaults).or (classes.lookup className) := by
  induction entries generalizing classes with
  | nil => exact ⟨classes, rfl, fun _ => rfl⟩
  | cons entry rest inductionHypothesis =>
      obtain ⟨name, config⟩ := entry
      rw [List.nodupKeys_cons] at distinct
      have first : configureClass name config = .ok config.withDefaults :=
        configureClass_ok_iff.mpr
          ⟨accepted ⟨name, config⟩ (by simp), rfl⟩
      obtain ⟨configured, looped, lookups⟩ :=
        @inductionHypothesis (classes.insert name config.withDefaults)
          distinct.2 fun later member => accepted later (by simp [member])
      refine ⟨configured, by simpa [configureClasses, first] using looped, ?_⟩
      intro className
      rw [lookups className]
      by_cases same : className = name
      · subst className
        have absent : rest.dlookup name = none :=
          List.dlookup_eq_none.mpr distinct.1
        simp [absent]
      · simp [same]

/-- A loop that ends has accepted every class. -/
theorem accepted_of_configureClasses
    {entries : List ((_ : String) × MountSettings)}
    {classes configured : GoMap MountSettings}
    (looped : configureClasses entries classes = .ok configured) :
    ∀ entry ∈ entries, entry.2.Accepted := by
  induction entries generalizing classes with
  | nil => simp
  | cons entry rest inductionHypothesis =>
      simp only [configureClasses] at looped
      split at looped
      · cases looped
      · rename_i first
        intro later member
        rcases List.mem_cons.mp member with rfl | inRest
        · exact (configureClass_ok_iff.mp first).1
        · exact inductionHypothesis looped later inRest

/-- The loop over all classes of a map fills in the defaults of each. -/
theorem lookup_of_configureClasses
    {classes configured : GoMap MountSettings}
    (looped : configureClasses classes.entries classes = .ok configured)
    (className : String) :
    configured.lookup className =
      (classes.lookup className).map MountSettings.withDefaults := by
  obtain ⟨_, sameLoop, lookups⟩ :=
    @configureClasses_of_accepted _ classes classes.nodupKeys
      (accepted_of_configureClasses looped)
  rw [looped] at sameLoop
  cases sameLoop
  rw [lookups className, AList.lookup]
  cases classes.entries.dlookup className <;> rfl

/-- The contents of a configuration. -/
structure ConfigContents where
  storageClassConfig : Option (String → Option MountSettings)
  labelsForPV : Option (String → Option String)
  values : ConfigValues

/-- A configuration with the contents of its maps and slices. -/
def ProvisionerConfiguration.contents
    (config : ProvisionerConfiguration)
    (memory : SharedMemory) :
    ConfigContents where
  storageClassConfig :=
    config.storageClassConfig.map fun reference className =>
      (memory.classes.read reference).lookup className
  labelsForPV :=
    config.labelsForPV.map fun reference label =>
      (memory.labels.read reference).lookup label
  values :=
    { toConfigFlags := config.flags
      nodeLabelsForPV :=
        (config.nodeLabelsForPV.map memory.nodeLabels.contents).map
          (List.map Prod.fst)
      jobTolerations :=
        (config.jobTolerations.map memory.jobTolerations.contents).map
          (List.map Toleration.ofStored) }

/-- A configuration as it is decoded into: the arrays of its slices matter. -/
structure LoadTarget where
  contents : ConfigContents
  labelArray : List String
  tolerationArray : List Toleration

/-- What a load into a configuration finds. -/
def ProvisionerConfiguration.target
    (config : ProvisionerConfiguration)
    (memory : SharedMemory) :
    LoadTarget where
  contents := config.contents memory
  labelArray :=
    (memory.nodeLabels.backing? config.nodeLabelsForPV).map Prod.fst
  tolerationArray :=
    (memory.jobTolerations.backing? config.jobTolerations).map
      Toleration.ofStored

/-- A toleration decoded over another one. -/
def TolerationDocument.over
    (document : TolerationDocument)
    (earlier : Toleration) :
    Toleration where
  key := document.key.getD earlier.key
  operator := document.operator.getD earlier.operator
  value := document.value.getD earlier.value
  effect := document.effect.getD earlier.effect
  tolerationSeconds :=
    document.tolerationSeconds.getD earlier.tolerationSeconds

/-- The contents of a map field after decoding. -/
def overMap
    {Value : Type}
    (entries : Option (Option (GoMap Value)))
    (earlier : Option (String → Option Value)) :
    Option (String → Option Value) :=
  match entries with
  | none => earlier
  | some none => none
  | some (some entries) =>
      some fun key =>
        (entries.lookup key).or (earlier.bind fun values => values key)

/-- The contents of a configuration after a load. -/
def ConfigDocument.over
    (document : ConfigDocument)
    (target : LoadTarget) :
    ConfigContents where
  storageClassConfig :=
    (overMap document.storageClassMap target.contents.storageClassConfig).map
      fun classes className =>
        (classes className).map MountSettings.withDefaults
  labelsForPV := overMap document.labelsForPV target.contents.labelsForPV
  values :=
    { toConfigFlags :=
        document.decodeFlags target.contents.values.toConfigFlags
      nodeLabelsForPV :=
        overSlice Option.getD blankLabel document.nodeLabelsForPV
          target.contents.values.nodeLabelsForPV target.labelArray
      jobTolerations :=
        overSlice TolerationDocument.over
          (.ofStored (blankToleration, none)) document.jobTolerations
          target.contents.values.jobTolerations target.tolerationArray }

/-- Lookups in a map that has been decoded into. -/
theorem lookup_union
    {Value : Type}
    (entries existing : GoMap Value)
    (key : String) :
    (entries ∪ existing).lookup key =
      (entries.lookup key).or (existing.lookup key) := by
  by_cases member : key ∈ entries
  · rw [AList.lookup_union_left member]
    obtain ⟨value, found⟩ := Option.isSome_iff_exists.mp
      (AList.lookup_isSome.mpr member)
    simp [found]
  · rw [AList.lookup_union_right member]
    simp [AList.lookup_eq_none.mpr member]

/-- Decoding into a map field, as seen through the reference. -/
theorem contents_decodeMap
    {Value : Type}
    (maps : SharedCells (GoMap Value))
    (reference : Option Nat)
    (entries : Option (Option (GoMap Value))) :
    ((decodeMap maps reference entries).2.map fun decoded key =>
        ((decodeMap maps reference entries).1.read decoded).lookup key) =
      overMap entries
        (reference.map fun existing key =>
          (maps.read existing).lookup key) := by
  rcases entries with _ | _ | entries
  · rfl
  · rfl
  · cases reference with
    | none => simp [decodeMap, overMap]
    | some existing =>
        simp [decodeMap, overMap, SharedCells.read_write, lookup_union]

/-- Pointers in the arrays of both kinds of slices are aligned. -/
structure SharedMemory.SlicesSound (memory : SharedMemory) : Prop where
  nodeLabels : memory.nodeLabels.Sound
  jobTolerations : memory.jobTolerations.Sound

/-- The arrays that a configuration refers to have been allocated. -/
structure ProvisionerConfiguration.HoldsSlices
    (config : ProvisionerConfiguration)
    (memory : SharedMemory) : Prop where
  nodeLabels : memory.nodeLabels.Holds config.nodeLabelsForPV
  jobTolerations : memory.jobTolerations.Holds config.jobTolerations

/-- What a load does to the slices. -/
structure DecodesSlices
    (document : ConfigDocument)
    (memory : SharedMemory)
    (config : ProvisionerConfiguration)
    (loadedMemory : SharedMemory)
    (loaded : ProvisionerConfiguration) : Prop where
  nodeLabels :
    SliceMemory.FieldAssigned blankLabel memory.nodeLabels
      config.nodeLabelsForPV document.labelChanges loadedMemory.nodeLabels
      loaded.nodeLabelsForPV
  jobTolerations :
    SliceMemory.FieldAssigned blankToleration memory.jobTolerations
      config.jobTolerations document.tolerationChanges
      loadedMemory.jobTolerations loaded.jobTolerations

namespace DecodesSlices

variable {document : ConfigDocument}
variable {memory loadedMemory : SharedMemory}
variable {config loaded : ProvisionerConfiguration}

theorem sound
    (decodes : DecodesSlices document memory config loadedMemory loaded) :
    loadedMemory.SlicesSound :=
  ⟨decodes.nodeLabels.sound, decodes.jobTolerations.sound⟩

theorem holds
    (decodes : DecodesSlices document memory config loadedMemory loaded) :
    loaded.HoldsSlices loadedMemory :=
  ⟨decodes.nodeLabels.holds, decodes.jobTolerations.holds⟩

/-- The labels after a load. -/
theorem contents_nodeLabels
    (decodes : DecodesSlices document memory config loadedMemory loaded) :
    (loaded.contents loadedMemory).values.nodeLabelsForPV =
      (document.over (config.target memory)).values.nodeLabelsForPV := by
  have agrees :
      ∀ (label : Option String) (value : String × Option Empty),
        ((labelChange label).apply value).1 = label.getD value.1 :=
    fun _ _ => rfl
  simp only [ProvisionerConfiguration.contents, decodes.nodeLabels.contents]
  exact map_overSlice agrees _ _ _ _

/-- The tolerations after a load. -/
theorem contents_jobTolerations
    (decodes : DecodesSlices document memory config loadedMemory loaded) :
    (loaded.contents loadedMemory).values.jobTolerations =
      (document.over (config.target memory)).values.jobTolerations := by
  have agrees :
      ∀ (given : TolerationDocument) (value : TolerationTexts × Option Int),
        Toleration.ofStored (given.change.apply value) =
          given.over (Toleration.ofStored value) :=
    fun _ _ => rfl
  simp only [ProvisionerConfiguration.contents, decodes.jobTolerations.contents]
  exact map_overSlice agrees _ _ _ _

end DecodesSlices

/-- Every load that succeeds decodes into the slices. -/
theorem decodesSlices_of_load
    {document : ConfigDocument}
    {memory loadedMemory : SharedMemory}
    {config loaded : ProvisionerConfiguration}
    (sound : memory.SlicesSound)
    (holds : config.HoldsSlices memory)
    (load :
      configMapDataToVolumeConfig document memory config =
        .ok (loadedMemory, loaded)) :
    DecodesSlices document memory config loadedMemory loaded := by
  have nodeLabels : SliceMemory.FieldAssigned blankLabel _ _ _ _ _ :=
    SliceMemory.fieldAssigned_assignSlice sound.nodeLabels holds.nodeLabels
      document.labelChanges
  have jobTolerations : SliceMemory.FieldAssigned blankToleration _ _ _ _ _ :=
    SliceMemory.fieldAssigned_assignSlice sound.jobTolerations
      holds.jobTolerations document.tolerationChanges
  unfold configMapDataToVolumeConfig at load
  simp only at load
  split at load
  · cases load
    exact ⟨nodeLabels, jobTolerations⟩
  · split at load
    · cases load
    · cases load
      exact ⟨nodeLabels, jobTolerations⟩

/-- Every class in every map passes the checks. -/
def SharedMemory.AllAccepted (memory : SharedMemory) : Prop :=
  ∀ reference className config,
    (memory.classes.read reference).lookup className = some config →
    config.Accepted

/-- Every class that a document mentions passes the checks. -/
def ConfigDocument.Accepted (document : ConfigDocument) : Prop :=
  ∀ entries className config,
    document.storageClassMap = some (some entries) →
    entries.lookup className = some config →
    config.Accepted

/-- Decoding an accepted document keeps every class accepted. -/
theorem SharedMemory.AllAccepted.decodeMap
    {memory : SharedMemory}
    {document : ConfigDocument}
    (allAccepted : memory.AllAccepted)
    (accepted : document.Accepted)
    (reference : Option Nat) :
    SharedMemory.AllAccepted
      { memory with
        classes :=
          (decodeMap memory.classes reference document.storageClassMap).1 } := by
  intro other className config found
  rcases mentioned : document.storageClassMap with _ | _ | entries
  · simp only [mentioned, LocalProvisioner.decodeMap] at found
    exact allAccepted other className config found
  · simp only [mentioned, LocalProvisioner.decodeMap] at found
    exact allAccepted other className config found
  · simp only [mentioned, LocalProvisioner.decodeMap] at found
    cases reference with
    | none =>
        simp only [SharedCells.read_alloc] at found
        split at found
        · exact accepted entries className config mentioned found
        · exact allAccepted other className config found
    | some existing =>
        simp only [SharedCells.read_write] at found
        split at found
        · rw [lookup_union, Option.or_eq_some_iff] at found
          rcases found with inDocument | ⟨_, before⟩
          · exact accepted entries className config mentioned inDocument
          · exact allAccepted existing className config before
        · exact allAccepted other className config found

/-- Every class of the map that is loaded passes the checks. -/
def ConfigDocument.DecodesAccepted
    (document : ConfigDocument)
    (memory : SharedMemory)
    (config : ProvisionerConfiguration) : Prop :=
  ∀ reference className settings,
    (decodeMap memory.classes config.storageClassConfig
        document.storageClassMap).2 = some reference →
    ((decodeMap memory.classes config.storageClassConfig
        document.storageClassMap).1.read reference).lookup className =
      some settings →
    settings.Accepted

/-- The classes of all maps are those that were decoded or their defaults. -/
def ConfigDocument.KeepsClasses
    (document : ConfigDocument)
    (memory : SharedMemory)
    (config : ProvisionerConfiguration)
    (loadedMemory : SharedMemory) : Prop :=
  ∀ reference className settings,
    (loadedMemory.classes.read reference).lookup className = some settings →
    ∃ earlier,
      ((decodeMap memory.classes config.storageClassConfig
          document.storageClassMap).1.read reference).lookup className =
        some earlier ∧
      (settings = earlier ∨ settings = earlier.withDefaults)

/-- A load succeeds if every class of the map that is loaded passes the checks. -/
theorem loadMaps_of_decoded
    {document : ConfigDocument}
    {memory : SharedMemory}
    {config : ProvisionerConfiguration}
    (accepted : document.DecodesAccepted memory config) :
    ∃ loadedMemory loaded,
      configMapDataToVolumeConfig document memory config =
          .ok (loadedMemory, loaded) ∧
        loaded.flags = document.decodeFlags config.flags ∧
        (loaded.contents loadedMemory).storageClassConfig =
          (document.over (config.target memory)).storageClassConfig ∧
        (loaded.contents loadedMemory).labelsForPV =
          (document.over (config.target memory)).labelsForPV ∧
        document.KeepsClasses memory config loadedMemory := by
  have decodedClasses :=
    contents_decodeMap memory.classes config.storageClassConfig
      document.storageClassMap
  have decodedLabels :=
    contents_decodeMap memory.labels config.labelsForPV document.labelsForPV
  unfold ConfigDocument.DecodesAccepted at accepted
  unfold configMapDataToVolumeConfig ConfigDocument.KeepsClasses
  generalize decodeMap memory.classes config.storageClassConfig
    document.storageClassMap = classes at accepted decodedClasses ⊢
  generalize decodeMap memory.labels config.labelsForPV
    document.labelsForPV = labels at decodedLabels
  obtain ⟨classes, reference⟩ := classes
  obtain ⟨labels, labelsReference⟩ := labels
  cases reference with
  | none =>
      refine ⟨_, _, rfl, rfl, ?_, decodedLabels, fun _ _ settings found =>
        ⟨settings, found, .inl rfl⟩⟩
      simp only [ProvisionerConfiguration.contents,
        ProvisionerConfiguration.target, ConfigDocument.over,
        ← decodedClasses, Option.map_none]
  | some reference =>
      have everyClass :
          ∀ entry ∈ (classes.read reference).entries, entry.2.Accepted := by
        intro entry member
        exact accepted reference entry.1 entry.2 rfl
          (AList.mem_lookup_iff.mpr member)
      obtain ⟨configured, looped, _⟩ :=
        @configureClasses_of_accepted _ (classes.read reference)
          (classes.read reference).nodupKeys everyClass
      have defaults := lookup_of_configureClasses looped
      simp only [looped]
      refine ⟨_, _, rfl, rfl, ?_, decodedLabels, ?_⟩
      · simp only [ProvisionerConfiguration.contents,
          ProvisionerConfiguration.target, ConfigDocument.over,
          ← decodedClasses, Option.map_some, SharedCells.read_write, if_true,
          defaults]
      · intro other className settings found
        rw [SharedCells.read_write] at found
        split at found
        · rename_i same
          subst same
          rw [defaults className] at found
          obtain ⟨earlier, before, rfl⟩ := Option.map_eq_some_iff.mp found
          exact ⟨earlier, before, .inr rfl⟩
        · exact ⟨settings, found, .inl rfl⟩

/-- The same with the contents of the whole configuration after the load. -/
theorem load_of_decoded
    {document : ConfigDocument}
    {memory : SharedMemory}
    {config : ProvisionerConfiguration}
    (sound : memory.SlicesSound)
    (holds : config.HoldsSlices memory)
    (accepted : document.DecodesAccepted memory config) :
    ∃ loadedMemory loaded,
      configMapDataToVolumeConfig document memory config =
          .ok (loadedMemory, loaded) ∧
        loaded.contents loadedMemory = document.over (config.target memory) ∧
        document.KeepsClasses memory config loadedMemory := by
  obtain ⟨loadedMemory, loaded, load, flags, classes, labels, origins⟩ :=
    loadMaps_of_decoded accepted
  have decodes := decodesSlices_of_load sound holds load
  refine ⟨loadedMemory, loaded, load, ?_, origins⟩
  have values :
      (loaded.contents loadedMemory).values =
        (document.over (config.target memory)).values :=
    (ConfigValues.mk.injEq ..).mpr
      ⟨flags, decodes.contents_nodeLabels, decodes.contents_jobTolerations⟩
  exact (ConfigContents.mk.injEq ..).mpr ⟨classes, labels, values⟩

/-- An accepted document is loaded, over whatever was accepted before. -/
theorem load_of_accepted
    {document : ConfigDocument}
    {memory : SharedMemory}
    {config : ProvisionerConfiguration}
    (allAccepted : memory.AllAccepted)
    (accepted : document.Accepted)
    (sound : memory.SlicesSound)
    (holds : config.HoldsSlices memory) :
    ∃ loadedMemory loaded,
      configMapDataToVolumeConfig document memory config =
          .ok (loadedMemory, loaded) ∧
        loadedMemory.AllAccepted ∧
        loaded.contents loadedMemory =
          document.over (config.target memory) := by
  have decodedAccepted :=
    allAccepted.decodeMap accepted config.storageClassConfig
  obtain ⟨loadedMemory, loaded, load, contents, origins⟩ :=
    load_of_decoded sound holds fun reference className settings _ found =>
      decodedAccepted reference className settings found
  refine ⟨loadedMemory, loaded, load, ?_, contents⟩
  intro reference className settings found
  obtain ⟨earlier, before, origin⟩ := origins reference className settings found
  have earlierAccepted := decodedAccepted reference className earlier before
  rcases origin with rfl | rfl
  · exact earlierAccepted
  · exact earlierAccepted.withDefaults

/-- A document that has been loaded mentions only classes that pass. -/
theorem accepted_of_load
    {document : ConfigDocument}
    {memory : SharedMemory}
    {config : ProvisionerConfiguration}
    {loaded : SharedMemory × ProvisionerConfiguration}
    (load : configMapDataToVolumeConfig document memory config = .ok loaded) :
    document.Accepted := by
  intro entries className settings mentioned found
  obtain ⟨classes, reference, decoded, holds⟩ :
      ∃ classes reference,
        decodeMap memory.classes config.storageClassConfig
            document.storageClassMap = (classes, some reference) ∧
          (classes.read reference).lookup className = some settings := by
    rw [mentioned]
    cases config.storageClassConfig with
    | none =>
        exact ⟨_, _, rfl, by rw [SharedCells.read_alloc_self, found]⟩
    | some existing =>
        refine ⟨_, _, rfl, ?_⟩
        rw [SharedCells.read_write, if_pos rfl, lookup_union, found]
        rfl
  simp only [configMapDataToVolumeConfig, decoded] at load
  split at load
  · cases load
  · rename_i looped
    exact accepted_of_configureClasses looped ⟨className, settings⟩
      (AList.mem_lookup_iff.mp holds)

end LocalProvisioner
