import LocalProvisioner.ConfigWatcher

namespace LocalProvisioner

/-!
# Updates through shared maps and arrays

A configuration that has been sent shares its maps, and the arrays of its
slices, with the one the watcher goes on loading into.  A later load then writes
into the maps and arrays that the running controller reads, and the comparison
with the configuration applied last compares a map or a slice with itself.

An observed watcher remembers the value that was handed over last as it was
then.  A load is harmless as long as it gives no entry to a shared map that
the map does not have already, and no value to an element of a shared array
that the element does not have already.
-/

/-!
## What a load does to the maps there are
-/

/--
Decoding gives no entry to a map in use elsewhere that it does not have
already, with its defaults filled in.
-/
def KeepsMap
    {Value : Type}
    (adjust : Value → Value)
    (maps : SharedCells (GoMap Value))
    (given : Option (Option (GoMap Value)))
    (reference : Option Nat)
    (handedOut : List (Option Nat)) : Prop :=
  ∀ existing entries key value,
    reference = some existing →
    some existing ∈ handedOut →
    given = some (some entries) →
    entries.lookup key = some value →
    (maps.read existing).lookup key = some (adjust value)

/-- Two stores of maps hold the same entries behind a reference. -/
def SameEntries
    {Value : Type}
    (before after : SharedCells (GoMap Value))
    (reference : Nat) : Prop :=
  ∀ key,
    (after.read reference).lookup key = (before.read reference).lookup key

/--
What a load leaves behind each reference: the decoded and adjusted map behind
the one that the loaded configuration holds, and the map there was elsewhere.
-/
def Loaded
    {Value : Type}
    (adjust : Value → Value)
    (before after : SharedCells (GoMap Value))
    (given : Option (Option (GoMap Value)))
    (reference : Option Nat) : Prop :=
  ∀ other key,
    (after.read other).lookup key =
      if (decodeMap before reference given).2 = some other then
        (((decodeMap before reference given).1.read other).lookup key).map
          adjust
      else
        (before.read other).lookup key

/-- Decoding writes only to the map that the decoded field refers to. -/
theorem read_decodeMap_of_ne
    {Value : Type}
    {maps : SharedCells (GoMap Value)}
    {reference : Option Nat}
    {given : Option (Option (GoMap Value))}
    {other : Nat}
    (different : (decodeMap maps reference given).2 ≠ some other) :
    (decodeMap maps reference given).1.read other = maps.read other := by
  rcases given with _ | _ | entries
  · rfl
  · rfl
  · cases reference with
    | none =>
        have notNew : other ≠ maps.next := by
          intro same
          exact different (congrArg some same.symm)
        simp [decodeMap, SharedCells.read_alloc, notNew]
    | some existing =>
        have notExisting : other ≠ existing := by
          intro same
          exact different (congrArg some same.symm)
        simp [decodeMap, SharedCells.read_write, notExisting]

/-- The decoded field refers to the map there was, or to a new one. -/
theorem reference_decodeMap_ne
    {Value : Type}
    {maps : SharedCells (GoMap Value)}
    {reference : Option Nat}
    {other : Nat}
    (given : Option (Option (GoMap Value)))
    (allocated : other < maps.next)
    (different : reference ≠ some other) :
    (decodeMap maps reference given).2 ≠ some other := by
  rcases given with _ | _ | entries
  · exact different
  · simp [decodeMap]
  · cases reference with
    | none =>
        have notNew : maps.next ≠ other := (Nat.ne_of_lt allocated).symm
        simpa [decodeMap, SharedCells.alloc] using notNew
    | some existing => exact different

/-- A load leaves maps behind other references alone. -/
theorem Loaded.sameEntries_of_ne
    {Value : Type}
    {adjust : Value → Value}
    {before after : SharedCells (GoMap Value)}
    {given : Option (Option (GoMap Value))}
    {reference : Option Nat}
    (loaded : Loaded adjust before after given reference)
    {other : Nat}
    (allocated : other < before.next)
    (different : reference ≠ some other) :
    SameEntries before after other := by
  intro key
  rw [loaded other key,
    if_neg (reference_decodeMap_ne given allocated different)]

/--
A load leaves the map that it decodes into as it is, exactly if the map has
all the entries that are given.
-/
theorem Loaded.sameEntries_self_iff
    {Value : Type}
    {adjust : Value → Value}
    {before after : SharedCells (GoMap Value)}
    {given : Option (Option (GoMap Value))}
    {existing : Nat}
    (loaded : Loaded adjust before after given (some existing))
    (settled :
      ∀ key value,
        (before.read existing).lookup key = some value →
        adjust value = value) :
    SameEntries before after existing ↔
      ∀ entries key value,
        given = some (some entries) →
        entries.lookup key = some value →
        (before.read existing).lookup key = some (adjust value) := by
  have unadjusted :
      ∀ key,
        ((before.read existing).lookup key).map adjust =
          (before.read existing).lookup key := by
    intro key
    cases found : (before.read existing).lookup key with
    | none => rfl
    | some value => rw [Option.map_some, settled key value found]
  rcases given with _ | _ | entries
  · have same : SameEntries before after existing := by
      intro key
      simp only [loaded existing key, decodeMap, if_true]
      exact unadjusted key
    simp [same]
  · have same : SameEntries before after existing := by
      intro key
      rw [loaded existing key, if_neg (by simp [decodeMap])]
    simp [same]
  · have merged :
        ∀ key,
          (after.read existing).lookup key =
            ((entries.lookup key).or
              ((before.read existing).lookup key)).map adjust := by
      intro key
      simp only [loaded existing key, decodeMap, SharedCells.read_write,
        if_true, lookup_union]
    constructor
    · intro same given key value mentioned found
      cases mentioned
      rw [← same key, merged key, found]
      rfl
    · intro kept key
      rw [merged key]
      cases found : entries.lookup key with
      | none => exact unadjusted key
      | some value => exact (kept entries key value rfl found).symm

/-- A load changes no map in use elsewhere exactly if it gives none an entry. -/
theorem Loaded.sameEntries_iff_keepsMap
    {Value : Type}
    {adjust : Value → Value}
    {before after : SharedCells (GoMap Value)}
    {given : Option (Option (GoMap Value))}
    {reference : Option Nat}
    (loaded : Loaded adjust before after given reference)
    (settled :
      ∀ other key value,
        (before.read other).lookup key = some value →
        adjust value = value)
    {handedOut : List (Option Nat)}
    (allocated :
      ∀ other, some other ∈ handedOut → other < before.next) :
    (∀ other, some other ∈ handedOut → SameEntries before after other) ↔
      KeepsMap adjust before given reference handedOut := by
  constructor
  · intro same existing entries key value held shared mentioned found
    subst held
    exact (loaded.sameEntries_self_iff (settled existing)).mp
      (same existing shared) entries key value mentioned found
  · intro keeps other shared
    by_cases held : reference = some other
    · subst held
      apply (loaded.sameEntries_self_iff (settled other)).mpr
      intro entries key value mentioned found
      exact keeps other entries key value rfl shared mentioned found
    · exact loaded.sameEntries_of_ne (allocated other shared) held

/-- The maps and arrays that a configuration refers to have been allocated. -/
structure ProvisionerConfiguration.Allocated
    (config : ProvisionerConfiguration)
    (memory : SharedMemory) : Prop where
  classes :
    ∀ reference,
      config.storageClassConfig = some reference →
      reference < memory.classes.next
  labels :
    ∀ reference,
      config.labelsForPV = some reference →
      reference < memory.labels.next
  slices : config.HoldsSlices memory

/-- Every class in every map has its defaults. -/
def SharedMemory.Settled (maps : SharedMemory) : Prop :=
  ∀ reference className config,
    (maps.classes.read reference).lookup className = some config →
    config.withDefaults = config

/-- Decoding only allocates, and refers to a map that is allocated. -/
theorem allocated_decodeMap
    {Value : Type}
    (maps : SharedCells (GoMap Value))
    (reference : Option Nat)
    (given : Option (Option (GoMap Value)))
    (allocated : ∀ existing, reference = some existing → existing < maps.next) :
    maps.next ≤ (decodeMap maps reference given).1.next ∧
      ∀ decoded,
        (decodeMap maps reference given).2 = some decoded →
        decoded < (decodeMap maps reference given).1.next := by
  rcases given with _ | _ | entries
  · exact ⟨le_refl _, allocated⟩
  · exact ⟨le_refl _, nofun⟩
  · cases reference with
    | none =>
        refine ⟨Nat.le_succ _, ?_⟩
        intro decoded held
        cases held
        exact Nat.lt_succ_self _
    | some existing =>
        refine ⟨le_refl _, ?_⟩
        intro decoded held
        cases held
        exact allocated existing rfl

/-- What a load does to memory and to the struct it loads into. -/
structure LoadsInto
    (document : ConfigDocument)
    (memory : SharedMemory)
    (config : ProvisionerConfiguration)
    (loadedMemory : SharedMemory)
    (loaded : ProvisionerConfiguration) : Prop where
  classes :
    Loaded MountSettings.withDefaults memory.classes loadedMemory.classes
      document.storageClassMap config.storageClassConfig
  labels :
    Loaded id memory.labels loadedMemory.labels document.labelsForPV
      config.labelsForPV
  slices : DecodesSlices document memory config loadedMemory loaded
  storageClassConfig :
    loaded.storageClassConfig =
      (decodeMap memory.classes config.storageClassConfig
        document.storageClassMap).2
  labelsForPV :
    loaded.labelsForPV =
      (decodeMap memory.labels config.labelsForPV document.labelsForPV).2
  nextClass :
    loadedMemory.classes.next =
      (decodeMap memory.classes config.storageClassConfig
        document.storageClassMap).1.next
  nextLabel :
    loadedMemory.labels.next =
      (decodeMap memory.labels config.labelsForPV document.labelsForPV).1.next

/-- Decoding without a loop afterwards. -/
theorem loaded_decodeMap
    {Value : Type}
    (maps : SharedCells (GoMap Value))
    (reference : Option Nat)
    (given : Option (Option (GoMap Value))) :
    Loaded id maps (decodeMap maps reference given).1 given reference := by
  intro other key
  by_cases held : (decodeMap maps reference given).2 = some other
  · rw [if_pos held, Option.map_id_fun, id_eq]
  · rw [if_neg held, read_decodeMap_of_ne held]

/-- Every load that succeeds. -/
theorem loadsInto_of_load
    {document : ConfigDocument}
    {memory loadedMemory : SharedMemory}
    {config loaded : ProvisionerConfiguration}
    (sound : memory.SlicesSound)
    (holds : config.HoldsSlices memory)
    (load :
      configMapDataToVolumeConfig document memory config =
        .ok (loadedMemory, loaded)) :
    LoadsInto document memory config loadedMemory loaded := by
  have labels :=
    loaded_decodeMap memory.labels config.labelsForPV document.labelsForPV
  have slices := decodesSlices_of_load sound holds load
  unfold configMapDataToVolumeConfig at load
  simp only at load
  split at load
  · rename_i absent
    cases load
    refine ⟨?_, labels, slices, rfl, rfl, rfl, rfl⟩
    intro other key
    have notHeld :
        (decodeMap memory.classes config.storageClassConfig
          document.storageClassMap).2 ≠ some other := by
      rw [absent]
      nofun
    rw [if_neg notHeld, read_decodeMap_of_ne notHeld]
  · rename_i reference held
    split at load
    · cases load
    · rename_i configured looped
      cases load
      refine ⟨?_, labels, slices, rfl, rfl, rfl, rfl⟩
      intro other key
      rw [SharedCells.read_write]
      by_cases same : other = reference
      · subst same
        rw [if_pos rfl, if_pos held, lookup_of_configureClasses looped]
      · have notHeld :
            (decodeMap memory.classes config.storageClassConfig
              document.storageClassMap).2 ≠ some other := by
          rw [held]
          intro equal
          exact same (Option.some.inj equal).symm
        rw [if_neg same, if_neg notHeld, read_decodeMap_of_ne notHeld]

namespace LoadsInto

variable {document : ConfigDocument}
variable {memory loadedMemory : SharedMemory}
variable {config loaded : ProvisionerConfiguration}

/-- A load keeps the defaults of every class filled in. -/
theorem settled
    (loads : LoadsInto document memory config loadedMemory loaded)
    (before : memory.Settled) :
    loadedMemory.Settled := by
  intro reference className settings found
  rw [loads.classes reference className] at found
  split at found
  · obtain ⟨given, _, rfl⟩ := Option.map_eq_some_iff.mp found
    exact given.withDefaults_withDefaults
  · exact before reference className settings found

/-- Maps and arrays that were allocated before a load still are. -/
theorem allocated_of_allocated
    (loads : LoadsInto document memory config loadedMemory loaded)
    (configAllocated : config.Allocated memory)
    {other : ProvisionerConfiguration}
    (otherAllocated : other.Allocated memory) :
    other.Allocated loadedMemory := by
  have classes := allocated_decodeMap memory.classes config.storageClassConfig
    document.storageClassMap configAllocated.classes
  have labels := allocated_decodeMap memory.labels config.labelsForPV
    document.labelsForPV configAllocated.labels
  refine ⟨?_, ?_, ?_, ?_⟩
  · intro reference held
    rw [loads.nextClass]
    exact lt_of_lt_of_le (otherAllocated.classes reference held) classes.1
  · intro reference held
    rw [loads.nextLabel]
    exact lt_of_lt_of_le (otherAllocated.labels reference held) labels.1
  · intro slice held
    exact lt_of_lt_of_le (otherAllocated.slices.nodeLabels slice held)
      loads.slices.nodeLabels.grows
  · intro slice held
    exact lt_of_lt_of_le (otherAllocated.slices.jobTolerations slice held)
      loads.slices.jobTolerations.grows

/-- The loaded configuration refers to allocated maps and arrays. -/
theorem allocated_loaded
    (loads : LoadsInto document memory config loadedMemory loaded)
    (configAllocated : config.Allocated memory) :
    loaded.Allocated loadedMemory := by
  have classes := allocated_decodeMap memory.classes config.storageClassConfig
    document.storageClassMap configAllocated.classes
  have labels := allocated_decodeMap memory.labels config.labelsForPV
    document.labelsForPV configAllocated.labels
  refine ⟨?_, ?_, loads.slices.holds⟩
  · rw [loads.storageClassConfig, loads.nextClass]
    exact classes.2
  · rw [loads.labelsForPV, loads.nextLabel]
    exact labels.2

end LoadsInto

/-- Stored tolerations are the same if what is seen of them is. -/
theorem Toleration.ofStored_injective : Function.Injective Toleration.ofStored := by
  rintro ⟨⟨key, operator, value, effect⟩, seconds⟩ ⟨other, otherSeconds⟩ same
  cases same
  rfl

/-- Slices have the same contents if what is seen of them is the same. -/
theorem map_contents_eq_iff
    {Value Seen : Type}
    {view : Value → Seen}
    (injective : Function.Injective view)
    (field : Option Slice)
    (before after : Slice → List Value) :
    (field.map after).map (List.map view) =
        (field.map before).map (List.map view) ↔
      ∀ slice, field = some slice → after slice = before slice := by
  cases field with
  | none => simp
  | some slice => simp [injective.list_map.eq_iff]

/-- Configurations have the same contents if their maps and slices have. -/
theorem contents_eq_iff_same
    {before after : SharedMemory}
    {config : ProvisionerConfiguration} :
    config.contents after = config.contents before ↔
      (∀ reference,
        config.storageClassConfig = some reference →
        SameEntries before.classes after.classes reference) ∧
      (∀ reference,
        config.labelsForPV = some reference →
        SameEntries before.labels after.labels reference) ∧
      (∀ slice,
        config.nodeLabelsForPV = some slice →
        after.nodeLabels.contents slice = before.nodeLabels.contents slice) ∧
      ∀ slice,
        config.jobTolerations = some slice →
        after.jobTolerations.contents slice =
          before.jobTolerations.contents slice := by
  have labelsInjective :
      Function.Injective (Prod.fst : String × Option Empty → String) := by
    rintro ⟨label, _ | ⟨⟨⟩⟩⟩ ⟨_, _ | ⟨⟨⟩⟩⟩ rfl
    rfl
  have nodeLabels :=
    map_contents_eq_iff labelsInjective config.nodeLabelsForPV
      before.nodeLabels.contents after.nodeLabels.contents
  have jobTolerations :=
    map_contents_eq_iff Toleration.ofStored_injective config.jobTolerations
      before.jobTolerations.contents after.jobTolerations.contents
  simp only [ProvisionerConfiguration.contents, ConfigContents.mk.injEq,
    ConfigValues.mk.injEq, true_and, nodeLabels, jobTolerations, SameEntries]
  cases config.storageClassConfig <;> cases config.labelsForPV <;>
    simp [funext_iff]

/-!
## The observed watcher
-/

/-- The configurations that the controller has been given. -/
def Watcher.handedOut (watcher : Watcher) : List ProvisionerConfiguration :=
  watcher.sent ++ [watcher.initial]

/-- The configuration applied last has been handed out. -/
theorem Watcher.applied_mem_handedOut (watcher : Watcher) :
    watcher.applied ∈ watcher.handedOut := by
  unfold Watcher.applied Watcher.handedOut
  cases watcher.sent <;> simp

/-- A load changes no map and no slice that has been handed out. -/
structure ConfigDocument.KeepsShared
    (document : ConfigDocument)
    (watcher : Watcher) : Prop where
  classes :
    KeepsMap MountSettings.withDefaults watcher.memory.classes
      document.storageClassMap watcher.provisionerConfig.storageClassConfig
      (watcher.handedOut.map fun config => config.storageClassConfig)
  labels :
    KeepsMap id watcher.memory.labels document.labelsForPV
      watcher.provisionerConfig.labelsForPV
      (watcher.handedOut.map fun config => config.labelsForPV)
  nodeLabels :
    ∀ config ∈ watcher.handedOut,
      ∀ slice,
        config.nodeLabelsForPV = some slice →
        watcher.memory.nodeLabels.KeepsSlice
          watcher.provisionerConfig.nodeLabelsForPV document.labelChanges slice
  jobTolerations :
    ∀ config ∈ watcher.handedOut,
      ∀ slice,
        config.jobTolerations = some slice →
        watcher.memory.jobTolerations.KeepsSlice
          watcher.provisionerConfig.jobTolerations document.tolerationChanges
          slice

/--
A watcher, and the value that was sent last or initially applied, as it was
then.
-/
structure Observed where
  watcher : Watcher
  lastSent : ConfigContents

namespace Observed

/-- The value that the watcher has loaded. -/
def loaded (observed : Observed) : ConfigContents :=
  observed.watcher.provisionerConfig.contents observed.watcher.memory

/-- The watcher that `main` starts, observed from then on. -/
def start (growth : ArrayGrowth) (document : ConfigDocument) :
    Except String Observed :=
  match Watcher.start growth document with
  | .error err => .error err
  | .ok watcher =>
      .ok {
        watcher
        lastSent := watcher.initial.contents watcher.memory }

/-- One round of the loop of `Run`, observed. -/
def tick (observed : Observed) (document : ConfigDocument) :
    Except String Observed :=
  match observed.watcher.tick document with
  | .error err => .error err
  | .ok watcher =>
      .ok {
        watcher
        lastSent :=
          if watcher.sent = observed.watcher.sent then
            observed.lastSent
          else
            watcher.provisionerConfig.contents watcher.memory }

/-- All rounds over a list of file versions end, and satisfy a property. -/
def AtEveryTick
    (property : Observed → ConfigDocument → Observed → Prop) :
    Observed → List ConfigDocument → Prop
  | _, [] => True
  | observed, document :: rest =>
      ∃ next,
        observed.tick document = .ok next ∧
          property observed document next ∧
          next.AtEveryTick property rest

/--
The loaded configuration is sent exactly if its value differs from the value
sent last, and nothing that has been handed out changes.
-/
structure Faithful (before after : Observed) : Prop where
  sends :
    after.watcher.sent =
        after.watcher.provisionerConfig :: before.watcher.sent ↔
      after.loaded ≠ before.lastSent
  silent :
    after.watcher.sent = before.watcher.sent ↔
      after.loaded = before.lastSent
  keeps :
    ∀ config ∈ before.watcher.handedOut,
      config.contents after.watcher.memory =
        config.contents before.watcher.memory

/-- What holds of an observed watcher as long as its ticks are faithful. -/
structure Sound (observed : Observed) : Prop where
  watcher : observed.watcher.Sound
  settled : observed.watcher.memory.Settled
  working :
    observed.watcher.provisionerConfig.Allocated observed.watcher.memory
  handedOut :
    ∀ config ∈ observed.watcher.handedOut,
      config.Allocated observed.watcher.memory
  lastSent :
    observed.lastSent =
      observed.watcher.lastAppliedConfig.contents observed.watcher.memory

end Observed

namespace Observed

/-- The two ways in which a tick ends after its load. -/
inductive Ticked (before after : Observed) : Prop where
  | silent
      (same :
        before.watcher.lastAppliedConfig.contents after.watcher.memory =
          after.loaded)
      (sent : after.watcher.sent = before.watcher.sent)
      (lastApplied :
        after.watcher.lastAppliedConfig = before.watcher.lastAppliedConfig)
      (lastSent : after.lastSent = before.lastSent)
  | sending
      (different :
        before.watcher.lastAppliedConfig.contents after.watcher.memory ≠
          after.loaded)
      (sent :
        after.watcher.sent =
          after.watcher.provisionerConfig :: before.watcher.sent)
      (lastApplied :
        after.watcher.lastAppliedConfig = after.watcher.provisionerConfig)
      (lastSent : after.lastSent = after.loaded)

/-- A tick loads the document, and then compares and sends. -/
theorem ticked_of_tick
    {observed next : Observed}
    {document : ConfigDocument}
    (sound : observed.watcher.Sound)
    (ticked : observed.tick document = .ok next) :
    LoadsInto document observed.watcher.memory
        observed.watcher.provisionerConfig next.watcher.memory
        next.watcher.provisionerConfig ∧
      next.watcher.initial = observed.watcher.initial ∧
      Ticked observed next := by
  unfold tick Watcher.tick at ticked
  cases load : configMapDataToVolumeConfig document observed.watcher.memory
      observed.watcher.provisionerConfig with
  | error err =>
      rw [load] at ticked
      cases ticked
  | ok result =>
      obtain ⟨memory, config⟩ := result
      have loads := loadsInto_of_load sound.slices sound.working load
      rw [load] at ticked
      simp only at ticked
      by_cases equal :
          deepEqual memory observed.watcher.lastAppliedConfig config = true
      · simp only [equal, if_true] at ticked
        cases ticked
        have same := deepEqual_iff_contents.mp equal
        exact ⟨loads, rfl, .silent same rfl rfl rfl⟩
      · simp only [equal] at ticked
        cases ticked
        have different := deepEqual_iff_contents.not.mp equal
        exact ⟨loads, rfl, .sending different rfl rfl (by simp [loaded])⟩

variable {observed next : Observed}
variable {document : ConfigDocument}

/-- Looking at a field of all configurations or at the configurations. -/
theorem forall_mem_map_iff
    {field : ProvisionerConfiguration → Option Nat}
    {configs : List ProvisionerConfiguration}
    {property : Nat → Prop} :
    (∀ other, some other ∈ configs.map field → property other) ↔
      ∀ config ∈ configs,
        ∀ reference, field config = some reference → property reference := by
  constructor
  · intro all config member reference held
    exact all reference (List.mem_map.mpr ⟨config, member, held⟩)
  · intro all other shared
    obtain ⟨config, member, held⟩ := List.mem_map.mp shared
    exact all config member other held

/-- A tick keeps what has been handed out exactly if its load does. -/
theorem keeps_iff_keepsShared
    (sound : observed.Sound)
    (ticked : observed.tick document = .ok next) :
    (∀ config ∈ observed.watcher.handedOut,
        config.contents next.watcher.memory =
          config.contents observed.watcher.memory) ↔
      document.KeepsShared observed.watcher := by
  obtain ⟨loads, _, _⟩ := ticked_of_tick sound.watcher ticked
  have classes :=
    loads.classes.sameEntries_iff_keepsMap sound.settled
      (forall_mem_map_iff.mpr fun config member =>
        (sound.handedOut config member).classes)
  have labels :=
    loads.labels.sameEntries_iff_keepsMap (fun _ _ _ _ => rfl)
      (forall_mem_map_iff.mpr fun config member =>
        (sound.handedOut config member).labels)
  rw [forall_mem_map_iff] at classes labels
  simp only [contents_eq_iff_same]
  constructor
  · intro keeps
    refine ⟨classes.mp ?_, labels.mp ?_, ?_, ?_⟩
    · exact fun config member => (keeps config member).1
    · exact fun config member => (keeps config member).2.1
    · intro config member slice held
      have allocated :=
        (sound.handedOut config member).slices.nodeLabels slice held
      exact (loads.slices.nodeLabels.contents_eq_iff allocated).mp
        ((keeps config member).2.2.1 slice held)
    · intro config member slice held
      have allocated :=
        (sound.handedOut config member).slices.jobTolerations slice held
      exact (loads.slices.jobTolerations.contents_eq_iff allocated).mp
        ((keeps config member).2.2.2 slice held)
  · intro keepsShared config member
    refine ⟨classes.mpr keepsShared.classes config member,
      labels.mpr keepsShared.labels config member, ?_, ?_⟩
    · intro slice held
      have allocated :=
        (sound.handedOut config member).slices.nodeLabels slice held
      exact (loads.slices.nodeLabels.contents_eq_iff allocated).mpr
        (keepsShared.nodeLabels config member slice held)
    · intro slice held
      have allocated :=
        (sound.handedOut config member).slices.jobTolerations slice held
      exact (loads.slices.jobTolerations.contents_eq_iff allocated).mpr
        (keepsShared.jobTolerations config member slice held)

/-- A tick that keeps what has been handed out compares with what was sent. -/
theorem lastApplied_of_keeps
    (sound : observed.Sound)
    (keeps :
      ∀ config ∈ observed.watcher.handedOut,
        config.contents next.watcher.memory =
          config.contents observed.watcher.memory) :
    observed.watcher.lastAppliedConfig.contents next.watcher.memory =
      observed.lastSent := by
  have member :
      observed.watcher.lastAppliedConfig ∈ observed.watcher.handedOut := by
    rw [sound.watcher.lastApplied]
    exact observed.watcher.applied_mem_handedOut
  rw [keeps _ member, sound.lastSent]

/-- A tick is faithful exactly if its load changes nothing handed out. -/
theorem faithful_iff_keepsShared
    (sound : observed.Sound)
    (ticked : observed.tick document = .ok next) :
    Faithful observed next ↔ document.KeepsShared observed.watcher := by
  rw [← keeps_iff_keepsShared sound ticked]
  constructor
  · intro faithful
    exact faithful.keeps
  · intro keeps
    obtain ⟨_, _, ended⟩ := ticked_of_tick sound.watcher ticked
    have compared := lastApplied_of_keeps sound keeps
    cases ended with
    | silent same sent _ _ =>
        have unchanged : next.loaded = observed.lastSent := by
          rw [← same, compared]
        refine ⟨?_, by simp [sent, unchanged], keeps⟩
        simp [sent, unchanged]
    | sending different sent _ _ =>
        have changed : next.loaded ≠ observed.lastSent := by
          rw [← compared]
          exact different.symm
        refine ⟨by simp [sent, changed], ?_, keeps⟩
        simp [sent, changed]

/-- A faithful tick on an accepted document leads to a sound state. -/
theorem Sound.afterTick
    (sound : observed.Sound)
    (accepted : document.Accepted)
    (ticked : observed.tick document = .ok next)
    (faithful : Faithful observed next) :
    next.Sound := by
  obtain ⟨loads, initial, ended⟩ := ticked_of_tick sound.watcher ticked
  have working := loads.allocated_loaded sound.working
  have earlier :
      ∀ config ∈ observed.watcher.handedOut,
        config.Allocated next.watcher.memory := by
    intro config member
    exact loads.allocated_of_allocated sound.working
      (sound.handedOut config member)
  have watcherSound : next.watcher.Sound := by
    obtain ⟨_, watcherTicked, nextSound, _⟩ :=
      Watcher.exists_tick sound.watcher accepted
    simp only [tick, watcherTicked] at ticked
    cases ticked
    exact nextSound
  have compared := lastApplied_of_keeps sound faithful.keeps
  cases ended with
  | silent same sent lastApplied lastSent =>
      refine ⟨watcherSound, loads.settled sound.settled, working, ?_, ?_⟩
      · rw [Watcher.handedOut, sent, initial]
        exact earlier
      · rw [lastSent, lastApplied, compared]
  | sending different sent lastApplied lastSent =>
      refine ⟨watcherSound, loads.settled sound.settled, working, ?_, ?_⟩
      · rw [Watcher.handedOut, sent, initial]
        intro config member
        rcases List.mem_cons.mp member with rfl | older
        · exact working
        · exact earlier config older
      · rw [lastSent, lastApplied]
        rfl

end Observed

/-!
## Where the watcher starts
-/

namespace ProvisionerConfiguration.Allocated

variable {memory : SharedMemory}
variable {config : ProvisionerConfiguration}

/-- The new map is allocated. -/
theorem ofNew (memory : SharedMemory) :
    (newConfiguration memory).2.Allocated (newConfiguration memory).1 := by
  refine ⟨?_, nofun, holdsSlices_newConfiguration memory⟩
  intro reference held
  cases held
  exact Nat.lt_succ_self _

/-- Maps that were allocated before still are. -/
theorem afterNew (allocated : config.Allocated memory) :
    config.Allocated (newConfiguration memory).1 := by
  refine ⟨?_, allocated.labels, allocated.slices.nodeLabels,
    allocated.slices.jobTolerations⟩
  intro reference held
  exact Nat.lt_succ_of_lt (allocated.classes reference held)

/-- A new map leaves the contents of a configuration as they are. -/
theorem contents_afterNew (allocated : config.Allocated memory) :
    config.contents (newConfiguration memory).1 = config.contents memory := by
  refine contents_eq_iff_same.mpr ⟨?_, fun _ _ _ => rfl, fun _ _ => rfl,
    fun _ _ => rfl⟩
  intro reference held key
  have notNew : reference ≠ memory.classes.next :=
    Nat.ne_of_lt (allocated.classes reference held)
  simp only [newConfiguration, SharedCells.read_alloc, if_neg notNew]

end ProvisionerConfiguration.Allocated

/-- A new map has no class that could lack a default. -/
theorem SharedMemory.Settled.newConfiguration
    {memory : SharedMemory}
    (settled : memory.Settled) :
    (newConfiguration memory).1.Settled := by
  intro reference className config found
  simp only [LocalProvisioner.newConfiguration,
    SharedCells.read_alloc] at found
  split at found
  · simp at found
  · exact settled reference className config found

/-- What the watcher starts with: a map of its own, and nothing loaded. -/
structure Observed.Starts
    (first : Observed)
    (document : ConfigDocument) : Prop where
  sound : first.Sound
  working :
    first.watcher.provisionerConfig.target first.watcher.memory = defaultTarget
  lastSent : first.lastSent = document.over defaultTarget

/-- Every accepted document starts a watcher. -/
theorem Observed.exists_start
    {document : ConfigDocument}
    (growth : ArrayGrowth)
    (accepted : document.Accepted) :
    ∃ first,
      Observed.start growth document = .ok first ∧ first.Starts document := by
  obtain ⟨memory, initial, fresh, allAccepted, decodes, contents⟩ :=
    exists_loadFresh growth accepted
  have loads :
      LoadsInto document (newConfiguration (.blank growth)).1
        (newConfiguration (.blank growth)).2 memory initial :=
    loadsInto_of_load (SharedMemory.SlicesSound.blank growth).newConfiguration
      (holdsSlices_newConfiguration (.blank growth)) fresh
  have blankSettled : (SharedMemory.blank growth).Settled := by
    intro reference className config found
    simp [SharedMemory.blank] at found
  have settled : memory.Settled := loads.settled blankSettled.newConfiguration
  have initialAllocated : initial.Allocated memory :=
    loads.allocated_loaded (.ofNew (.blank growth))
  have watcherSound :
      Watcher.Sound
        { memory := (newConfiguration memory).1
          provisionerConfig := (newConfiguration memory).2
          lastAppliedConfig := initial
          initial
          sent := [] } :=
    ⟨allAccepted.newConfiguration, rfl, decodes.sound.newConfiguration,
      holdsSlices_newConfiguration memory⟩
  refine ⟨_, by rw [start, Watcher.start, fresh], ?_⟩
  constructor
  · refine ⟨watcherSound, settled.newConfiguration, .ofNew memory, ?_, rfl⟩
    intro config member
    rw [List.mem_singleton.mp member]
    exact initialAllocated.afterNew
  · exact target_newConfiguration memory
  · rw [← contents]
    exact initialAllocated.contents_afterNew

/-!
## Whole runs
-/

namespace Observed

/-- An accepted document is loaded by the next tick. -/
theorem Sound.exists_tick
    {observed : Observed}
    {document : ConfigDocument}
    (sound : observed.Sound)
    (accepted : document.Accepted) :
    ∃ next,
      observed.tick document = .ok next ∧
        next.loaded =
          document.over
            (observed.watcher.provisionerConfig.target
              observed.watcher.memory) := by
  obtain ⟨watcher, ticked, _, contents, _⟩ :=
    Watcher.exists_tick sound.watcher accepted
  refine ⟨_, by rw [tick, ticked], ?_⟩
  exact contents

/-- All ticks of a run are faithful exactly if no load changes what is shared. -/
theorem Sound.run
    {observed : Observed}
    {documents : List ConfigDocument}
    (sound : observed.Sound)
    (accepted : ∀ document ∈ documents, document.Accepted) :
    observed.AtEveryTick (fun before _ after => Faithful before after)
        documents ↔
      observed.AtEveryTick
        (fun before document _ => document.KeepsShared before.watcher)
        documents := by
  induction documents generalizing observed with
  | nil => exact Iff.rfl
  | cons document rest inductionHypothesis =>
      have restAccepted : ∀ later ∈ rest, later.Accepted :=
        fun later member => accepted later (by simp [member])
      constructor
      · intro run
        obtain ⟨next, ticked, faithful, remaining⟩ := run
        have nextSound :=
          sound.afterTick (accepted document (by simp)) ticked faithful
        exact ⟨next, ticked,
          (faithful_iff_keepsShared sound ticked).mp faithful,
          (inductionHypothesis nextSound restAccepted).mp remaining⟩
      · intro run
        obtain ⟨next, ticked, keepsShared, remaining⟩ := run
        have faithful :=
          (faithful_iff_keepsShared sound ticked).mpr keepsShared
        have nextSound :=
          sound.afterTick (accepted document (by simp)) ticked faithful
        exact ⟨next, ticked, faithful,
          (inductionHypothesis nextSound restAccepted).mpr remaining⟩

/--
In a run of the watcher over accepted versions of the files, every tick sends
exactly what differs from the value sent last and changes nothing that has been
handed out, exactly if no load gives a new entry to a map that is shared or a
new value to an element that is shared.
-/
theorem faithful_run_iff
    {growth : ArrayGrowth}
    {initial : ConfigDocument}
    {documents : List ConfigDocument}
    (accepted :
      ∀ document ∈ initial :: documents,
        ∃ loaded, loadFresh growth document = .ok loaded) :
    ∃ first,
      start growth initial = .ok first ∧
        (first.AtEveryTick (fun before _ after => Faithful before after)
            documents ↔
          first.AtEveryTick
            (fun before document _ => document.KeepsShared before.watcher)
            documents) := by
  have passes : ∀ document ∈ initial :: documents, document.Accepted := by
    intro document member
    obtain ⟨loaded, load⟩ := accepted document member
    exact accepted_of_load load
  obtain ⟨first, started, starts⟩ :=
    exists_start growth (passes initial (by simp))
  refine ⟨first, started, starts.sound.run ?_⟩
  intro document member
  exact passes document (by simp [member])

end Observed

/-- Versions of the files that add one class after the other. -/
theorem loadFresh_of_addedClasses (growth : ArrayGrowth) :
    ∀ document ∈
      [classDocument ["fast"], classDocument ["fast", "slow"],
        classDocument ["fast", "slow", "spare"]],
      ∃ loaded, loadFresh growth document = .ok loaded := by
  simp only [List.forall_mem_cons, exists_loadFresh_classDocument,
    List.not_mem_nil, IsEmpty.forall_iff, implies_true, and_self]

/-- The equivalence for these versions. -/
theorem faithful_run_iff_of_addedClasses :
    (∀ document ∈
        [classDocument ["fast"], classDocument ["fast", "slow"],
          classDocument ["fast", "slow", "spare"]],
        ∃ loaded, loadFresh doublingGrowth document = .ok loaded) ∧
      ∃ first,
        Observed.start doublingGrowth (classDocument ["fast"]) = .ok first ∧
          (first.AtEveryTick
              (fun before _ after => Observed.Faithful before after)
              [classDocument ["fast", "slow"],
                classDocument ["fast", "slow", "spare"]] ↔
            first.AtEveryTick
              (fun before document _ => document.KeepsShared before.watcher)
              [classDocument ["fast", "slow"],
                classDocument ["fast", "slow", "spare"]]) :=
  ⟨loadFresh_of_addedClasses doublingGrowth,
    Observed.faithful_run_iff (loadFresh_of_addedClasses doublingGrowth)⟩

/-- What a fresh load of a document with nothing but classes gives. -/
theorem over_classDocument (classNames : List String) :
    ((classDocument classNames).over defaultTarget).storageClassConfig =
      some fun className =>
        if className ∈ classNames then
          some acceptedSettings.withDefaults
        else
          none := by
  simp only [ConfigDocument.over, classDocument, overMap, defaultTarget,
    defaultContents,
    Option.map_some, Option.bind_some, Option.or_none, lookup_classMap]
  refine congrArg some (funext fun className => ?_)
  split <;> rfl

/-- The third version is written into the map that the second one shares. -/
theorem update_lost_in_shared_map :
    ∃ growth initial documents first,
      (∀ document ∈ initial :: documents,
        ∃ loaded, loadFresh growth document = .ok loaded) ∧
        Observed.start growth initial = .ok first ∧
        ¬ first.AtEveryTick
          (fun before _ after => Observed.Faithful before after)
          documents := by
  obtain ⟨first, started, starts⟩ :=
    Observed.exists_start doublingGrowth (accepted_classDocument ["fast"])
  refine ⟨_, _, _, first, loadFresh_of_addedClasses doublingGrowth, started, ?_⟩
  intro run
  obtain ⟨second, ticked, faithful, third, lastTicked, lastFaithful, _⟩ := run
  have bothPass := accepted_classDocument ["fast", "slow"]
  have secondSound := starts.sound.afterTick bothPass ticked faithful
  obtain ⟨_, sameTick, contents⟩ := starts.sound.exists_tick bothPass
  rw [ticked] at sameTick
  cases sameTick
  rw [starts.working] at contents
  have secondClasses := over_classDocument ["fast", "slow"]
  rw [← contents] at secondClasses
  have changed : second.loaded ≠ first.lastSent := by
    intro same
    have classes := secondClasses
    rw [same, starts.lastSent, over_classDocument] at classes
    have atSlow := congrFun (Option.some.inj classes) "slow"
    simp at atSlow
  have sent := faithful.sends.mpr changed
  obtain ⟨reference, held, lookups⟩ := Option.map_eq_some_iff.mp secondClasses
  have shared :
      some reference ∈
        second.watcher.handedOut.map fun config => config.storageClassConfig := by
    rw [Watcher.handedOut, sent]
    simp [held]
  have keepsShared :=
    (Observed.faithful_iff_keepsShared secondSound lastTicked).mp lastFaithful
  have kept :=
    keepsShared.classes reference _ "spare" acceptedSettings held shared rfl
      (by rw [lookup_classMap, if_pos (by simp)])
  have absent := congrFun lookups "spare"
  rw [kept] at absent
  simp at absent

end LocalProvisioner
