import LocalProvisioner.Configuration

namespace LocalProvisioner

/-!
# The configuration watcher

`ConfigWatcher.Run` loads the files again and again into one long-lived
configuration, compares the result with the configuration applied last, and
sends it to the controller if the two differ.  What an earlier version of the
files has set stays set when a later version leaves it out: removed classes and
labels remain, removed flags keep their values, and a field that an element of
a list leaves out keeps what the array had at its index.

The applied configuration is compared with a fresh load as the controller sees
it after the tick, with the contents its maps and arrays have then.
-/

/-- The flags of a `ProvisionerConfiguration` before anything is loaded. -/
def defaultFlags : ConfigFlags where
  useAlphaAPI := false
  useJobForCleaning := false
  minResyncPeriod := 5 * 60 * 1000000000
  useNodeNameOnly := false
  setPVOwnerRef := false
  removeNodeNotReadyTaint := false
  provisionerNotReadyNodeTaintKey := ""

/-- A default `ProvisionerConfiguration` with a new map for the classes. -/
def newConfiguration (memory : SharedMemory) :
    SharedMemory × ProvisionerConfiguration :=
  let allocated := memory.classes.alloc ∅
  ({ memory with classes := allocated.2 },
    { storageClassConfig := some allocated.1
      labelsForPV := none
      nodeLabelsForPV := none
      jobTolerations := none
      flags := defaultFlags })

/-- How the arrays of labels and of tolerations grow. -/
structure ArrayGrowth where
  nodeLabels : GrowthPolicy
  jobTolerations : GrowthPolicy

/-- The memory before anything is allocated. -/
def SharedMemory.blank (growth : ArrayGrowth) : SharedMemory where
  classes := .blank ∅
  labels := .blank ∅
  nodeLabels :=
    { arrays := .blank []
      pointed := .blank none
      growth := growth.nodeLabels }
  jobTolerations :=
    { arrays := .blank []
      pointed := .blank none
      growth := growth.jobTolerations }

/-- Load a document into a default configuration, as `main` does. -/
def loadFresh (growth : ArrayGrowth) (document : ConfigDocument) :
    Except String (SharedMemory × ProvisionerConfiguration) :=
  let (memory, config) := newConfiguration (.blank growth)
  configMapDataToVolumeConfig document memory config

/-- `reflect.DeepEqual` on map fields: both nil, or the same entries. -/
def deepEqualMaps
    {Value : Type}
    [DecidableEq Value]
    (maps : SharedCells (GoMap Value)) :
    Option Nat → Option Nat → Bool
  | none, none => true
  | some first, some second =>
      decide ((maps.read first).entries.Perm (maps.read second).entries)
  | _, _ => false

/--
`reflect.DeepEqual` on configurations.  Slices are equal if both are nil or both
have the same elements, behind their pointers.
-/
def deepEqual
    (memory : SharedMemory)
    (first second : ProvisionerConfiguration) :
    Bool :=
  deepEqualMaps memory.classes first.storageClassConfig
      second.storageClassConfig &&
    deepEqualMaps memory.labels first.labelsForPV second.labelsForPV &&
    decide ((first.contents memory).values = (second.contents memory).values)

/--
The watcher, the memory it shares with the controller, the configuration of
`main`, and what has been sent on the channel, newest first.
-/
structure Watcher where
  memory : SharedMemory
  provisionerConfig : ProvisionerConfiguration
  lastAppliedConfig : ProvisionerConfiguration
  initial : ProvisionerConfiguration
  sent : List ProvisionerConfiguration

namespace Watcher

/-- The watcher that `main` starts after its own load. -/
def start (growth : ArrayGrowth) (document : ConfigDocument) :
    Except String Watcher :=
  match loadFresh growth document with
  | .error err => .error err
  | .ok (memory, initial) =>
      let (memory, provisionerConfig) := newConfiguration memory
      .ok {
        memory
        provisionerConfig
        lastAppliedConfig := initial
        initial
        sent := [] }

/-- One round of the loop of `Run`. -/
def tick (watcher : Watcher) (document : ConfigDocument) :
    Except String Watcher :=
  match configMapDataToVolumeConfig document watcher.memory
      watcher.provisionerConfig with
  | .error err => .error err
  | .ok (memory, provisionerConfig) =>
      if deepEqual memory watcher.lastAppliedConfig provisionerConfig then
        .ok { watcher with memory, provisionerConfig }
      else
        .ok { watcher with
          memory
          provisionerConfig
          lastAppliedConfig := provisionerConfig
          sent := provisionerConfig :: watcher.sent }

/-- The rounds over a list of file versions. -/
def ticks : Watcher → List ConfigDocument → Except String Watcher
  | watcher, [] => .ok watcher
  | watcher, document :: rest =>
      match watcher.tick document with
      | .error err => .error err
      | .ok next => next.ticks rest

/-- The configuration that the controller has been given last. -/
def applied (watcher : Watcher) : ProvisionerConfiguration :=
  watcher.sent.headD watcher.initial

/-- The controller has what a fresh load of the document gives. -/
def Converged
    (growth : ArrayGrowth)
    (watcher : Watcher)
    (document : ConfigDocument) : Prop :=
  ∃ memory config,
    loadFresh growth document = .ok (memory, config) ∧
      watcher.applied.contents watcher.memory = config.contents memory

end Watcher

/-!
## What is left over from earlier loads
-/

/-- The contents of a default configuration. -/
def defaultContents : ConfigContents where
  storageClassConfig := some fun _ => none
  labelsForPV := none
  values :=
    { toConfigFlags := defaultFlags
      nodeLabelsForPV := none
      jobTolerations := none }

/-- A default configuration as a load finds it. -/
def defaultTarget : LoadTarget where
  contents := defaultContents
  labelArray := []
  tolerationArray := []

/--
Nothing of an earlier map is left over: a field that is left out is as in a
default configuration, and a map that is given has all the keys there were.
-/
def CoversMap
    {Value : Type}
    (given : Option (Option (GoMap Value)))
    (earlier fresh : Option (String → Option Value)) : Prop :=
  match given with
  | none => earlier = fresh
  | some none => True
  | some (some entries) =>
      ∀ key values,
        earlier = some values →
        key ∉ entries →
        values key = none

/--
Nothing of an earlier list is left over: a field that is left out is nil, and
each element that is given covers what the array has at its index.
-/
def CoversSlice
    {Given Value : Type}
    (covers : Given → Value → Prop)
    (given : Option (Option (List Given)))
    (earlier : Option (List Value))
    (array : List Value) : Prop :=
  match given with
  | none => earlier = none
  | some none => True
  | some (some elements) =>
      ∀ (index : Nat) element value,
        elements[index]? = some element →
        array[index]? = some value →
        covers element value

/-- A null label leaves an empty one. -/
def CoversLabel (label : Option String) (earlier : String) : Prop :=
  label = none → earlier = ""

/-- Every field that a toleration leaves out is empty. -/
@[mk_iff]
structure TolerationDocument.Covers
    (document : TolerationDocument)
    (earlier : Toleration) : Prop where
  key : document.key = none → earlier.key = ""
  operator : document.operator = none → earlier.operator = ""
  value : document.value = none → earlier.value = ""
  effect : document.effect = none → earlier.effect = ""
  tolerationSeconds :
    document.tolerationSeconds = none → earlier.tolerationSeconds = none

/-- Every flag that a document leaves out is the default one. -/
@[mk_iff]
structure ConfigDocument.CoversFlags
    (document : ConfigDocument)
    (earlier : ConfigFlags) : Prop where
  useAlphaAPI :
    document.useAlphaAPI = none →
    earlier.useAlphaAPI = defaultFlags.useAlphaAPI
  useJobForCleaning :
    document.useJobForCleaning = none →
    earlier.useJobForCleaning = defaultFlags.useJobForCleaning
  minResyncPeriod :
    document.minResyncPeriod = none →
    earlier.minResyncPeriod = defaultFlags.minResyncPeriod
  useNodeNameOnly :
    document.useNodeNameOnly = none →
    earlier.useNodeNameOnly = defaultFlags.useNodeNameOnly
  setPVOwnerRef :
    document.setPVOwnerRef = none →
    earlier.setPVOwnerRef = defaultFlags.setPVOwnerRef
  removeNodeNotReadyTaint :
    document.removeNodeNotReadyTaint = none →
    earlier.removeNodeNotReadyTaint = defaultFlags.removeNodeNotReadyTaint
  provisionerNotReadyNodeTaintKey :
    document.provisionerNotReadyNodeTaintKey = none →
    earlier.provisionerNotReadyNodeTaintKey =
      defaultFlags.provisionerNotReadyNodeTaintKey

/-- A document sets everything that an earlier configuration has set. -/
@[mk_iff]
structure ConfigDocument.Covers
    (document : ConfigDocument)
    (earlier : LoadTarget) : Prop where
  classes :
    CoversMap document.storageClassMap earlier.contents.storageClassConfig
      defaultContents.storageClassConfig
  labels :
    CoversMap document.labelsForPV earlier.contents.labelsForPV
      defaultContents.labelsForPV
  flags : document.CoversFlags earlier.contents.values.toConfigFlags
  nodeLabels :
    CoversSlice CoversLabel document.nodeLabelsForPV
      earlier.contents.values.nodeLabelsForPV earlier.labelArray
  jobTolerations :
    CoversSlice TolerationDocument.Covers document.jobTolerations
      earlier.contents.values.jobTolerations earlier.tolerationArray

/-- Two decodings of an optional value agree if it is given or they did before. -/
theorem getD_eq_getD_iff
    {α : Type}
    {given : Option α}
    {earlier fresh : α} :
    given.getD earlier = given.getD fresh ↔
      (given = none → earlier = fresh) := by
  cases given <;> simp

/-- Decoding two configurations gives the same flags if nothing is left over. -/
theorem decodeFlags_eq_iff
    {document : ConfigDocument}
    {earlier : ConfigFlags} :
    document.decodeFlags earlier = document.decodeFlags defaultFlags ↔
      document.CoversFlags earlier := by
  simp only [ConfigDocument.decodeFlags, ConfigFlags.mk.injEq,
    getD_eq_getD_iff, ConfigDocument.coversFlags_iff]

/-- Decoding into a slice and into none differ by what is left over. -/
theorem overSlice_eq_iff
    {Given Value : Type}
    {apply : Given → Value → Value}
    {blank : Value}
    {covers : Given → Value → Prop}
    (covers_iff :
      ∀ element value,
        apply element value = apply element blank ↔ covers element value)
    {given : Option (Option (List Given))}
    {earlier : Option (List Value)}
    {array : List Value} :
    overSlice apply blank given earlier array =
        overSlice apply blank given none [] ↔
      CoversSlice covers given earlier array := by
  rcases given with _ | _ | elements
  · exact Iff.rfl
  · simp [overSlice, CoversSlice]
  · simp only [overSlice, CoversSlice, Option.some.injEq,
      List.ext_getElem?_iff, getElem?_overElements, List.getElem?_nil,
      Option.getD_none]
    constructor
    · intro same index element value listed found
      have atIndex := same index
      rw [listed, found] at atIndex
      exact (covers_iff element value).mp (Option.some.inj atIndex)
    · intro covered index
      cases listed : elements[index]? with
      | none => rfl
      | some element =>
          cases found : array[index]? with
          | none => rfl
          | some value =>
              exact congrArg some ((covers_iff element value).mpr
                (covered index element value listed found))

/-- Decoding a label over another one gives it if it is not null. -/
theorem coversLabel_iff (label : Option String) (earlier : String) :
    label.getD earlier = label.getD blankLabel ↔ CoversLabel label earlier :=
  getD_eq_getD_iff

/-- Decoding a toleration over another one gives it if it sets all there was. -/
theorem TolerationDocument.over_eq_iff
    (document : TolerationDocument)
    (earlier : Toleration) :
    document.over earlier =
        document.over (.ofStored (blankToleration, none)) ↔
      document.Covers earlier := by
  simp only [TolerationDocument.over, Toleration.mk.injEq, getD_eq_getD_iff,
    TolerationDocument.covers_iff, Toleration.ofStored, blankToleration]

-- An element that names a key only keeps the effect of the one before it.
example :
    overSlice TolerationDocument.over (.ofStored (blankToleration, none))
        (some (some [{ key := some "b" }])) none
        [{ key := "a"
           operator := ""
           value := ""
           effect := "NoSchedule"
           tolerationSeconds := none }] =
      some
        [{ key := "b"
           operator := ""
           value := ""
           effect := "NoSchedule"
           tolerationSeconds := none }] :=
  rfl

/-- Decoding into a map and into an empty one differ by what is left over. -/
theorem overMap_eq_iff
    {Value : Type}
    (adjust : Value → Value)
    {given : Option (Option (GoMap Value))}
    {earlier fresh : Option (String → Option Value)}
    (empty : ∀ values ∈ fresh, ∀ key, values key = none) :
    ((overMap given earlier).map fun values key =>
        (values key).map adjust) =
      ((overMap given fresh).map fun values key =>
        (values key).map adjust) ↔
      CoversMap given earlier fresh := by
  have blank :
      ∀ key, (fresh.bind fun values => values key) = none := by
    intro key
    cases fresh with
    | none => rfl
    | some values => exact empty values rfl key
  rcases given with _ | _ | entries
  · simp only [overMap, CoversMap]
    constructor
    · intro same
      cases earlier with
      | none =>
          cases fresh with
          | none => rfl
          | some values => cases same
      | some kept =>
          cases fresh with
          | none => cases same
          | some values =>
              have keys := Option.some.inj same
              refine congrArg some (funext fun key => ?_)
              have none := empty values rfl key
              simpa [none] using congrFun keys key
    · intro same
      rw [same]
  · simp [overMap, CoversMap]
  · simp only [overMap, CoversMap, Option.map_some, Option.some.injEq,
      blank, Option.or_none, funext_iff]
    constructor
    · intro same key values kept absent
      have atKey := same key
      simpa [AList.lookup_eq_none.mpr absent, kept] using atKey
    · intro covered key
      by_cases member : key ∈ entries
      · obtain ⟨value, found⟩ := Option.isSome_iff_exists.mp
          (AList.lookup_isSome.mpr member)
        simp [found]
      · cases earlier with
        | none => simp
        | some values => simp [covered key values rfl member]

/-- A load agrees with a fresh one exactly if nothing is left over. -/
theorem over_eq_over_default_iff
    {document : ConfigDocument}
    {earlier : LoadTarget} :
    document.over earlier = document.over defaultTarget ↔
      document.Covers earlier := by
  have classes :=
    @overMap_eq_iff _ MountSettings.withDefaults document.storageClassMap
      earlier.contents.storageClassConfig defaultContents.storageClassConfig
      (by rintro values ⟨⟩ key; rfl)
  have labels :=
    @overMap_eq_iff _ id document.labelsForPV earlier.contents.labelsForPV
      defaultContents.labelsForPV nofun
  simp only [Option.map_id_fun, id_eq, Option.map_id_fun'] at labels
  have flags :
      document.decodeFlags earlier.contents.values.toConfigFlags =
          document.decodeFlags defaultFlags ↔ _ :=
    decodeFlags_eq_iff
  have nodeLabels :=
    @overSlice_eq_iff _ _ _ _ _ coversLabel_iff document.nodeLabelsForPV
      earlier.contents.values.nodeLabelsForPV earlier.labelArray
  have jobTolerations :=
    @overSlice_eq_iff _ _ _ _ _ TolerationDocument.over_eq_iff
      document.jobTolerations earlier.contents.values.jobTolerations
      earlier.tolerationArray
  simp only [ConfigDocument.over, ConfigContents.mk.injEq,
    ConfigValues.mk.injEq, ConfigDocument.covers_iff]
  exact and_congr classes (and_congr labels (and_congr flags
    (and_congr nodeLabels jobTolerations)))

/-!
## What a tick applies
-/

/-- A default configuration is a default target. -/
theorem target_newConfiguration (memory : SharedMemory) :
    (newConfiguration memory).2.target (newConfiguration memory).1 =
      defaultTarget := by
  simp only [newConfiguration, ProvisionerConfiguration.target,
    ProvisionerConfiguration.contents, Option.map_some,
    SharedCells.read_alloc_self, AList.lookup_empty, Option.map_none,
    defaultTarget, defaultContents, SliceMemory.backing?, Option.elim_none,
    List.map_nil]

/-- A default configuration refers to no array. -/
theorem holdsSlices_newConfiguration (memory : SharedMemory) :
    (newConfiguration memory).2.HoldsSlices (newConfiguration memory).1 := by
  constructor <;> rintro slice ⟨⟩

/-- A new map leaves the arrays alone. -/
theorem SharedMemory.SlicesSound.newConfiguration
    {memory : SharedMemory}
    (sound : memory.SlicesSound) :
    (newConfiguration memory).1.SlicesSound :=
  ⟨sound.nodeLabels, sound.jobTolerations⟩

/-- There are no pointers before anything is allocated. -/
theorem SharedMemory.SlicesSound.blank (growth : ArrayGrowth) :
    (SharedMemory.blank growth).SlicesSound := by
  constructor <;> constructor <;> intros <;>
    simp_all [SliceMemory.pointer?, SliceMemory.element?, SharedMemory.blank]

/-- A new map has no class that could fail the checks. -/
theorem SharedMemory.AllAccepted.newConfiguration
    {memory : SharedMemory}
    (allAccepted : memory.AllAccepted) :
    (newConfiguration memory).1.AllAccepted := by
  intro reference className config found
  simp only [LocalProvisioner.newConfiguration,
    SharedCells.read_alloc] at found
  split at found
  · simp at found
  · exact allAccepted reference className config found

/-- A fresh load of an accepted document. -/
theorem exists_loadFresh
    {document : ConfigDocument}
    (growth : ArrayGrowth)
    (accepted : document.Accepted) :
    ∃ memory config,
      loadFresh growth document = .ok (memory, config) ∧
        memory.AllAccepted ∧
        DecodesSlices document (newConfiguration (.blank growth)).1
          (newConfiguration (.blank growth)).2 memory config ∧
        config.contents memory = document.over defaultTarget := by
  have blank : (SharedMemory.blank growth).AllAccepted := by
    intro reference className config found
    simp [SharedMemory.blank] at found
  have sound := (SharedMemory.SlicesSound.blank growth).newConfiguration
  have holds := holdsSlices_newConfiguration (.blank growth)
  obtain ⟨memory, config, loaded, allAccepted, contents⟩ :=
    load_of_accepted blank.newConfiguration accepted sound holds
  rw [target_newConfiguration] at contents
  exact ⟨memory, config, loaded, allAccepted,
    decodesSlices_of_load sound holds loaded, contents⟩

/-- Maps are deeply equal exactly if they have the same contents. -/
theorem deepEqualMaps_iff_lookups
    {Value : Type}
    [DecidableEq Value]
    {maps : SharedCells (GoMap Value)}
    {first second : Option Nat} :
    deepEqualMaps maps first second = true ↔
      (first.map fun reference key => (maps.read reference).lookup key) =
        second.map fun reference key => (maps.read reference).lookup key := by
  cases first with
  | none => cases second <;> simp [deepEqualMaps]
  | some first =>
      cases second with
      | none => simp [deepEqualMaps]
      | some second =>
          simp only [deepEqualMaps, decide_eq_true_eq, Option.map_some,
            Option.some.injEq, funext_iff]
          constructor
          · intro permuted key
            exact AList.perm_lookup permuted
          · intro same
            apply List.lookup_ext (maps.read first).nodupKeys
              (maps.read second).nodupKeys
            intro key value
            exact Eq.to_iff (congrArg (value ∈ ·) (same key))

/-- Configurations are deeply equal exactly if they have the same contents. -/
theorem deepEqual_iff_contents
    {memory : SharedMemory}
    {first second : ProvisionerConfiguration} :
    deepEqual memory first second = true ↔
      first.contents memory = second.contents memory := by
  rw [deepEqual, Bool.and_eq_true, Bool.and_eq_true, decide_eq_true_iff,
    deepEqualMaps_iff_lookups, deepEqualMaps_iff_lookups, and_assoc]
  exact (ConfigContents.mk.injEq ..).symm.to_iff

namespace Watcher

/--
All classes have passed, the watcher knows what has been applied, and its arrays
are allocated.
-/
structure Sound (watcher : Watcher) : Prop where
  allAccepted : watcher.memory.AllAccepted
  lastApplied : watcher.lastAppliedConfig = watcher.applied
  slices : watcher.memory.SlicesSound
  working : watcher.provisionerConfig.HoldsSlices watcher.memory

/-- The watcher starts after an accepted load. -/
theorem exists_start
    {document : ConfigDocument}
    (growth : ArrayGrowth)
    (accepted : document.Accepted) :
    ∃ watcher, start growth document = .ok watcher ∧ watcher.Sound := by
  obtain ⟨memory, config, loaded, allAccepted, decodes, _⟩ :=
    exists_loadFresh growth accepted
  refine ⟨_, by rw [start, loaded], ?_⟩
  exact ⟨allAccepted.newConfiguration, rfl, decodes.sound.newConfiguration,
    holdsSlices_newConfiguration memory⟩

/--
A tick loads over the watcher's configuration, and afterwards the controller
has the contents of that configuration.
-/
theorem exists_tick
    {watcher : Watcher}
    {document : ConfigDocument}
    (sound : watcher.Sound)
    (accepted : document.Accepted) :
    ∃ next,
      watcher.tick document = .ok next ∧
        next.Sound ∧
        next.provisionerConfig.contents next.memory =
          document.over (watcher.provisionerConfig.target watcher.memory) ∧
        next.applied.contents next.memory =
          next.provisionerConfig.contents next.memory := by
  obtain ⟨memory, config, loaded, allAccepted, contents⟩ :=
    load_of_accepted sound.allAccepted accepted sound.slices sound.working
  have decodes := decodesSlices_of_load sound.slices sound.working loaded
  simp only [tick, loaded]
  split
  · rename_i equal
    rw [sound.lastApplied] at equal
    exact ⟨_, rfl,
      ⟨allAccepted, sound.lastApplied, decodes.sound, decodes.holds⟩, contents,
      deepEqual_iff_contents.mp equal⟩
  · exact ⟨_, rfl, ⟨allAccepted, rfl, decodes.sound, decodes.holds⟩, contents,
      rfl⟩

/-- A run of ticks over accepted documents. -/
theorem exists_ticks
    {watcher : Watcher}
    {documents : List ConfigDocument}
    (sound : watcher.Sound)
    (accepted : ∀ document ∈ documents, document.Accepted) :
    ∃ last, watcher.ticks documents = .ok last ∧ last.Sound := by
  induction documents generalizing watcher with
  | nil => exact ⟨watcher, rfl, sound⟩
  | cons document rest inductionHypothesis =>
      obtain ⟨next, ticked, nextSound, _⟩ :=
        exists_tick sound (accepted document (by simp))
      obtain ⟨last, ticks, lastSound⟩ :=
        inductionHypothesis nextSound fun later member =>
          accepted later (by simp [member])
      exact ⟨last, by simpa [Watcher.ticks, ticked] using ticks, lastSound⟩

/-- A tick converges exactly if nothing is left over from before it. -/
theorem converged_iff_of_tick
    {growth : ArrayGrowth}
    {watcher next : Watcher}
    {document : ConfigDocument}
    (sound : watcher.Sound)
    (accepted : document.Accepted)
    (ticked : watcher.tick document = .ok next) :
    next.Converged growth document ↔
      document.Covers
        (watcher.provisionerConfig.target watcher.memory) := by
  obtain ⟨_, sameTick, _, loadedOver, applied⟩ := exists_tick sound accepted
  rw [ticked] at sameTick
  cases sameTick
  obtain ⟨memory, config, loaded, _, _, fresh⟩ :=
    exists_loadFresh growth accepted
  rw [← over_eq_over_default_iff, ← loadedOver, ← applied, ← fresh]
  constructor
  · intro converged
    obtain ⟨otherMemory, otherConfig, otherLoaded, same⟩ := converged
    rw [loaded] at otherLoaded
    cases otherLoaded
    exact same
  · intro same
    exact ⟨memory, config, loaded, same⟩

/--
Whatever accepted versions of the files have been loaded before, a tick on an
accepted version leaves the controller with what a fresh load of it gives,
exactly if it sets everything that the watcher's configuration had set.
-/
theorem converged_iff_covers
    {growth : ArrayGrowth}
    {initial current : ConfigDocument}
    {earlier : List ConfigDocument}
    (accepted :
      ∀ document ∈ initial :: current :: earlier,
        ∃ loaded, loadFresh growth document = .ok loaded) :
    ∃ first watcher next,
      start growth initial = .ok first ∧
        first.ticks earlier = .ok watcher ∧
        watcher.tick current = .ok next ∧
        (next.Converged growth current ↔
          current.Covers
            (watcher.provisionerConfig.target watcher.memory)) := by
  have passes :
      ∀ document ∈ initial :: current :: earlier, document.Accepted := by
    intro document member
    obtain ⟨loaded, load⟩ := accepted document member
    exact accepted_of_load load
  have earlierPass : ∀ document ∈ earlier, document.Accepted :=
    fun document member => passes document (by simp [member])
  have currentPasses : current.Accepted := passes current (by simp)
  obtain ⟨first, started, firstSound⟩ :=
    exists_start growth (passes initial (by simp))
  obtain ⟨watcher, ticked, sound⟩ := exists_ticks firstSound earlierPass
  obtain ⟨next, last, _⟩ := exists_tick sound currentPasses
  exact ⟨first, watcher, next, started, ticked, last,
    converged_iff_of_tick sound currentPasses last⟩

/-- A class that the files no longer mention stays with the controller. -/
theorem not_converged_of_droppedClass
    {growth : ArrayGrowth}
    {watcher middle next : Watcher}
    {before after : ConfigDocument}
    {given remaining : GoMap MountSettings}
    {className : String}
    (sound : watcher.Sound)
    (beforeAccepted : before.Accepted)
    (afterAccepted : after.Accepted)
    (first : watcher.tick before = .ok middle)
    (second : middle.tick after = .ok next)
    (mentions : before.storageClassMap = some (some given))
    (drops : after.storageClassMap = some (some remaining))
    (member : className ∈ given)
    (dropped : className ∉ remaining) :
    ¬ next.Converged growth after := by
  obtain ⟨_, sameTick, middleSound, contents, _⟩ :=
    exists_tick sound beforeAccepted
  rw [first] at sameTick
  cases sameTick
  rw [converged_iff_of_tick middleSound afterAccepted second]
  intro covers
  have covered := covers.classes
  rw [ProvisionerConfiguration.target, contents, drops] at covered
  have gone := covered className _ (by rw [ConfigDocument.over, mentions]; rfl)
    dropped
  obtain ⟨settings, found⟩ := Option.isSome_iff_exists.mp
    (AList.lookup_isSome.mpr member)
  simp [found] at gone

end Watcher

/-- A class that is accepted as it stands. -/
def acceptedSettings : MountSettings where
  hostDir := "/mnt/disks"
  mountDir := "/mnt/disks"

/-- Classes that are configured alike. -/
def classMap : List String → GoMap MountSettings
  | [] => ∅
  | className :: rest => (classMap rest).insert className acceptedSettings

theorem mem_classMap {className : String} {classNames : List String} :
    className ∈ classMap classNames ↔ className ∈ classNames := by
  induction classNames with
  | nil => simp [classMap]
  | cons name rest inductionHypothesis =>
      simp [classMap, inductionHypothesis]

/-- The settings of these classes. -/
theorem lookup_classMap (classNames : List String) (className : String) :
    (classMap classNames).lookup className =
      if className ∈ classNames then some acceptedSettings else none := by
  induction classNames with
  | nil => simp [classMap]
  | cons name rest inductionHypothesis =>
      by_cases same : className = name
      · subst same
        rw [classMap, AList.lookup_insert, if_pos (by simp)]
      · rw [classMap, AList.lookup_insert_ne same, inductionHypothesis]
        simp [same]

/-- A document that mentions nothing but classes. -/
def classDocument (classNames : List String) : ConfigDocument where
  storageClassMap := some (some (classMap classNames))

/-- Every such document is accepted. -/
theorem accepted_classDocument (classNames : List String) :
    (classDocument classNames).Accepted := by
  intro entries className config mentioned found
  cases mentioned
  rw [lookup_classMap] at found
  split at found
  · cases found
    decide
  · cases found

/-- Every such document is loaded. -/
theorem exists_loadFresh_classDocument
    (growth : ArrayGrowth)
    (classNames : List String) :
    ∃ loaded, loadFresh growth (classDocument classNames) = .ok loaded := by
  obtain ⟨memory, config, loaded, _⟩ :=
    exists_loadFresh growth (accepted_classDocument classNames)
  exact ⟨_, loaded⟩

/-- A full array is replaced by one of more than twice its room. -/
def doublingGrowth : ArrayGrowth where
  nodeLabels := ⟨fun room => 2 * room + 1, by intro room; omega⟩
  jobTolerations := ⟨fun room => 2 * room + 1, by intro room; omega⟩

/-- The versions of the files in which a class is added and removed again. -/
theorem loadFresh_of_removedClass (growth : ArrayGrowth) :
    ∀ document ∈
      [classDocument ["fast"], classDocument ["fast"],
        classDocument ["fast", "slow"]],
      ∃ loaded, loadFresh growth document = .ok loaded := by
  simp only [List.forall_mem_cons, exists_loadFresh_classDocument,
    List.not_mem_nil, IsEmpty.forall_iff, implies_true, and_self]

/-- The equivalence for these versions. -/
theorem converged_iff_covers_of_removedClass :
    (∀ document ∈
        [classDocument ["fast"], classDocument ["fast"],
          classDocument ["fast", "slow"]],
        ∃ loaded, loadFresh doublingGrowth document = .ok loaded) ∧
      ∃ first watcher next,
        Watcher.start doublingGrowth (classDocument ["fast"]) = .ok first ∧
          first.ticks [classDocument ["fast", "slow"]] = .ok watcher ∧
          watcher.tick (classDocument ["fast"]) = .ok next ∧
          (next.Converged doublingGrowth (classDocument ["fast"]) ↔
            (classDocument ["fast"]).Covers
              (watcher.provisionerConfig.target watcher.memory)) :=
  ⟨loadFresh_of_removedClass doublingGrowth,
    Watcher.converged_iff_covers (loadFresh_of_removedClass doublingGrowth)⟩

/-- The removed class is still applied after the last tick. -/
theorem removed_class_stays_applied :
    ∃ growth initial current earlier first watcher next,
      (∀ document ∈ initial :: current :: earlier,
        ∃ loaded, loadFresh growth document = .ok loaded) ∧
        Watcher.start growth initial = .ok first ∧
        first.ticks earlier = .ok watcher ∧
        watcher.tick current = .ok next ∧
        ¬ next.Converged growth current := by
  have bothPass := accepted_classDocument ["fast", "slow"]
  have onePasses := accepted_classDocument ["fast"]
  obtain ⟨first, started, firstSound⟩ :=
    Watcher.exists_start doublingGrowth onePasses
  obtain ⟨watcher, ticked, sound, _⟩ :=
    Watcher.exists_tick firstSound bothPass
  obtain ⟨next, last, _⟩ := Watcher.exists_tick sound onePasses
  refine ⟨_, _, _, [classDocument ["fast", "slow"]], first, watcher, next,
    loadFresh_of_removedClass doublingGrowth, started,
    by simp [Watcher.ticks, ticked], last, ?_⟩
  have added : "slow" ∈ classMap ["fast", "slow"] :=
    mem_classMap.mpr (by simp)
  have removed : "slow" ∉ classMap ["fast"] :=
    mem_classMap.not.mpr (by simp)
  exact Watcher.not_converged_of_droppedClass firstSound bothPass onePasses
    ticked last rfl rfl added removed

end LocalProvisioner
