import LocalProvisioner.OwnNames

namespace LocalProvisioner

open Interleaving

/-!
# A fleet of provisioners

A cluster runs one provisioner on each node, and all of them share one API
server.  Each has its own cache, table, cleaners and instance, and is told of
the changes that any of them makes.  The steps of the members are interleaved
in every possible way.  The answers to a member say how many UIDs others have
been given meanwhile, so the runs in which no UID is given twice are among
them.

The members have different PV names, and none takes the PVs of another for its
own.  Then each of them behaves as if it were alone: what it does in a run of
the fleet is a run of one provisioner, in the part of the world that is about
its own names.  So whatever holds in every run of one provisioner holds for
every member of a fleet.
-/

/--
The members of a fleet: the PV names of their files, and the configurations
they may be given.  A PV that a member has provisioned is not taken for its
own by another one.
-/
structure Fleet (Member : Type) where
  names : Member → String → Bool
  runtimes : Member → RuntimeConfig → Prop
  apart :
    ∀ {one other : Member} {pvName : String},
      names one pvName = true →
      names other pvName = true →
      one = other
  strangers :
    ∀ {one other : Member},
      one ≠ other →
      ∀ {mine yours : RuntimeConfig},
        runtimes one mine →
        runtimes other yours →
        ∀ pv : PersistentVolume,
          pv.annotations.lookup annProvisionedBy = some yours.name →
          pv.labels.lookup hostnameLabel =
            (labelsForPVs yours).lookup hostnameLabel →
          ownsPV mine pv = false

/-- A provisioner, with the part of its world that is about these names. -/
def SyncState.part (state : SyncState) (keep : String → Bool) : SyncState :=
  { state with world := state.world.part keep }

/-- A provisioner sees what another one has done to the API server. -/
def SyncState.observe (state : SyncState) (before after : World) : SyncState :=
  { state with world := state.world.observe before after }

/-- The actions that the other members are told of. -/
def Action.tells : Action → Bool
  | .call _ => true
  | .disturb _ => true
  | _ => false

namespace Fleet

variable {Member : Type}

/-- A member does not take the PV for its own. -/
def Foreign (fleet : Fleet Member) (member : Member) (pv : PersistentVolume) :
    Prop :=
  ∀ runtime, fleet.runtimes member runtime → ownsPV runtime pv = false

/-- Nobody but the member with its name takes the PV for its own. -/
def Proper (fleet : Fleet Member) (pv : PersistentVolume) : Prop :=
  ∀ member, fleet.names member pv.name = false → fleet.Foreign member pv

/--
What is assumed of a member: besides the conditions on its runs, that the files
it finds have its names, and that what happens to the PVs and jobs of its names
hands none of them over to another member.
-/
def alone (fleet : Fleet Member) (conditions : Conditions) (member : Member) :
    Conditions :=
  Conditions.within
    { conditions with
      configuration := fun runtime =>
        conditions.configuration runtime ∧ fleet.runtimes member runtime
      disturbance := fun disturbance world =>
        conditions.disturbance disturbance world ∧
          ∀ pv, disturbance = .updatePV pv → fleet.Proper pv }
    (fleet.names member)

/-- A member, with its part of the world. -/
def view
    (fleet : Fleet Member)
    (state : Member → SyncState)
    (member : Member) :
    SyncState :=
  (state member).part (fleet.names member)

/-- The actions that the conditions admit. -/
def permits
    (fleet : Fleet Member)
    (conditions : Conditions)
    (state : Member → SyncState)
    (action : Member × Action) : Prop :=
  (fleet.alone conditions action.1).permits (fleet.view state action.1) action.2

/-- The first instances of all members. -/
def started
    (fleet : Fleet Member)
    (conditions : Conditions)
    (state : Member → SyncState) : Prop :=
  ∀ member, (fleet.alone conditions member).started (state member)

variable [DecidableEq Member]

/-- One step of a member; the others see what it does to the API server. -/
def step
    (state : Member → SyncState)
    (action : Member × Action) :
    Option (Member → SyncState) :=
  (LocalProvisioner.step (state action.1) action.2).map fun next member =>
    if member = action.1 then
      next
    else if action.2.tells then
      (state member).observe (state action.1).world next.world
    else
      state member

/-- The states of the runs of a fleet. -/
abbrev Reaches
    (fleet : Fleet Member)
    (conditions : Conditions)
    (state : Member → SyncState) : Prop :=
  Reachable step (fleet.permits conditions) (fleet.started conditions) state

end Fleet

/-!
## What a step tells
-/

/-- The PVs of the API server and those on their way have a property. -/
structure World.AllPVs (property : PersistentVolume → Prop) (world : World) :
    Prop where
  pvs : ∀ pv ∈ world.pvs.list, property pv
  pvNotices : ∀ notice ∈ world.pvNotices, property notice.object

namespace World.AllPVs

variable {property : PersistentVolume → Prop}
variable {world later : World}

theorem empty : World.empty.AllPVs property := by
  constructor <;> intro _ member <;> cases member

theorem congr
    (all : world.AllPVs property)
    (pvs : later.pvs = world.pvs)
    (pvNotices : later.pvNotices = world.pvNotices) :
    later.AllPVs property where
  pvs := by rw [pvs]; exact all.pvs
  pvNotices := by rw [pvNotices]; exact all.pvNotices

theorem putPV
    {pv : PersistentVolume}
    (all : world.AllPVs property)
    (holds : property pv) :
    (world.putPV pv).AllPVs property where
  pvs := by
    intro other listed
    have stored := ObjectStore.mem_list.mp listed
    rw [World.putPV, ObjectStore.get_put] at stored
    split at stored
    · cases stored
      exact holds
    · exact all.pvs other (ObjectStore.mem_list.mpr stored)
  pvNotices := by
    intro notice member
    rcases List.mem_append.mp member with earlier | isNew
    · exact all.pvNotices notice earlier
    · obtain rfl := List.mem_singleton.mp isNew
      exact holds

theorem dropPV
    {pv : PersistentVolume}
    (all : world.AllPVs property)
    (holds : property pv) :
    (world.dropPV pv).AllPVs property where
  pvs := by
    intro other listed
    have stored := ObjectStore.mem_list.mp listed
    exact all.pvs other
      (ObjectStore.mem_list.mpr (ObjectStore.get_of_get_drop stored))
  pvNotices := by
    intro notice member
    rcases List.mem_append.mp member with earlier | isNew
    · exact all.pvNotices notice earlier
    · obtain rfl := List.mem_singleton.mp isNew
      exact holds

/-- Stored PVs have the property. -/
theorem of_get
    {pvName : String}
    {pv : PersistentVolume}
    (all : world.AllPVs property)
    (stored : world.pvs.get pvName = some pv) :
    property pv :=
  all.pvs pv (ObjectStore.mem_list.mpr (ObjectStore.get_name stored))

/-- A call keeps the property if its creations have it. -/
theorem exec
    {op : Op}
    {answers : Answers}
    {reply : op.Reply}
    (all : world.AllPVs property)
    (created : ∀ pv uid, op = .createPV pv → property { pv with uid })
    (marked :
      ∀ pv now,
        property pv → property { pv with deletionTimestamp := some now })
    (executed : LocalProvisioner.exec op answers world = some (reply, later)) :
    later.AllPVs property := by
  cases effect_of_exec executed with
  | recorded | tookEntry | createdJob | markedJob => exact all.congr rfl rfl
  | spawned work =>
      unfold World.execSpawnCleaner
      split
      · exact all.congr rfl rfl
      · exact all.congr rfl rfl
  | createdPV pv free =>
      exact (all.putPV (created pv (world.freshUID answers) rfl)).congr rfl rfl
  | markedPV pvName pv found =>
      exact (all.putPV (marked pv answers.now (all.of_get found))).congr rfl rfl
  | removedPV pvName pv found =>
      exact (all.dropPV (all.of_get found)).congr rfl rfl

/-- So does a move of the surroundings, if its update has it. -/
theorem disturb
    {runtime : RuntimeConfig}
    {disturbance : Disturbance}
    (all : world.AllPVs property)
    (updated : ∀ pv, disturbance = .updatePV pv → property pv)
    (moved : world.disturb runtime disturbance = some later) :
    later.AllPVs property := by
  cases disturbance with
  | cleanerFinishes index performed =>
      obtain ⟨cleaner, found, rfl⟩ := Option.map_eq_some_iff.mp moved
      exact all.congr rfl rfl
  | overwriteCache cache =>
      cases moved
      exact all.congr rfl rfl
  | updatePV pv =>
      simp only [World.disturb] at moved
      split at moved
      · cases moved
      · split at moved
        · cases moved
          exact all.putPV (updated pv rfl)
        · cases moved
  | removePV pvName =>
      obtain ⟨pv, stored, rfl⟩ := Option.map_eq_some_iff.mp moved
      exact all.dropPV (all.of_get stored)
  | jobSucceeds jobName =>
      simp only [World.disturb] at moved
      split at moved
      · cases moved
      · split at moved
        · cases moved
          exact all.congr rfl rfl
        · cases moved
  | markJobDeleted jobName now =>
      obtain ⟨job, stored, rfl⟩ := Option.map_eq_some_iff.mp moved
      exact all.congr rfl rfl
  | removeJob jobName =>
      obtain ⟨job, stored, rfl⟩ := Option.map_eq_some_iff.mp moved
      exact all.congr rfl rfl
  | deliverPV =>
      simp only [World.disturb] at moved
      split at moved
      · cases moved
      · rename_i notice rest pending
        cases moved
        refine ⟨all.pvs, ?_⟩
        intro other member
        refine all.pvNotices other ?_
        rw [pending]
        exact List.mem_cons_of_mem _ member
  | deliverJob =>
      simp only [World.disturb] at moved
      split at moved
      · cases moved
      · cases moved
        exact all.congr rfl rfl

theorem newInstance (all : world.AllPVs property) :
    world.newInstance.AllPVs property where
  pvs := all.pvs
  pvNotices := by
    intro notice member
    obtain ⟨pv, listed, rfl⟩ := List.mem_map.mp member
    exact all.pvs pv listed

/-- Others are told of PVs with the property only. -/
theorem observe
    {before after : World}
    (all : world.AllPVs property)
    (told : after.AllPVs property) :
    (world.observe before after).AllPVs property where
  pvs := told.pvs
  pvNotices := by
    intro notice member
    rcases List.mem_append.mp member with earlier | isNew
    · exact all.pvNotices notice earlier
    · exact told.pvNotices notice (List.mem_of_mem_drop isNew)

end World.AllPVs

/-!
## Steps in a part of the world
-/

/-- A PV that is neither cached nor owned is ignored. -/
theorem World.handlePVNotice_of_foreign
    {runtime : RuntimeConfig}
    {cache : VolumeCache}
    {notice : Notice PersistentVolume}
    (uncached : VolumeCache.getPV cache notice.object.name = none)
    (foreign : ownsPV runtime notice.object = false) :
    World.handlePVNotice runtime cache notice = cache := by
  cases notice with
  | updated pv =>
      change VolumeCache.getPV cache pv.name = none at uncached
      change ownsPV runtime pv = false at foreign
      simp [World.handlePVNotice, handlePVUpdate, uncached, foreign]
  | deleted pv =>
      change VolumeCache.getPV cache pv.name = none at uncached
      simp [World.handlePVNotice, handlePVDelete, uncached]

/--
A step of a provisioner about these names is one in their part of the world,
unless it does nothing there.
-/
theorem step_part
    {keep : String → Bool}
    {state next : SyncState}
    {action : Action}
    (calls : ∀ op rest, state.rest = .call op rest → op.Within keep)
    (disturbs :
      ∀ disturbance, action = .disturb disturbance → disturbance.Within keep)
    (foreign :
      ∀ notice ∈ state.world.pvNotices,
        keep notice.object.name = false →
        World.handlePVNotice state.discoverer.toRuntimeConfig
          state.world.cache notice = state.world.cache)
    (stepped : step state action = some next) :
    next.part keep = state.part keep ∨
      step (state.part keep) action = some (next.part keep) := by
  obtain ⟨discoverer, rest, world⟩ := state
  cases action with
  | call answers =>
      cases rest with
      | done value => cases stepped
      | call op continuation =>
          obtain ⟨outcome, executed, rfl⟩ := Option.map_eq_some_iff.mp stepped
          right
          have inPart := exec_part (calls op continuation rfl) answers world
          simp only [step, SyncState.part, inPart, executed, Option.map_some]
  | disturb disturbance =>
      obtain ⟨later, moved, rfl⟩ := Option.map_eq_some_iff.mp stepped
      have ignores :
          ∀ notice pending,
            world.pvNotices = notice :: pending →
            keep notice.object.name = false →
            World.handlePVNotice discoverer.toRuntimeConfig world.cache notice =
              world.cache := by
        intro notice pending shape
        refine foreign notice ?_
        rw [shape]
        exact List.mem_cons_self
      rcases World.disturb_part (disturbs disturbance rfl) moved ignores with
        same | inPart
      · left
        simp only [SyncState.part, same]
      · right
        simp only [step, SyncState.part, inPart, Option.map_some]
  | beginPass =>
      cases rest with
      | done value =>
          cases stepped
          exact .inr rfl
      | call op continuation => cases stepped
  | reload runtime =>
      cases rest with
      | done value =>
          simp only [step] at stepped
          split at stepped
          · rename_i made
            cases stepped
            right
            simp only [step, SyncState.part, made, World.newInstance_part]
          · cases stepped
      | call op continuation => cases stepped
  | restart runtime =>
      simp only [step] at stepped
      split at stepped
      · rename_i made
        cases stepped
        right
        simp only [step, SyncState.part, made, World.newProcess_part]
      · cases stepped

/-- What a step about some names does is not about others. -/
theorem spares_of_step
    {mine yours : String → Bool}
    {state next : SyncState}
    {action : Action}
    (apart : ∀ pvName, mine pvName = true → yours pvName = false)
    (calls : ∀ op rest, state.rest = .call op rest → op.Within mine)
    (disturbs :
      ∀ disturbance, action = .disturb disturbance → disturbance.Within mine)
    (tells : action.tells = true)
    (stepped : step state action = some next) :
    World.Spares yours state.world next.world := by
  obtain ⟨discoverer, rest, world⟩ := state
  cases action with
  | call answers =>
      cases rest with
      | done value => cases stepped
      | call op continuation =>
          obtain ⟨outcome, executed, rfl⟩ := Option.map_eq_some_iff.mp stepped
          exact World.spares_of_exec apart (calls op continuation rfl) executed
  | disturb disturbance =>
      obtain ⟨later, moved, rfl⟩ := Option.map_eq_some_iff.mp stepped
      exact World.spares_of_disturb apart (disturbs disturbance rfl) moved
  | beginPass => cases tells
  | reload runtime => cases tells
  | restart runtime => cases tells

/-- An action of which nobody is told leaves the API server as it is. -/
theorem server_of_silent_step
    {state next : SyncState}
    {action : Action}
    (silent : action.tells = false)
    (stepped : step state action = some next) :
    next.world.pvs = state.world.pvs ∧ next.world.jobs = state.world.jobs := by
  obtain ⟨discoverer, rest, world⟩ := state
  cases action with
  | call answers => cases silent
  | disturb disturbance => cases silent
  | beginPass =>
      cases rest with
      | done value =>
          cases stepped
          exact ⟨rfl, rfl⟩
      | call op continuation => cases stepped
  | reload runtime =>
      cases rest with
      | done value =>
          simp only [step] at stepped
          split at stepped
          · cases stepped
            exact ⟨rfl, rfl⟩
          · cases stepped
      | call op continuation => cases stepped
  | restart runtime =>
      simp only [step] at stepped
      split at stepped
      · cases stepped
        exact ⟨rfl, rfl⟩
      · cases stepped

/-!
## The instances of a run
-/

/-- The labels of a discoverer are those of its configuration. -/
theorem labels_of_newDiscoverer
    {runtime : RuntimeConfig}
    {discoverer : Discoverer}
    (made : newDiscoverer runtime = .ok discoverer) :
    discoverer.labels = labelsForPVs discoverer.toRuntimeConfig := by
  rw [toRuntimeConfig_newDiscoverer made]
  unfold newDiscoverer at made
  split at made
  · cases made
  · split at made
    · cases made
    · cases made
      rfl

/-- So are those of every instance of a run. -/
theorem labels_of_reaches
    {conditions : Conditions}
    {state : SyncState}
    (reaches : conditions.Reaches state) :
    state.discoverer.labels =
      labelsForPVs state.discoverer.toRuntimeConfig := by
  refine @Reachable.invariant _ _ _ _ _
    (fun state : SyncState =>
      state.discoverer.labels = labelsForPVs state.discoverer.toRuntimeConfig)
    ?_ ?_ _ reaches
  · rintro _ ⟨runtime, discoverer, _, made, rfl⟩
    exact labels_of_newDiscoverer made
  · rintro ⟨discoverer, rest, world⟩ action later same _ stepped
    cases action with
    | call answers =>
        cases rest with
        | done value => cases stepped
        | call op next =>
            obtain ⟨outcome, _, rfl⟩ := Option.map_eq_some_iff.mp stepped
            exact same
    | disturb disturbance =>
        obtain ⟨moved, _, rfl⟩ := Option.map_eq_some_iff.mp stepped
        exact same
    | beginPass =>
        cases rest with
        | done value =>
            cases stepped
            exact same
        | call op next => cases stepped
    | reload runtime =>
        cases rest with
        | done value =>
            simp only [step] at stepped
            split at stepped
            · rename_i made
              cases stepped
              exact labels_of_newDiscoverer made
            · cases stepped
        | call op next => cases stepped
    | restart runtime =>
        simp only [step] at stepped
        split at stepped
        · rename_i made
          cases stepped
          exact labels_of_newDiscoverer made
        · cases stepped

/-- A PV is annotated with the name of the provisioner that makes it. -/
theorem provisionedBy_localPV
    (discoverer : Discoverer)
    (candidate : Candidate)
    (mountOptions : List String)
    (capacityByte : Int)
    (affinityAnn : String) :
    (localPV discoverer candidate mountOptions capacityByte
        affinityAnn).annotations.lookup annProvisionedBy =
      some discoverer.name := by
  have other : annProvisionedBy ≠ alphaNodeAffinityAnnotation := by decide
  simp only [localPV, createLocalPVSpec]
  split
  · rw [AList.lookup_insert_ne other, AList.lookup_insert]
  · rw [AList.lookup_insert]

/-- Ownership is a matter of the annotations and labels. -/
theorem ownsPV_congr
    {runtime : RuntimeConfig}
    {pv other : PersistentVolume}
    (annotations : other.annotations = pv.annotations)
    (labels : other.labels = pv.labels) :
    ownsPV runtime other = ownsPV runtime pv := by
  simp only [ownsPV, annotations, labels]

namespace Conditions

/-- Conditions that allow more have more runs. -/
theorem Reaches.mono
    {conditions weaker : Conditions}
    (configuration :
      ∀ runtime,
        conditions.configuration runtime → weaker.configuration runtime)
    (restarts : conditions.restarts → weaker.restarts)
    (disturbance :
      ∀ disturbance world,
        conditions.disturbance disturbance world →
        weaker.disturbance disturbance world)
    (call :
      ∀ op answers world,
        conditions.call op answers world → weaker.call op answers world)
    {state : SyncState}
    (reaches : conditions.Reaches state) :
    weaker.Reaches state := by
  refine Reachable.mono ?_ ?_ reaches
  · rintro _ ⟨runtime, discoverer, admitted, made, rfl⟩
    exact ⟨runtime, discoverer, configuration runtime admitted, made, rfl⟩
  · rintro ⟨discoverer, rest, world⟩ action permitted
    cases action with
    | call answers =>
        cases rest with
        | done value => trivial
        | call op continuation => exact call op answers world permitted
    | disturb move => exact disturbance move world permitted
    | beginPass => trivial
    | reload runtime => exact configuration runtime permitted
    | restart runtime =>
        exact ⟨restarts permitted.1, configuration runtime permitted.2⟩

end Conditions

/-!
## Every member runs as if it were alone
-/

namespace Fleet

variable {Member : Type} {fleet : Fleet Member}

/-- The names of another member are not one's own. -/
theorem names_of_ne
    {one other : Member}
    (different : one ≠ other)
    (pvName : String)
    (own : fleet.names one pvName = true) :
    fleet.names other pvName = false := by
  cases shared : fleet.names other pvName with
  | false => rfl
  | true => exact (different (fleet.apart own shared)).elim

/-- The PVs that a member provisions under its names are proper. -/
theorem proper_of_provisioned
    {member : Member}
    {runtime : RuntimeConfig}
    {pv : PersistentVolume}
    (own : fleet.names member pv.name = true)
    (admitted : fleet.runtimes member runtime)
    (annotated : pv.annotations.lookup annProvisionedBy = some runtime.name)
    (labelled :
      pv.labels.lookup hostnameLabel =
        (labelsForPVs runtime).lookup hostnameLabel) :
    fleet.Proper pv := by
  intro other foreign mine theirs
  refine fleet.strangers ?_ theirs admitted pv annotated labelled
  rintro rfl
  rw [own] at foreign
  cases foreign

/-- Being proper is a matter of the name, the annotations and the labels. -/
theorem Proper.congr
    {pv other : PersistentVolume}
    (proper : fleet.Proper pv)
    (name : other.name = pv.name)
    (annotations : other.annotations = pv.annotations)
    (labels : other.labels = pv.labels) :
    fleet.Proper other := by
  intro member foreign runtime admitted
  rw [name] at foreign
  rw [ownsPV_congr annotations labels]
  exact proper member foreign runtime admitted

section Alone

variable {conditions : Conditions}
variable {member : Member}
variable {state : SyncState}

/-- A member runs with a configuration it may be given. -/
theorem admitted_of_reaches
    (reaches : (fleet.alone conditions member).Reaches state) :
    fleet.runtimes member state.discoverer.toRuntimeConfig :=
  ((within_carried _ _).onOutline reaches).admitted.2

/-- A run of a member alone is one under the conditions. -/
theorem reaches_of_alone
    (reaches : (fleet.alone conditions member).Reaches state) :
    conditions.Reaches state := by
  refine @Conditions.Reaches.mono (fleet.alone conditions member) conditions
    ?_ id ?_ ?_ state reaches
  · intro runtime admitted
    exact admitted.1
  · intro disturbance world permitted
    exact permitted.1.1
  · intro op answers world permitted
    exact permitted.1

/-- The PVs that a member creates are proper. -/
theorem proper_of_createPV
    {pv : PersistentVolume}
    {rest : (Op.createPV pv).Reply → Routine Unit}
    (reaches : (fleet.alone conditions member).Reaches state)
    (calling : state.rest = .call (.createPV pv) rest)
    (uid : Nat) :
    fleet.Proper { pv with uid } := by
  have own : fleet.names member pv.name = true :=
    (within_of_reaches reaches).2 _ _ calling
  have only := createsOwn_of_reaches reaches
  unfold SyncState.CreatesOwn at only
  rw [calling] at only
  cases only with
  | call ownCreation _ =>
      obtain ⟨candidate, mountOptions, capacityByte, affinityAnn, rfl⟩ :=
        ownCreation pv rfl
      refine proper_of_provisioned own (admitted_of_reaches reaches) ?_ ?_
      · exact provisionedBy_localPV state.discoverer candidate mountOptions
          capacityByte affinityAnn
      · exact congrArg (AList.lookup hostnameLabel) (labels_of_reaches reaches)

/-- The notices that are not about a member's names leave its cache alone. -/
theorem handlePVNotice_of_proper
    {notice : Notice PersistentVolume}
    (reaches :
      (fleet.alone conditions member).Reaches
        (state.part (fleet.names member)))
    (proper : fleet.Proper notice.object)
    (foreign : fleet.names member notice.object.name = false) :
    World.handlePVNotice state.discoverer.toRuntimeConfig state.world.cache
      notice = state.world.cache := by
  refine World.handlePVNotice_of_foreign ?_ ?_
  · cases cached : VolumeCache.getPV state.world.cache notice.object.name with
    | none => rfl
    | some pv =>
        have own : fleet.names member pv.name = true :=
          (within_of_reaches reaches).1.cache pv
            (ObjectStore.mem_list.mpr (ObjectStore.get_name cached))
        rw [ObjectStore.name_of_get cached, foreign] at own
        cases own
  · have admitted := admitted_of_reaches reaches
    exact proper member foreign _ admitted

/-- The moves of the surroundings are about the names of the member. -/
theorem within_of_permits
    {action : Action}
    {disturbance : Disturbance}
    (permitted : (fleet.alone conditions member).permits state action)
    (disturbs : action = .disturb disturbance) :
    disturbance.Within (fleet.names member) := by
  subst disturbs
  exact permitted.2

/-- A step leaves only proper PVs behind. -/
theorem allProper_of_step
    {next : SyncState}
    {action : Action}
    (reaches :
      (fleet.alone conditions member).Reaches
        (state.part (fleet.names member)))
    (permitted :
      (fleet.alone conditions member).permits
        (state.part (fleet.names member)) action)
    (proper : state.world.AllPVs fleet.Proper)
    (stepped : LocalProvisioner.step state action = some next) :
    next.world.AllPVs fleet.Proper := by
  obtain ⟨discoverer, rest, world⟩ := state
  cases action with
  | call answers =>
      cases rest with
      | done value => cases stepped
      | call op continuation =>
          obtain ⟨outcome, executed, rfl⟩ := Option.map_eq_some_iff.mp stepped
          refine proper.exec ?_ ?_ executed
          · rintro pv uid rfl
            exact proper_of_createPV reaches rfl uid
          · intro pv now isProper
            exact isProper.congr rfl rfl rfl
  | disturb disturbance =>
      obtain ⟨later, moved, rfl⟩ := Option.map_eq_some_iff.mp stepped
      exact proper.disturb permitted.1.2 moved
  | beginPass =>
      cases rest with
      | done value =>
          cases stepped
          exact proper
      | call op continuation => cases stepped
  | reload runtime =>
      cases rest with
      | done value =>
          simp only [LocalProvisioner.step] at stepped
          split at stepped
          · cases stepped
            exact proper.newInstance
          · cases stepped
      | call op continuation => cases stepped
  | restart runtime =>
      simp only [LocalProvisioner.step] at stepped
      split at stepped
      · cases stepped
        exact proper.newInstance.congr rfl rfl
      · cases stepped

end Alone

/-- What a step does to the member that takes it, and to the others. -/
theorem exists_of_step
    [DecidableEq Member]
    {state after : Member → SyncState}
    {member : Member}
    {action : Action}
    (stepped : step state (member, action) = some after) :
    ∃ next,
      LocalProvisioner.step (state member) action = some next ∧
        after member = next ∧
        ∀ other,
          other ≠ member →
          after other =
            if action.tells then
              (state other).observe (state member).world next.world
            else
              state other := by
  obtain ⟨next, moved, rfl⟩ := Option.map_eq_some_iff.mp stepped
  refine ⟨next, moved, if_pos rfl, ?_⟩
  intro other different
  exact if_neg different

/--
The members see one API server, with only proper PVs, and each of them is where
it could be alone.
-/
structure Invariant
    (fleet : Fleet Member)
    (conditions : Conditions)
    (state : Member → SyncState) : Prop where
  pvs : ∀ one other, (state one).world.pvs = (state other).world.pvs
  jobs : ∀ one other, (state one).world.jobs = (state other).world.jobs
  proper : ∀ member, (state member).world.AllPVs fleet.Proper
  alone :
    ∀ member, (fleet.alone conditions member).Reaches (fleet.view state member)

namespace Invariant

variable {conditions : Conditions}
variable {state : Member → SyncState}

/-- It holds of the first instances. -/
theorem of_started (started : fleet.started conditions state) :
    fleet.Invariant conditions state where
  pvs := by
    intro one other
    obtain ⟨_, _, _, _, first⟩ := started one
    obtain ⟨_, _, _, _, second⟩ := started other
    rw [first, second]
  jobs := by
    intro one other
    obtain ⟨_, _, _, _, first⟩ := started one
    obtain ⟨_, _, _, _, second⟩ := started other
    rw [first, second]
  proper := by
    intro member
    obtain ⟨_, _, _, _, isNew⟩ := started member
    rw [isNew]
    exact .empty
  alone := by
    intro member
    obtain ⟨runtime, discoverer, admitted, made, isNew⟩ := started member
    refine .initial ⟨runtime, discoverer, admitted, made, ?_⟩
    rw [view, isNew]
    rfl

variable {member : Member}
variable {action : Action}
variable {next : SyncState}

/-- The calls of a member are about its own names. -/
theorem calls
    (invariant : fleet.Invariant conditions state)
    (member : Member) :
    ∀ op rest,
      (state member).rest = .call op rest →
      op.Within (fleet.names member) :=
  (within_of_reaches (invariant.alone member)).2

/-- The member that takes a step could have taken it alone. -/
theorem alone_of_step
    (invariant : fleet.Invariant conditions state)
    (permitted : fleet.permits conditions state (member, action))
    (stepped : LocalProvisioner.step (state member) action = some next) :
    (fleet.alone conditions member).Reaches
      (next.part (fleet.names member)) := by
  have reaches := invariant.alone member
  have moves :=
    step_part (invariant.calls member)
      (fun disturbance disturbs => within_of_permits permitted disturbs)
      (fun notice pending foreign =>
        handlePVNotice_of_proper reaches
          ((invariant.proper member).pvNotices notice pending) foreign)
      stepped
  rcases moves with same | moved
  · rw [same]
    exact reaches
  · exact .advance action reaches permitted moved

/-- The others do not notice it in their parts of the world. -/
theorem part_observe_of_step
    {other : Member}
    (invariant : fleet.Invariant conditions state)
    (permitted : fleet.permits conditions state (member, action))
    (different : other ≠ member)
    (tells : action.tells = true)
    (stepped : LocalProvisioner.step (state member) action = some next) :
    ((state other).observe (state member).world next.world).part
        (fleet.names other) =
      fleet.view state other := by
  have spares :
      World.Spares (fleet.names other) (state member).world next.world :=
    spares_of_step (names_of_ne (Ne.symm different)) (invariant.calls member)
      (fun disturbance disturbs => within_of_permits permitted disturbs)
      tells stepped
  have unseen :=
    World.part_observe (invariant.pvs other member) (invariant.jobs other member)
      spares
  simp only [SyncState.part, SyncState.observe, unseen, view]

variable [DecidableEq Member]
variable {after : Member → SyncState}

/-- Every permitted step keeps the invariant. -/
theorem of_step
    (invariant : fleet.Invariant conditions state)
    (permitted : fleet.permits conditions state (member, action))
    (stepped : step state (member, action) = some after) :
    fleet.Invariant conditions after := by
  obtain ⟨next, moved, self, others⟩ := exists_of_step stepped
  have proper :=
    allProper_of_step (invariant.alone member) permitted
      (invariant.proper member) moved
  -- everybody has the API server of the member that takes the step
  have server :
      ∀ other,
        (after other).world.pvs = next.world.pvs ∧
          (after other).world.jobs = next.world.jobs := by
    intro other
    by_cases same : other = member
    · rw [same, self]
      exact ⟨rfl, rfl⟩
    · rw [others other same]
      split
      · exact ⟨rfl, rfl⟩
      · rename_i silent
        obtain ⟨pvs, jobs⟩ :=
          server_of_silent_step ((Bool.not_eq_true _).mp silent) moved
        rw [pvs, jobs]
        exact ⟨invariant.pvs other member, invariant.jobs other member⟩
  refine ⟨?_, ?_, ?_, ?_⟩
  · intro one other
    exact (server one).1.trans (server other).1.symm
  · intro one other
    exact (server one).2.trans (server other).2.symm
  · intro other
    by_cases same : other = member
    · rw [same, self]
      exact proper
    · rw [others other same]
      split
      · exact (invariant.proper other).observe proper
      · exact invariant.proper other
  · intro other
    by_cases same : other = member
    · rw [view, same, self]
      exact invariant.alone_of_step permitted moved
    · rw [view, others other same]
      split
      · rename_i tells
        rw [invariant.part_observe_of_step permitted same tells moved]
        exact invariant.alone other
      · exact invariant.alone other

/-- It holds in every state of every run of the fleet. -/
theorem of_reaches (reaches : fleet.Reaches conditions state) :
    fleet.Invariant conditions state :=
  reaches.invariant (fun _ started => of_started started)
    fun _ _ _ invariant permitted stepped => invariant.of_step permitted stepped

end Invariant

end Fleet

end LocalProvisioner
