import LocalProvisioner.CleanerSafety
import LocalProvisioner.ControllerStart
import LocalProvisioner.Fleet
import LocalProvisioner.OwnedCache

namespace LocalProvisioner

open Interleaving

/-!
# The provisioners of the nodes of a cluster

`StartLocalController` names the provisioner of a node after the node, with or
without its UID, and PVs carry the name of their provisioner and the hostname
label of its node.  This is how the provisioners of different nodes tell their
PVs apart, also while some of them run with `UseNodeNameOnly` and others
without.  So they make a fleet, and what is known of one provisioner holds for
the cluster: cleaners exclude each other over all nodes.
-/

/-- The name of a node, with its UID. -/
def Node.nameWithUID (node : Node) : String :=
  node.name ++ "-" ++ node.uid

/-- UIDs of one length leave the names of the nodes recognisable. -/
theorem Node.name_of_nameWithUID
    {mine yours : Node}
    (uids : mine.uid.length = yours.uid.length)
    (same : mine.nameWithUID = yours.nameWithUID) :
    mine.name = yours.name := by
  have characters := congrArg String.toList same
  simp only [Node.nameWithUID, String.toList_append] at characters
  have sameUIDLength :
      mine.uid.toList.length = yours.uid.toList.length := by
    rw [String.length_toList, String.length_toList]
    exact uids
  have extended := List.append_inj_left' characters sameUIDLength
  exact String.ext (List.append_cancel_right extended)

theorem provisionerName_eq (node : Node) (useNodeNameOnly : Bool) :
    provisionerName node useNodeNameOnly =
      "local-volume-provisioner-" ++
        if useNodeNameOnly then node.name else node.nameWithUID := by
  cases useNodeNameOnly with
  | true => rfl
  | false =>
      simp only [provisionerName, Node.nameWithUID, String.append_assoc,
        Bool.false_eq_true, if_false]

/--
The nodes of a cluster, with the names of the PVs for the files on each of
them.  A PV name is a hash of the file, the node and the class, so that it is
an assumption that different nodes have different ones.
-/
structure Nodes (Member : Type) where
  node : Member → Node
  names : Member → String → Bool
  apart :
    ∀ {one other : Member} {pvName : String},
      names one pvName = true →
      names other pvName = true →
      one = other
  distinct :
    ∀ {one other : Member}, (node one).name = (node other).name → one = other
  uids : ∀ one other, (node one).uid.length = (node other).uid.length
  unlike : ∀ one other, (node one).name ≠ (node other).nameWithUID

namespace Nodes

variable {Member : Type}

/--
The configurations of the instances on a node: those that
`StartLocalController` makes there, if PVs are not labelled with the hostname
of another node.
-/
def Runs (nodes : Nodes Member) (member : Member) (runtime : RuntimeConfig) :
    Prop :=
  (∃ (arguments : ControllerArguments) (config : ControllerConfig),
    arguments.node = nodes.node member ∧
      runtime = arguments.runtimeConfig config) ∧
    ∀ label,
      (labelsForPVs runtime).lookup hostnameLabel = some label →
      label = (nodes.node member).name

/-- The name of a provisioner tells its node. -/
theorem member_of_provisionerName
    (nodes : Nodes Member)
    {one other : Member}
    {nameOnly otherNameOnly : Bool}
    (same :
      provisionerName (nodes.node one) nameOnly =
        provisionerName (nodes.node other) otherNameOnly) :
    one = other := by
  rw [provisionerName_eq, provisionerName_eq] at same
  have stripped := (String.append_right_inj _).mp same
  cases nameOnly with
  | true =>
      cases otherNameOnly with
      | true => exact nodes.distinct stripped
      | false => exact (nodes.unlike one other stripped).elim
  | false =>
      cases otherNameOnly with
      | true => exact (nodes.unlike other one stripped.symm).elim
      | false =>
          exact nodes.distinct
            (Node.name_of_nameWithUID (nodes.uids one other) stripped)

/-- A provisioner does not take the PVs of another node for its own. -/
theorem ownsPV_of_ne
    (nodes : Nodes Member)
    {one other : Member}
    (different : one ≠ other)
    {mine yours : RuntimeConfig}
    (runsMine : nodes.Runs one mine)
    (runsYours : nodes.Runs other yours)
    (pv : PersistentVolume)
    (annotated : pv.annotations.lookup annProvisionedBy = some yours.name)
    (labelled :
      pv.labels.lookup hostnameLabel =
        (labelsForPVs yours).lookup hostnameLabel) :
    ownsPV mine pv = false := by
  obtain ⟨⟨mineArguments, mineConfig, mineNode, rfl⟩, -⟩ := runsMine
  obtain ⟨⟨yourArguments, yourConfig, yourNode, rfl⟩, yourLabel⟩ := runsYours
  rw [← Bool.not_eq_true, ownsPV_iff]
  rintro (named | ⟨nameOnly, hostname, _⟩)
  · rw [annotated] at named
    have same := (Option.some.inj named).symm
    simp only [ControllerArguments.runtimeConfig, mineNode, yourNode] at same
    exact different (nodes.member_of_provisionerName same)
  · -- with `UseNodeNameOnly` the label of the PV is compared, too
    rw [labelled] at hostname
    have same := yourLabel _ hostname
    change mineArguments.node.name = (nodes.node other).name at same
    rw [mineNode] at same
    exact different (nodes.distinct same)

/-- The provisioners of the nodes are a fleet. -/
def fleet (nodes : Nodes Member) : Fleet Member where
  names := nodes.names
  runtimes := nodes.Runs
  apart := nodes.apart
  strangers := fun different _ _ runsMine runsYours pv annotated labelled =>
    nodes.ownsPV_of_ne different runsMine runsYours pv annotated labelled

end Nodes

/-!
## Two nodes
-/

/-- A second node. -/
def sampleSecondNode : Node where
  name := "other"
  uid := "2"
  labels := AList.insert hostnameLabel "other" ∅

/-- The sample node, and a second one, each with one file. -/
def sampleNodes : Nodes Bool where
  node := fun isSecond => if isSecond then sampleSecondNode else sampleNode
  names := fun isSecond pvName =>
    pvName ==
      generatePVName "volume" (if isSecond then "other" else "node") "fast"
  apart := by
    intro one other pvName mine yours
    cases one <;> cases other <;> try rfl
    all_goals
      simp only [beq_iff_eq] at mine yours
      rw [mine] at yours
      revert yours
      decide +kernel
  distinct := by decide
  uids := by decide
  unlike := by decide

/-- What the provisioners of the two nodes are called with. -/
def sampleMemberArguments (isSecond : Bool) : ControllerArguments where
  node := sampleNodes.node isSecond
  namespaceName := "default"
  jobImage := "cleaner"
  marshalAffinity := fun _ => .ok ""

/-- Their configurations; the second one runs with `UseNodeNameOnly`. -/
def sampleMemberConfig (isSecond : Bool) : ControllerConfig where
  storageClassConfig := sampleClasses
  labelsForPV := ∅
  values := {
    nodeLabelsForPV := none
    useAlphaAPI := false
    useJobForCleaning := false
    jobTolerations := none
    minResyncPeriod := 0
    useNodeNameOnly := isSecond
    setPVOwnerRef := false
    removeNodeNotReadyTaint := false
    provisionerNotReadyNodeTaintKey := "" }

/-- The discoverers that are made from them. -/
def sampleMemberDiscoverer (isSecond : Bool) : Discoverer :=
  let node := sampleNodes.node isSecond
  { (sampleMemberArguments isSecond).runtimeConfig
      (sampleMemberConfig isSecond) with
    labels := ∅
    nodeSelector := {
      nodeSelectorTerms := [{
        matchExpressions := [
          { key := hostnameLabel, operator := .opIn, values := [node.name] }]
      }]
    }
    ownerReference :=
      { kind := "Node", apiVersion := "v1", name := node.name,
        uid := node.uid } }

/-- The two nodes before their first passes. -/
def sampleFleetStart (isSecond : Bool) : SyncState where
  discoverer := sampleMemberDiscoverer isSecond
  rest := .done ()
  world := .empty

theorem runs_sampleMember (isSecond : Bool) :
    sampleNodes.Runs isSecond
      ((sampleMemberArguments isSecond).runtimeConfig
        (sampleMemberConfig isSecond)) := by
  refine ⟨⟨_, _, rfl, rfl⟩, ?_⟩
  intro label labelled
  cases labelled

theorem started_sampleFleet :
    sampleNodes.fleet.started orderlyMode sampleFleetStart := by
  intro isSecond
  refine ⟨(sampleMemberArguments isSecond).runtimeConfig
    (sampleMemberConfig isSecond), sampleMemberDiscoverer isSecond,
    ⟨rfl, runs_sampleMember isSecond⟩, ?_, rfl⟩
  cases isSecond <;> rfl

/-- Actions that can be checked to be permitted on the two nodes. -/
def samplePermits (state : Bool → SyncState) (action : Bool × Action) : Bool :=
  match action.2 with
  | .call _ =>
      match (state action.1).rest with
      | .call (.getPV pvName) _ => sampleNodes.names action.1 pvName
      | _ => true
  | .disturb (.updatePV pv) =>
      sampleNodes.names action.1 pv.name &&
        (Disturbance.updatePV pv).orderly
          (sampleNodes.fleet.view state action.1).world &&
        pv.annotations.lookup annProvisionedBy ==
          some (sampleMemberDiscoverer action.1).name &&
        pv.labels.lookup hostnameLabel == none
  | .disturb .deliverPV => true
  | .beginPass => true
  | _ => false

theorem permits_of_samplePermits
    (state : Bool → SyncState)
    (action : Bool × Action)
    (checked : samplePermits state action = true) :
    sampleNodes.fleet.permits orderlyMode state action := by
  obtain ⟨member, action⟩ := action
  cases action with
  | call answers =>
      have looks :
          ∀ op next,
            (state member).rest = .call op next →
            op.LooksAt (sampleNodes.names member) := by
        rintro op next calling pvName rfl
        simpa only [samplePermits, calling] using checked
      simp only [Fleet.permits, Fleet.view, SyncState.part, Conditions.permits]
      split
      · trivial
      · rename_i op next calling
        exact ⟨trivial, looks op next calling⟩
  | disturb disturbance =>
      cases disturbance with
      | updatePV pv =>
          simp only [samplePermits, Bool.and_eq_true, beq_iff_eq] at checked
          obtain ⟨⟨⟨own, orderly⟩, annotated⟩, labelled⟩ := checked
          refine ⟨⟨orderly, ?_⟩, own⟩
          rintro _ ⟨⟩
          exact Fleet.proper_of_provisioned own (runs_sampleMember member)
            annotated labelled
      | deliverPV => exact ⟨⟨rfl, by rintro _ ⟨⟩⟩, trivial⟩
      | cleanerFinishes | overwriteCache | removePV | jobSucceeds
      | markJobDeleted | removeJob | deliverJob => cases checked
  | beginPass => trivial
  | reload runtime => cases checked
  | restart runtime => cases checked

/--
The first node has a released PV cleaned, and the second one, which has been
told of that PV, is about to create its own.
-/
def sampleFleetRun : List (Bool × Action) :=
  sampleReclamation.map (Prod.mk false) ++
    (.disturb .deliverPV :: sampleProvisioning 2).map (Prod.mk true)

/-- The first node has a cleaner at work, and the second one creates a PV. -/
def cleansAndCreates (state : Bool → SyncState) : Bool :=
  !(state false).world.cleaners.isEmpty &&
    match (state true).rest with
    | .call (.createPV _) _ => true
    | _ => false

theorem exists_of_sampleFleetRun :
    ∃ state,
      sampleNodes.fleet.Reaches orderlyMode state ∧
        cleansAndCreates state = true := by
  obtain ⟨state, reaches, checked⟩ :=
    @Reachable.exists_of_replay _ _ Fleet.step
      (fun state action => samplePermits state action = true)
      (fun state => state = sampleFleetStart) _ sampleFleetRun sampleFleetStart
      cleansAndCreates rfl (by decide +kernel)
  refine ⟨state, Reachable.mono ?_ permits_of_samplePermits reaches, checked⟩
  rintro _ rfl
  exact started_sampleFleet

/-!
## The cluster
-/

/--
In a run of the provisioners of a cluster, each of them, with its part of the
world, is in a state of a run of one provisioner; all of them share the API
server, and the call that it is about to make is about its own names.
-/
theorem fleet_projects
    {Member : Type}
    [DecidableEq Member]
    {nodes : Nodes Member}
    {conditions : Conditions}
    {state : Member → SyncState}
    (reaches : nodes.fleet.Reaches conditions state)
    (member : Member) :
    conditions.Reaches (nodes.fleet.view state member) ∧
      (∀ op rest,
        (state member).rest = .call op rest →
        op.Within (nodes.names member)) ∧
      ∀ other,
        (state other).world.pvs = (state member).world.pvs ∧
          (state other).world.jobs = (state member).world.jobs := by
  have invariant := Fleet.Invariant.of_reaches reaches
  refine ⟨Fleet.reaches_of_alone (invariant.alone member),
    invariant.calls member, ?_⟩
  intro other
  exact ⟨invariant.pvs other member, invariant.jobs other member⟩

/-- The second node is in a run of its own while the first one cleans. -/
theorem fleet_projects_of_sampleFleetRun :
    ∃ state pv rest,
      sampleNodes.fleet.Reaches orderlyMode state ∧
        (state true).rest = .call (.createPV pv) rest ∧
        orderlyMode.Reaches (sampleNodes.fleet.view state true) ∧
        (Op.createPV pv).Within (sampleNodes.names true) ∧
        (state false).world.pvs = (state true).world.pvs := by
  obtain ⟨state, reaches, checked⟩ := exists_of_sampleFleetRun
  obtain ⟨alone, calls, server⟩ := fleet_projects reaches true
  have creating := (Bool.and_eq_true _ _ ▸ checked).2
  split at creating
  · rename_i pv rest calling
    exact ⟨state, pv, rest, reaches, calling, alone, calls _ _ calling,
      (server false).1⟩
  · cases creating

/-- The PV that a call creates, deletes or has cleaned. -/
def Op.takesUp : Op → Option String
  | .createPV pv => some pv.name
  | .deletePV pvName => some pvName
  | .spawnCleaner work => some work.pv.name
  | _ => none

/-- Calls about some names take up PVs with these names only. -/
theorem Op.Within.takesUp
    {keep : String → Bool}
    {op : Op}
    {pvName : String}
    (within : op.Within keep)
    (takesUp : op.takesUp = some pvName) :
    keep pvName = true := by
  cases op <;> cases takesUp <;> exact within

/-- No cleaner is at work on a PV that a pass takes up. -/
theorem idle_of_takesUp
    {state : SyncState}
    {op : Op}
    {rest : op.Reply → Routine Unit}
    {pvName : String}
    (reaches : orderlyMode.Reaches state)
    (calling : state.rest = .call op rest)
    (takesUp : op.takesUp = some pvName) :
    ∀ cleaner ∈ state.world.cleaners, cleaner.pvName ≠ pvName := by
  have follows := (orderlyMode_carried.onOutline reaches).follows
  rw [calling] at follows
  obtain ⟨phase, holds, allowed, -⟩ :=
    follows.atCall orderlyMode_carried.outline
  have absent : state.world.procTable.status? pvName = none := by
    cases allowed with
    | probe probing => cases op <;> cases probing <;> cases takesUp
    | list | get | lookup | askProcess | askJob | takeEntry | findJob | takeJob
    | createJob => cases takesUp
    | deletePV =>
        cases takesUp
        obtain rfl := holds.known.2
        exact holds.table.known
    | spawnCleaner =>
        cases takesUp
        exact holds.table.known
    | createPV =>
        cases takesUp
        obtain rfl := holds.known.2
        exact holds.table.known
  rintro cleaner member rfl
  have running := holds.table.invariant.running_of_mem member
  rw [absent] at running
  cases running

/--
In an orderly run of the provisioners of a cluster, at most one cleaner on all
nodes is at work on a PV; the API server has no PV of that name, or one that its
claim has given up; and nobody is about to create, delete or clean it.
-/
theorem fleet_cleaning_exclusive
    {Member : Type}
    [DecidableEq Member]
    {nodes : Nodes Member}
    {state : Member → SyncState}
    (reaches : nodes.fleet.Reaches orderlyMode state)
    {member : Member}
    {cleaner : Cleaner}
    (live : cleaner ∈ (state member).world.cleaners) :
    (∀ other,
      ∀ rival ∈ (state other).world.cleaners,
        rival.pvName = cleaner.pvName →
        other = member ∧ rival = cleaner) ∧
      (∀ observer pv,
        (state observer).world.pvs.get cleaner.pvName = some pv →
        pv.phase = .released ∨ pv.phase = .failed) ∧
      ∀ other op rest,
        (state other).rest = .call op rest →
        op.takesUp ≠ some cleaner.pvName := by
  have invariant := Fleet.Invariant.of_reaches reaches
  have own :
      ∀ one,
        ∀ other ∈ (state one).world.cleaners,
          nodes.fleet.names one other.pvName = true :=
    fun one other present =>
      (within_of_reaches (invariant.alone one)).1.cleaners other present
  have inView := Fleet.reaches_of_alone (invariant.alone member)
  obtain ⟨phase, holds⟩ := orderlyMode_carried.assertion_of_reaches inView
  refine ⟨?_, ?_, ?_⟩
  · intro other rival present same
    have together : other = member := by
      refine nodes.apart (own other rival present) ?_
      rw [same]
      exact own member cleaner live
    subst together
    exact ⟨rfl,
      List.inj_on_of_nodup_map holds.table.invariant.single present live same⟩
  · intro observer pv stored
    have running := holds.table.invariant.running_of_mem live
    refine pv.relinquished_iff.mp (holds.invariant.entries _ _ running pv ?_)
    change (World.part _ _).pvs.get _ = _
    rw [World.get_pvs_part (own member cleaner live),
      invariant.pvs member observer]
    exact stored
  · intro other op rest calling takesUp
    have about := invariant.calls other op rest calling
    have kept := about.takesUp takesUp
    obtain rfl := nodes.apart kept (own member cleaner live)
    exact idle_of_takesUp inView calling takesUp cleaner live rfl

/-- No other cleaner is at work on the PV that the first node has cleaned. -/
theorem fleet_cleaning_exclusive_of_sampleFleetRun :
    ∃ state cleaner,
      sampleNodes.fleet.Reaches orderlyMode state ∧
        cleaner ∈ (state false).world.cleaners ∧
        (∀ other,
          ∀ rival ∈ (state other).world.cleaners,
            rival.pvName = cleaner.pvName →
            other = false ∧ rival = cleaner) ∧
        (∀ observer pv,
          (state observer).world.pvs.get cleaner.pvName = some pv →
          pv.phase = .released ∨ pv.phase = .failed) ∧
        ∀ other op rest,
          (state other).rest = .call op rest →
          op.takesUp ≠ some cleaner.pvName := by
  obtain ⟨state, reaches, checked⟩ := exists_of_sampleFleetRun
  have cleaning := (Bool.and_eq_true _ _ ▸ checked).1
  cases cleaners : (state false).world.cleaners with
  | nil => simp [cleaners] at cleaning
  | cons cleaner others =>
      have live : cleaner ∈ (state false).world.cleaners := by simp [cleaners]
      exact ⟨state, cleaner, reaches, live,
        fleet_cleaning_exclusive reaches live⟩

end LocalProvisioner
