import LocalProvisioner.CleanupRecord
import LocalProvisioner.SyncLoop

namespace LocalProvisioner

namespace NodeCleanup

open Interleaving

/-!
# Provisioned volumes and node-cleanup

The provisioner writes the hostname label of its node into the affinity of a
PV, with the configured terms after it, and node-cleanup reads the hostnames
back.  As long as the node lister has a node with that label, node-cleanup
leaves the PV and its PVC alone, whatever else the listers answer and also if
they fail.
-/

/--
The replies come from listers that have a node with the hostname, and versions
of the PV and of its PVC.  A version of the PVC may be from before it was
bound.  Nothing is said about failures.
-/
structure KnowsOwner
    (hostname : String)
    (built : PersistentVolume)
    (pvc : PersistentVolumeClaim)
    (history : CleanupHistory) : Prop where
  nodes :
    ∀ nodes,
      ⟨.listNodes hostname, (.ok nodes : Except ApiError (List Node))⟩ ∈
        history →
      ∃ node ∈ nodes, node.labels.lookup hostnameLabel = some hostname
  listedPVs :
    ∀ pvs,
      history.ListedPVs pvs →
      ∀ pv ∈ pvs,
        pv.name = built.name →
        pv.nodeAffinity = built.nodeAffinity
  gotPV :
    ∀ pvName pv,
      history.GotPV pvName pv →
      pv.name = pvName ∧
        pvName ≠ "" ∧
        (pvName = built.name → pv.nodeAffinity = built.nodeAffinity)
  gotPVC :
    ∀ namespaceName name found,
      history.GotPVC namespaceName name found →
      found.uid = pvc.uid →
      found.volumeName = pvc.volumeName ∨ found.volumeName = ""

/-- A call that acts on a PV or on its PVC. -/
def ActsOn
    (built : PersistentVolume)
    (pvc : PersistentVolumeClaim)
    (op : CleanupOp) : Prop :=
  op = .deletePV built.name ∨
    (∃ delay, op = .addAfter built.name delay) ∨
    op = .deletePVC pvc.namespaceName pvc.name pvc.uid

/-- A routine never acts on a PV or its PVC while their node is known. -/
def Spares
    {α : Type}
    (hostname : String)
    (built : PersistentVolume)
    (pvc : PersistentVolumeClaim)
    (routine : CleanupRoutine α) : Prop :=
  ∀ (history : CleanupHistory) (op : CleanupOp)
    (rest : op.Reply → CleanupRoutine α),
    routine.Unfolds history (.call op rest) →
    KnowsOwner hostname built pvc history →
    ¬ ActsOn built pvc op

/-- A discoverer selects its node by the hostname label. -/
theorem nodeSelector_of_newDiscoverer
    {runtime : RuntimeConfig}
    {discoverer : Discoverer}
    {hostname : String}
    (made : newDiscoverer runtime = .ok discoverer)
    (labelled : runtime.node.labels.lookup hostnameLabel = some hostname) :
    discoverer.nodeSelector.nodeSelectorTerms =
      [{ matchExpressions :=
          [{ key := hostnameLabel, operator := .opIn, values := [hostname] }] }] := by
  unfold newDiscoverer generateNodeSelector at made
  rw [labelled] at made
  split at made
  · cases made
  · split at made
    · cases made
    · rename_i selector selected
      cases made
      split at selected
      · cases selected
      · cases selected
        rfl

section Provisioned

variable {runtime : RuntimeConfig}
variable {discoverer : Discoverer}
variable {candidate : Candidate}
variable {mountOptions : List String}
variable {capacityByte : Int}
variable {answer : (op : Op) → Option op.Reply}
variable {built : PersistentVolume}
variable {hostname : String}
variable (made : newDiscoverer runtime = .ok discoverer)
variable (labelled : runtime.node.labels.lookup hostnameLabel = some hostname)
variable (created :
  .createPV built ∈
    (createPV discoverer candidate mountOptions capacityByte).calls answer)

include made labelled created

/-- If any node names are read from a provisioned PV, its own is among them. -/
theorem hostname_mem_nodeNames
    {nodeNames : List String}
    (read : getLocalPersistentVolumeNodeNames built = some nodeNames) :
    hostname ∈ nodeNames := by
  obtain ⟨affinityAnn, -, rfl⟩ := localPV_of_mem_calls_createPV created
  have terms := nodeSelector_of_newDiscoverer made labelled
  cases alpha : discoverer.useAlphaAPI with
  | true =>
      -- the affinity is only in an annotation, and no names are read
      simp [getLocalPersistentVolumeNodeNames,
        PersistentVolume.requiredAffinity, localPV, createLocalPVSpec,
        alpha] at read
  | false =>
      have required :
          (localPV discoverer candidate mountOptions capacityByte
              affinityAnn).requiredAffinity =
            some {
              nodeSelectorTerms :=
                discoverer.nodeSelector.nodeSelectorTerms ++
                  candidate.config.selector } := by
        simp [PersistentVolume.requiredAffinity, localPV, createLocalPVSpec,
          alpha]
      rw [mem_getLocalPersistentVolumeNodeNames required read, terms]
      refine ⟨_, List.mem_append_left _ List.mem_cons_self, ?_⟩
      rw [mem_hosts]
      simp [NodeSelectorRequirement.namesHosts]

/-- A version of a provisioned PV is never shown to be stale. -/
theorem KnowsOwner.not_showsStale
    {pvc : PersistentVolumeClaim}
    {history : CleanupHistory}
    (knows : KnowsOwner hostname built pvc history)
    {pv : PersistentVolume}
    (sameAffinity : pv.nodeAffinity = built.nodeAffinity) :
    ¬ history.ShowsStale pv := by
  intro stale
  obtain ⟨nodeNames, read, absent⟩ := stale
  have sameNames :
      getLocalPersistentVolumeNodeNames pv =
        getLocalPersistentVolumeNodeNames built := by
    simp only [getLocalPersistentVolumeNodeNames,
      PersistentVolume.requiredAffinity, sameAffinity]
  rw [sameNames] at read
  have named := hostname_mem_nodeNames made labelled created read
  obtain ⟨node, member, _⟩ := knows.nodes [] (absent hostname named)
  cases member

/-- No licensed call acts on a provisioned PV or its PVC. -/
theorem KnowsOwner.not_actsOn
    {pvc : PersistentVolumeClaim}
    {history : CleanupHistory}
    (knows : KnowsOwner hostname built pvc history)
    (bound : pvc.volumeName = built.name)
    {key : String}
    {op : CleanupOp}
    (licensed : CleanupHistory.Licensed key history op) :
    ¬ ActsOn built pvc op := by
  intro acts
  rcases acts with rfl | ⟨delay, rfl⟩ | rfl
  · obtain ⟨pvs, pv, listed, member, named, stale⟩ := licensed
    exact knows.not_showsStale made labelled created
      (knows.listedPVs pvs listed pv member named) stale
  · obtain ⟨pvs, pv, listed, member, named, stale⟩ := licensed
    exact knows.not_showsStale made labelled created
      (knows.listedPVs pvs listed pv member named) stale
  · obtain ⟨pv, claim, found, shown, _, _, sameUID⟩ := licensed
    have sameVolume := knows.gotPVC _ _ found shown.gotPVC sameUID.symm
    obtain ⟨named, nonempty, sameAffinity⟩ := knows.gotPV key pv shown.gotPV
    have isBuilt : key = built.name := by
      rw [shown.volumeName, named] at sameVolume
      rw [← bound]
      exact sameVolume.resolve_right nonempty
    exact knows.not_showsStale made labelled created
      (sameAffinity isBuilt) shown.stale

/-- A routine whose calls are licensed spares the PV and its PVC. -/
theorem spares_of_recorded
    {α : Type}
    {pvc : PersistentVolumeClaim}
    (bound : pvc.volumeName = built.name)
    {key : String}
    {post : α → CleanupHistory → Prop}
    {routine : CleanupRoutine α}
    (recorded : Recorded key post [] routine) :
    Spares hostname built pvc routine := by
  intro history op rest unfolded knows
  have licensed := (recorded.unfolds unfolded).recorded_call.1
  exact knows.not_actsOn made labelled created bound licensed

/--
While the node lister has a node with the hostname label that a PV was
provisioned with, neither the deleter nor the controller acts on the PV or on
the PVC bound to it.
-/
theorem spares_provisioned
    {pvc : PersistentVolumeClaim}
    (bound : pvc.volumeName = built.name)
    (config : CleanupConfig)
    (key : String) :
    Spares hostname built pvc (deletePVs config) ∧
      Spares hostname built pvc (startCleanupTimersIfNeeded config) ∧
      Spares hostname built pvc (syncHandler key) := by
  have spares {α : Type} {post : α → CleanupHistory → Prop}
      {routine : CleanupRoutine α} (recorded : Recorded key post [] routine) :=
    spares_of_recorded made labelled created bound recorded
  exact ⟨spares (recorded_deletePVs config),
    spares (recorded_startCleanupTimersIfNeeded config),
    spares (recorded_syncHandler CleanupHistory.not_failed_nil)⟩

end Provisioned

/-- The file of the sample class. -/
def sampleCandidate : Candidate where
  file := "volume"
  storageClass := "fast"
  config := sampleMount "/mnt/disks" "/mnt/fast"
  reclaimPolicy := .delete
  startTime := 0

/-- The PV that the sample provisioner creates for it. -/
def provisionedPV : PersistentVolume :=
  localPV (sampleDiscoverer false sampleClasses) sampleCandidate [] 0 ""

/-- A PVC bound to this PV. -/
def provisionedPVC : PersistentVolumeClaim where
  namespaceName := "default"
  name := "claim"
  uid := 7
  volumeName := provisionedPV.name

/-- The PV is spared as long as its node is known. -/
theorem spares_provisionedPV :
    newDiscoverer (sampleRuntime false sampleClasses) =
        .ok (sampleDiscoverer false sampleClasses) ∧
      sampleNode.labels.lookup hostnameLabel = some "node" ∧
      Spares "node" provisionedPV provisionedPVC (deletePVs sampleCleanup) ∧
      Spares "node" provisionedPV provisionedPVC
        (startCleanupTimersIfNeeded sampleCleanup) ∧
      Spares "node" provisionedPV provisionedPVC
        (syncHandler provisionedPV.name) := by
  have made := newDiscoverer_sampleRuntime false sampleClasses
  have labelled : sampleNode.labels.lookup hostnameLabel = some "node" := rfl
  have created :
      .createPV provisionedPV ∈
        (createPV (sampleDiscoverer false sampleClasses) sampleCandidate []
          0).calls fun _ => none :=
    List.mem_cons_self
  exact ⟨made, labelled,
    spares_provisioned made labelled created rfl sampleCleanup
      provisionedPV.name⟩

end NodeCleanup

end LocalProvisioner
