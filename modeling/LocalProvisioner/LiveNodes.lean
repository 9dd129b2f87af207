import LocalProvisioner.NodeCleanup

namespace LocalProvisioner

namespace NodeCleanup

open Interleaving

/-!
# Resources that a live node can serve

The node-cleanup components take a PV to be stale if none of the nodes named
by its hostname expressions exists.  A term without a hostname expression
names no node, but a live node may satisfy it: such terms are ignored, and a
PV all of whose terms are of this kind has the empty list of node names, which
the callers do not take for the missing one.  PVs and PVCs that a live node
serves are deleted then, and only then.
-/

/-- A deletion of the PV by `DeletePVs`, or of its PVC by `syncHandler`. -/
def Removes
    (config : CleanupConfig)
    (listers : Listers)
    (outcome : CleanupOp → Except ApiError Unit)
    (pv : PersistentVolume) : Prop :=
  .deletePV pv.name ∈ (deletePVs config).calls (listers.answer outcome) ∨
    ∃ namespaceName name uid,
      .deletePVC namespaceName name uid ∈
        (syncHandler pv.name).calls (listers.answer outcome)

/-- A node satisfies a term of the affinity that names no node. -/
def servesUnnamed (node : Node) (pv : PersistentVolume) : Bool :=
  pv.requiredAffinity.any fun selector =>
    selector.nodeSelectorTerms.any fun term =>
      term.namesNoHost && term.matchesLabels node.labels

/-- The state of the PV and its PVC allows a deletion, wherever its node is. -/
def removable
    (config : CleanupConfig)
    (listers : Listers)
    (pv : PersistentVolume) :
    Bool :=
  isLocalPVWithStorageClass pv config.storageClassNames && isDisposable pv ||
    (listers.boundPVC pv).isSome

/-- Some node that the affinity names may exist. -/
def namedNodeMayExist (listers : Listers) (pv : PersistentVolume) : Bool :=
  (getLocalPersistentVolumeNodeNames pv).any fun nodeNames =>
    nodeNames.any listers.mayExist

section Removal

variable {config : CleanupConfig}
variable {listers : Listers}
variable {outcome : CleanupOp → Except ApiError Unit}
variable {pv : PersistentVolume}

/-- What is removed is removable, and the nodes it names are gone. -/
theorem removes_iff (stored : listers.pvs.get pv.name = some pv) :
    Removes config listers outcome pv ↔
      removable config listers pv = true ∧ listers.isStale pv = true := by
  simp only [removable, Bool.or_eq_true, Bool.and_eq_true,
    Option.isSome_iff_exists]
  constructor
  · rintro (deleted | ⟨namespaceName, name, uid, deleted⟩)
    · obtain ⟨other, found, isLocal, stale, disposable⟩ :=
        Listers.deletePV_mem_calls_deletePVs.mp deleted
      cases stored.symm.trans found
      exact ⟨.inl ⟨isLocal, disposable⟩, stale⟩
    · obtain ⟨other, pvc, found, stale, bound, _⟩ :=
        Listers.deletePVC_mem_calls_syncHandler.mp deleted
      cases stored.symm.trans found
      exact ⟨.inr ⟨pvc, bound⟩, stale⟩
  · rintro ⟨⟨isLocal, disposable⟩ | ⟨pvc, bound⟩, stale⟩
    · exact .inl (Listers.deletePV_mem_calls_deletePVs.mpr
        ⟨pv, stored, isLocal, stale, disposable⟩)
    · exact .inr ⟨_, _, _, Listers.deletePVC_mem_calls_syncHandler.mpr
        ⟨pv, pvc, stored, stale, bound, rfl, rfl, rfl⟩⟩

/-- A node that satisfies a naming term of the affinity is found by name. -/
theorem mayExist_of_matchesLabels
    {selector : NodeSelector}
    {term : NodeSelectorTerm}
    {node : Node}
    {nodeNames : List String}
    (required : pv.requiredAffinity = some selector)
    (read : getLocalPersistentVolumeNodeNames pv = some nodeNames)
    (ofSelector : term ∈ selector.nodeSelectorTerms)
    (matched : term.matchesLabels node.labels = true)
    (naming : term.namesNoHost = false)
    (live : node ∈ listers.nodes.list) :
    nodeNames.any listers.mayExist = true := by
  have named :
      ∃ expression ∈ term.matchExpressions, expression.namesHosts = true := by
    simpa [NodeSelectorTerm.namesNoHost] using naming
  obtain ⟨hostname, labelled, host⟩ := hostname_of_matchesLabels matched named
  have member : hostname ∈ nodeNames :=
    (mem_getLocalPersistentVolumeNodeNames required read hostname).mpr
      ⟨term, ofSelector, host⟩
  have carrier : node ∈ listers.labelledNodes hostname := by
    simp [Listers.labelledNodes, live, labelled]
  rw [List.any_eq_true]
  refine ⟨hostname, member, ?_⟩
  have occupied := List.ne_nil_of_mem carrier
  simp [Listers.mayExist, occupied]

/-- A node that satisfies an unnamed term satisfies the affinity. -/
theorem serves_of_servesUnnamed
    {node : Node}
    (unnamed : servesUnnamed node pv = true) :
    node.serves pv = true := by
  unfold servesUnnamed at unnamed
  unfold Node.serves
  cases required : pv.requiredAffinity with
  | none => rfl
  | some selector =>
      simp only [required, Option.any_some, List.any_eq_true,
        Bool.and_eq_true] at unnamed
      obtain ⟨term, ofSelector, _, matched⟩ := unnamed
      simp only [Option.all_some, NodeSelector.matchesLabels, List.any_eq_true]
      exact ⟨term, ofSelector, matched⟩

/-- If no node may be found by name, only unnamed terms can be satisfied. -/
theorem servesUnnamed_of_serves
    {node : Node}
    (stale : listers.isStale pv = true)
    (live : node ∈ listers.nodes.list)
    (serves : node.serves pv = true) :
    servesUnnamed node pv = true := by
  unfold Listers.isStale at stale
  obtain ⟨nodeNames, read, gone⟩ := Option.any_eq_true _ _ |>.mp stale
  obtain ⟨selector, required, _⟩ := Option.map_eq_some_iff.mp read
  unfold Node.serves at serves
  unfold servesUnnamed
  simp only [required, Option.all_some, NodeSelector.matchesLabels,
    List.any_eq_true] at serves
  obtain ⟨term, ofSelector, matched⟩ := serves
  simp only [required, Option.any_some, List.any_eq_true, Bool.and_eq_true]
  refine ⟨term, ofSelector, ?_, matched⟩
  cases naming : term.namesNoHost with
  | true => rfl
  | false =>
      have exist :=
        mayExist_of_matchesLabels required read ofSelector matched naming live
      rw [exist] at gone
      cases gone

/--
Node cleanup spares what a live node can serve, exactly if it cannot remove
the PV or its PVC, or a named node may exist, or no live node satisfies a term
that names no node.
-/
theorem spares_served_iff (stored : listers.pvs.get pv.name = some pv) :
    (Removes config listers outcome pv →
        ∀ node ∈ listers.nodes.list, node.serves pv = false) ↔
      (removable config listers pv = true →
        namedNodeMayExist listers pv = false →
        ∀ node ∈ listers.nodes.list, servesUnnamed node pv = false) := by
  rw [removes_iff stored]
  constructor
  · intro spares canRemove noneNamed node live
    cases unnamed : servesUnnamed node pv with
    | false => rfl
    | true =>
        have serves := serves_of_servesUnnamed unnamed
        have stale : listers.isStale pv = true := by
          unfold servesUnnamed at unnamed
          obtain ⟨selector, required, _⟩ :=
            Option.any_eq_true _ _ |>.mp unnamed
          simpa [Listers.isStale, namedNodeMayExist,
            getLocalPersistentVolumeNodeNames, required] using noneNamed
        rw [spares ⟨canRemove, stale⟩ node live] at serves
        cases serves
  · rintro unserved ⟨canRemove, stale⟩ node live
    have noneNamed : namedNodeMayExist listers pv = false := by
      unfold Listers.isStale at stale
      obtain ⟨nodeNames, read, gone⟩ := Option.any_eq_true _ _ |>.mp stale
      simpa [namedNodeMayExist, read] using gone
    cases serves : node.serves pv with
    | false => rfl
    | true =>
        have unnamed := servesUnnamed_of_serves stale live serves
        rw [unserved canRemove noneNamed node live] at unnamed
        cases unnamed

end Removal

/-- A PV of a deleted node, also offered to a zone by a configured selector. -/
def zonePV : PersistentVolume :=
  sampleAffinityPV [
    { matchExpressions := [sampleHosts ["gone"]] },
    { matchExpressions := [
        { key := "zone", operator := .opIn, values := ["a"] }] }]

/-- A live node of that zone. -/
def zoneNode : Node where
  name := "live"
  uid := "1"
  labels := AList.insert "zone" "a" (AList.insert hostnameLabel "live" ∅)

/-- The PV and the node are all that the listers hold. -/
def zoneListers : Listers where
  pvs := ObjectStore.empty.put zonePV
  nodes := ObjectStore.empty.put zoneNode
  pvcs := .empty

theorem get_zonePV : zoneListers.pvs.get zonePV.name = some zonePV :=
  ObjectStore.get_put_self .empty zonePV

/-- The equivalence on the listers of the zone. -/
theorem spares_served_iff_of_zoneListers :
    zoneListers.pvs.get zonePV.name = some zonePV ∧
      ((Removes sampleCleanup zoneListers (fun _ => .ok ()) zonePV →
          ∀ node ∈ zoneListers.nodes.list, node.serves zonePV = false) ↔
        (removable sampleCleanup zoneListers zonePV = true →
          namedNodeMayExist zoneListers zonePV = false →
          ∀ node ∈ zoneListers.nodes.list,
            servesUnnamed node zonePV = false)) :=
  ⟨get_zonePV, spares_served_iff get_zonePV⟩

/-- The PV is deleted although the live node satisfies its affinity. -/
theorem removes_served_pv :
    ∃ config listers outcome pv node,
      listers.pvs.get pv.name = some pv ∧
        Removes config listers outcome pv ∧
        node ∈ listers.nodes.list ∧
        node.serves pv = true := by
  refine ⟨sampleCleanup, zoneListers, fun _ => .ok (), zonePV, zoneNode,
    get_zonePV, ?_, ?_, ?_⟩
  · exact .inl (by decide +kernel)
  · exact ObjectStore.mem_list.mpr (ObjectStore.get_put_self .empty zoneNode)
  · decide +kernel

end NodeCleanup

end LocalProvisioner
