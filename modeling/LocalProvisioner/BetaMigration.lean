import LocalProvisioner.SyncLoop

namespace LocalProvisioner

open Interleaving

/-!
# From the alpha annotation to the node affinity field

Local PVs used to carry their node affinity in an annotation.  The tool
`update-pv-to-beta` moves it into `spec.nodeAffinity`: it lists all PVs,
decodes the annotation of every local one that has it, and updates the PV.

The tool exits successfully if every update does, and users let a Kubernetes
job repeat it until then.
-/

/-- `v1.NodeAffinity` with the field the tool reads. -/
structure NodeAffinity where
  requiredDuringSchedulingIgnoredDuringExecution : Option NodeSelector
  deriving Repr, DecidableEq

/-- `json.Unmarshal` into a `v1.NodeAffinity`. -/
abbrev UnmarshalAffinity := String → Except String NodeAffinity

/-- The alpha annotation of a PV; a missing one reads as the empty string. -/
def PersistentVolume.alphaAffinity (pv : PersistentVolume) : String :=
  (pv.annotations.lookup alphaNodeAffinityAnnotation).getD ""

/-- `cloneAndUpdatePV`. -/
def cloneAndUpdatePV
    (unmarshal : UnmarshalAffinity)
    (pv : PersistentVolume) :
    Except String PersistentVolume :=
  match unmarshal pv.alphaAffinity with
  | .error err => .error err
  | .ok affinity =>
      .ok { pv with
        annotations := pv.annotations.erase alphaNodeAffinityAnnotation
        nodeAffinity := some {
          required := affinity.requiredDuringSchedulingIgnoredDuringExecution
        } }

/-!
## Migration and creation
-/

/-- Decoding undoes the encoding that the provisioner uses for its annotation. -/
def Undoes
    (unmarshal : UnmarshalAffinity)
    (marshal : NodeSelector → Except String String) : Prop :=
  ∀ selector text,
    marshal selector = .ok text →
    unmarshal text =
      .ok { requiredDuringSchedulingIgnoredDuringExecution := some selector }

/-- The same discoverer, with or without the alpha API. -/
def Discoverer.withAlphaAPI (discoverer : Discoverer) (useAlphaAPI : Bool) :
    Discoverer :=
  { discoverer with useAlphaAPI := useAlphaAPI }

/-- The annotation that `createPV` writes encodes the node affinity. -/
theorem marshalled_of_annotated
    {discoverer : Discoverer}
    {config : MountConfig}
    {affinityAnn : String}
    (annotated :
      generateAffinityAnn (discoverer.withAlphaAPI true) config =
        .ok affinityAnn) :
    discoverer.marshalAffinity {
        nodeSelectorTerms :=
          discoverer.nodeSelector.nodeSelectorTerms ++ config.selector } =
      .ok affinityAnn := by
  simp only [generateAffinityAnn, Discoverer.withAlphaAPI, if_true]
    at annotated
  split at annotated
  · cases annotated
  · rename_i marshalled
    cases annotated
    exact marshalled

/-- Taking a new entry out again leaves a map as it was. -/
theorem erase_insert_of_ne
    {first second : String}
    (apart : second ≠ first)
    (firstValue secondValue : String) :
    ((AList.insert first firstValue ∅ : GoMap String).insert second
        secondValue).erase second =
      AList.insert first firstValue ∅ := by
  have absent :
      second ∉
        (AList.insert first firstValue ∅ : GoMap String).entries.keys := by
    simpa using apart
  apply AList.ext
  simp only [entries_erase, AList.entries_insert, List.kerase_cons_eq]
  exact List.kerase_of_notMem_keys absent

/--
Migrating the PV that is created with the alpha API gives the PV that is
created without it, and migrating any PV changes nothing but its node affinity
and the annotation.
-/
theorem cloneAndUpdatePV_of_created
    {unmarshal : UnmarshalAffinity}
    {discoverer : Discoverer}
    {candidate : Candidate}
    {mountOptions : List String}
    {capacityByte : Int}
    {alphaAnswer betaAnswer : (op : Op) → Option op.Reply}
    {alphaPV betaPV : PersistentVolume}
    (undoes : Undoes unmarshal discoverer.marshalAffinity)
    (alphaBuilt :
      .createPV alphaPV ∈
        Program.calls alphaAnswer
          (createPV (discoverer.withAlphaAPI true) candidate mountOptions
            capacityByte))
    (betaBuilt :
      .createPV betaPV ∈
        Program.calls betaAnswer
          (createPV (discoverer.withAlphaAPI false) candidate mountOptions
            capacityByte)) :
    cloneAndUpdatePV unmarshal alphaPV = .ok betaPV ∧
      ∀ pv clone,
        cloneAndUpdatePV unmarshal pv = .ok clone →
        clone =
          { pv with
            annotations := pv.annotations.erase alphaNodeAffinityAnnotation
            nodeAffinity := clone.nodeAffinity } := by
  constructor
  · obtain ⟨affinityAnn, annotated, rfl⟩ :=
      localPV_of_mem_calls_createPV alphaBuilt
    obtain ⟨unused, -, rfl⟩ := localPV_of_mem_calls_createPV betaBuilt
    have decoded := undoes _ _ (marshalled_of_annotated annotated)
    have carried :
        (localPV (discoverer.withAlphaAPI true) candidate mountOptions
          capacityByte affinityAnn).alphaAffinity = affinityAnn := by
      simp [PersistentVolume.alphaAffinity, localPV, createLocalPVSpec,
        Discoverer.withAlphaAPI]
    have apart : alphaNodeAffinityAnnotation ≠ annProvisionedBy := by
      decide
    rw [cloneAndUpdatePV, carried, decoded]
    simp only [localPV, createLocalPVSpec, Discoverer.withAlphaAPI, if_true,
      Bool.false_eq_true, if_false, erase_insert_of_ne apart]
    rfl
  · intro pv clone migrated
    unfold cloneAndUpdatePV at migrated
    split at migrated
    · cases migrated
    · cases migrated
      rfl

/-- The node affinity of the sample node as JSON. -/
def sampleAffinityText : String :=
  "\x7b\"requiredDuringSchedulingIgnoredDuringExecution\":" ++
    "\x7b\"nodeSelectorTerms\":[\x7b\"matchExpressions\":[" ++
    "\x7b\"key\":\"kubernetes.io/hostname\",\"operator\":\"In\"," ++
    "\"values\":[\"node\"]\x7d]\x7d]\x7d\x7d"

/-- The encoding of this one affinity. -/
def marshalSample (selector : NodeSelector) : Except String String :=
  if selector = (sampleDiscoverer false sampleClasses).nodeSelector then
    .ok sampleAffinityText
  else
    .error "json: unsupported value"

/-- The decoding of this one text. -/
def unmarshalSample : UnmarshalAffinity := fun text =>
  if text = sampleAffinityText then
    .ok {
      requiredDuringSchedulingIgnoredDuringExecution :=
        some (sampleDiscoverer false sampleClasses).nodeSelector
    }
  else
    .error "invalid character 'x' looking for beginning of value"

/-- A discoverer on the sample node that can write the alpha annotation. -/
def sampleMigratingDiscoverer : Discoverer :=
  { sampleDiscoverer false sampleClasses with marshalAffinity := marshalSample }

/-- A file of the class on that node. -/
def sampleMigrated : Candidate where
  file := "volume"
  storageClass := "fast"
  config := sampleMount "/mnt/disks" "/mnt/fast"
  reclaimPolicy := .delete
  startTime := 0

theorem cloneAndUpdatePV_of_sampleMigrated :
    cloneAndUpdatePV unmarshalSample
        (localPV (sampleMigratingDiscoverer.withAlphaAPI true) sampleMigrated
          [] 0 sampleAffinityText) =
      .ok (localPV (sampleMigratingDiscoverer.withAlphaAPI false)
        sampleMigrated [] 0 "") := by
  have undoes :
      Undoes unmarshalSample sampleMigratingDiscoverer.marshalAffinity := by
    intro selector text marshalled
    change marshalSample selector = .ok text at marshalled
    unfold marshalSample at marshalled
    split at marshalled
    · rename_i isSample
      cases marshalled
      rw [isSample]
      exact if_pos rfl
    · cases marshalled
  have alphaBuilt :
      .createPV (localPV (sampleMigratingDiscoverer.withAlphaAPI true)
          sampleMigrated [] 0 sampleAffinityText) ∈
        Program.calls (fun _ => none)
          (createPV (sampleMigratingDiscoverer.withAlphaAPI true)
            sampleMigrated [] 0) :=
    .head _
  have betaBuilt :
      .createPV (localPV (sampleMigratingDiscoverer.withAlphaAPI false)
          sampleMigrated [] 0 "") ∈
        Program.calls (fun _ => none)
          (createPV (sampleMigratingDiscoverer.withAlphaAPI false)
            sampleMigrated [] 0) :=
    .head _
  exact (cloneAndUpdatePV_of_created undoes alphaBuilt betaBuilt).1

/-!
## A run of the tool
-/

/-- The errors of the API server that the tool tells apart. -/
inductive MigrationError where
  | notFound : MigrationError
  | tooManyRequests : MigrationError
  | other : String → MigrationError
  deriving Repr, DecidableEq

/-- The calls of the tool. -/
inductive MigrationOp where
  | listPVs : MigrationOp
  | updatePV : PersistentVolume → MigrationOp

/-- The reply type of each call. -/
def MigrationOp.Reply : MigrationOp → Type
  | .listPVs => Except MigrationError (List PersistentVolume)
  | .updatePV _ => Except MigrationError Unit

/-- The signature of the tool. -/
abbrev migrationSignature : Signature where
  Op := MigrationOp
  Reply := MigrationOp.Reply

/-- A routine of the tool. -/
abbrev MigrationRoutine (α : Type) := Program migrationSignature α

/-- Make one call of the tool. -/
def MigrationOp.perform (op : MigrationOp) : MigrationRoutine op.Reply :=
  @Program.perform migrationSignature op

/-- Does the tool migrate this PV? -/
def PersistentVolume.needsMigration (pv : PersistentVolume) : Bool :=
  pv.localSource.isSome && decide (pv.alphaAffinity ≠ "")

/-- `updateLocalPVAlphaAnn`; a PV that is gone needs no update. -/
def updateLocalPVAlphaAnn
    (unmarshal : UnmarshalAffinity)
    (pv : PersistentVolume) :
    MigrationRoutine (Except MigrationError Unit) :=
  if pv.localSource = none then
    pure (.ok ())
  else if pv.alphaAffinity ≠ "" then
    match cloneAndUpdatePV unmarshal pv with
    | .error err => pure (.error (.other err))
    | .ok pvClone => do
        match ← MigrationOp.perform (.updatePV pvClone) with
        | .error .notFound => pure (.ok ())
        | .error err => pure (.error err)
        | .ok _ => pure (.ok ())
  else
    pure (.ok ())

/-- The loop of `startSwitchingLocalPVAlphaAnn`. -/
def switchLocalPVs (unmarshal : UnmarshalAffinity) :
    List PersistentVolume →
    Bool →
    MigrationRoutine (Except MigrationError Unit)
  | [], updateFailed =>
      if updateFailed then
        pure (.error (.other "updating local PVs error"))
      else
        pure (.ok ())
  | pv :: rest, updateFailed => do
      match ← updateLocalPVAlphaAnn unmarshal pv with
      | .ok _ => switchLocalPVs unmarshal rest updateFailed
      | .error .tooManyRequests => pure (.error .tooManyRequests)
      | .error _ => switchLocalPVs unmarshal rest true

/--
`startSwitchingLocalPVAlphaAnn`.  An error of `List` is logged and ignored;
the list that the client returns with it is empty.
-/
def startSwitchingLocalPVAlphaAnn (unmarshal : UnmarshalAffinity) :
    MigrationRoutine (Except MigrationError Unit) := do
  let listed ← MigrationOp.perform .listPVs
  let pvs :=
    match listed with
    | .ok pvs => pvs
    | .error _ => []
  if pvs.isEmpty then
    pure (.ok ())
  else
    switchLocalPVs unmarshal pvs false

/-- The PVs of the cluster. -/
abbrev PVSet := ObjectStore PersistentVolume PersistentVolume.name

/-- Why an update fails that does not find its PV missing. -/
inductive UpdateFailure where
  | tooManyRequests : UpdateFailure
  | other : String → UpdateFailure
  deriving Repr, DecidableEq

/-- The error of a failed update. -/
def UpdateFailure.error : UpdateFailure → MigrationError
  | .tooManyRequests => .tooManyRequests
  | .other message => .other message

/-- How the API server treats an update; a lost one is carried out all the same. -/
inductive UpdateOutcome where
  | processed : UpdateOutcome
  | rejected : UpdateFailure → UpdateOutcome
  | lost : UpdateFailure → UpdateOutcome

/-- What the surroundings choose for one call. -/
structure MigrationAnswers where
  listFault : Option MigrationError := none
  /-- The PVs that others have deleted since the last call. -/
  deleted : List String := []
  outcome : UpdateOutcome := .processed

/-- `Update` at the API server. -/
def execUpdatePV
    (pvs : PVSet)
    (outcome : UpdateOutcome)
    (pv : PersistentVolume) :
    Except MigrationError Unit × PVSet :=
  match outcome, pvs.get pv.name with
  | .rejected failure, _ => (.error failure.error, pvs)
  | .processed, none => (.error .notFound, pvs)
  | .processed, some _ => (.ok (), pvs.put pv)
  | .lost failure, none => (.error failure.error, pvs)
  | .lost failure, some _ => (.error failure.error, pvs.put pv)

/-- The effect of one call; the order of the store is the order of the list. -/
def execMigration
    (op : MigrationOp)
    (answers : MigrationAnswers)
    (pvs : PVSet) :
    Option (op.Reply × PVSet) :=
  match op with
  | .listPVs =>
      match answers.listFault with
      | some err => some (.error err, pvs)
      | none => some (.ok pvs.list, pvs)
  | .updatePV pv =>
      some (execUpdatePV (answers.deleted.foldl ObjectStore.drop pvs)
        answers.outcome pv)

/-- A run of the tool: its calls, and its result and the PVs after it. -/
def migrate
    (unmarshal : UnmarshalAffinity)
    (oracle : MigrationOp → MigrationAnswers)
    (pvs : PVSet) :
    List (Answered migrationSignature) ×
      Except MigrationOp (Except MigrationError Unit × PVSet) :=
  Program.trace execMigration oracle (startSwitchingLocalPVAlphaAnn unmarshal)
    pvs

/--
What success of the tool is to mean: no local PV that is still there has the
annotation, no other PV has changed, and the tool would send no update.
-/
structure Migrated
    (unmarshal : UnmarshalAffinity)
    (before after : PVSet) : Prop where
  complete :
    ∀ pvName pv now,
      before.get pvName = some pv →
      pv.localSource ≠ none →
      after.get pvName = some now →
      now.alphaAffinity = ""
  untouched :
    ∀ pvName pv now,
      before.get pvName = some pv →
      pv.needsMigration = false →
      after.get pvName = some now →
      now = pv
  settled :
    ∀ oracle pv,
      .updatePV pv ∉ (migrate unmarshal oracle after).1.map Answered.op

/-- The tool ends, and reports success only if everything is migrated. -/
def ReportsTruly
    (unmarshal : UnmarshalAffinity)
    (oracle : MigrationOp → MigrationAnswers)
    (pvs : PVSet) : Prop :=
  ∃ result after,
    (migrate unmarshal oracle pvs).2 = .ok (result, after) ∧
      (result = .ok () → Migrated unmarshal pvs after)

section Loop

variable {unmarshal : UnmarshalAffinity}
variable {oracle : MigrationOp → MigrationAnswers}
variable {before middle after : PVSet}

/-- A PV is as it was, or gone. -/
def KeptOrGone (before after : PVSet) (pvName : String) : Prop :=
  after.get pvName = before.get pvName ∨ after.get pvName = none

/-- A PV has no annotation any more, or is gone. -/
def Settled (after : PVSet) (pvName : String) : Prop :=
  ∀ now, after.get pvName = some now → now.alphaAffinity = ""

theorem KeptOrGone.trans
    {pvName : String}
    (first : KeptOrGone before middle pvName)
    (second : KeptOrGone middle after pvName) :
    KeptOrGone before after pvName := by
  rcases second with same | gone
  · rcases first with sameToo | goneToo
    · exact .inl (same.trans sameToo)
    · exact .inr (same.trans goneToo)
  · exact .inr gone

theorem Settled.kept
    {pvName : String}
    (settled : Settled middle pvName)
    (kept : KeptOrGone middle after pvName) :
    Settled after pvName := by
  intro now found
  rcases kept with same | gone
  · exact settled now (same ▸ found)
  · rw [gone] at found
    cases found

/-- Deletions by others. -/
theorem keptOrGone_foldl_drop
    (deleted : List String)
    (pvs : PVSet)
    (pvName : String) :
    KeptOrGone pvs (deleted.foldl ObjectStore.drop pvs) pvName := by
  induction deleted generalizing pvs with
  | nil => exact .inl rfl
  | cons gone rest inductionHypothesis =>
      have first : KeptOrGone pvs (pvs.drop gone) pvName := by
        unfold KeptOrGone
        rw [ObjectStore.get_drop]
        split
        · exact .inr rfl
        · exact .inl rfl
      exact first.trans (inductionHypothesis (pvs.drop gone))

/-- An update touches its own PV, and is in place if it did not fail. -/
theorem execUpdatePV_spec
    (pvs : PVSet)
    (outcome : UpdateOutcome)
    (clone : PersistentVolume) :
    (∀ other,
      other ≠ clone.name →
      (execUpdatePV pvs outcome clone).2.get other = pvs.get other) ∧
      ((execUpdatePV pvs outcome clone).1 = .ok () ∨
          (execUpdatePV pvs outcome clone).1 = .error .notFound →
        ∀ now,
          (execUpdatePV pvs outcome clone).2.get clone.name = some now →
          now = clone) := by
  have put :
      ∀ other, other ≠ clone.name → (pvs.put clone).get other = pvs.get other := by
    intro other apart
    rw [ObjectStore.get_put, if_neg apart]
  have failed : ∀ failure : UpdateFailure, failure.error ≠ .notFound := by
    intro failure
    cases failure <;> simp [UpdateFailure.error]
  cases outcome with
  | rejected failure =>
      refine ⟨fun _ _ => rfl, ?_⟩
      intro fine
      simp [execUpdatePV, failed] at fine
  | processed =>
      cases found : pvs.get clone.name with
      | none => simp [execUpdatePV, found]
      | some current =>
          simp only [execUpdatePV, found]
          refine ⟨put, fun _ now stored => ?_⟩
          rw [ObjectStore.get_put_self] at stored
          exact (Option.some.inj stored).symm
  | lost failure =>
      cases found : pvs.get clone.name with
      | none => simp [execUpdatePV, found]
      | some current =>
          simp only [execUpdatePV, found]
          refine ⟨put, fun fine => ?_⟩
          simp [failed] at fine

/-- A migrated PV keeps its name and has no annotation. -/
theorem clone_of_cloneAndUpdatePV
    {pv clone : PersistentVolume}
    (cloned : cloneAndUpdatePV unmarshal pv = .ok clone) :
    clone.name = pv.name ∧ clone.alphaAffinity = "" := by
  unfold cloneAndUpdatePV at cloned
  split at cloned
  · cases cloned
  · cases cloned
    exact ⟨rfl, by simp [PersistentVolume.alphaAffinity]⟩

/-- Nothing is done about a PV that needs no migration. -/
theorem updateLocalPVAlphaAnn_of_unneeded
    {pv : PersistentVolume}
    (unneeded : pv.needsMigration = false) :
    updateLocalPVAlphaAnn unmarshal pv = pure (.ok ()) := by
  unfold updateLocalPVAlphaAnn
  split
  · rfl
  · rename_i isLocal
    split
    · rename_i annotated
      have isSome : pv.localSource.isSome = true :=
        Option.isSome_iff_ne_none.mpr isLocal
      simp [PersistentVolume.needsMigration, isSome, annotated] at unneeded
    · rfl

/-- What the tool does about one PV. -/
theorem ends_updateLocalPVAlphaAnn
    (pv : PersistentVolume) :
    Program.Ends execMigration oracle (updateLocalPVAlphaAnn unmarshal pv)
      before
      fun _ result after =>
        (∀ other, other ≠ pv.name → KeptOrGone before after other) ∧
          (pv.needsMigration = false → after = before) ∧
          (pv.needsMigration = true →
            result = .ok () →
            Settled after pv.name) := by
  by_cases needed : pv.needsMigration = true
  · obtain ⟨isLocal, annotated⟩ :
        pv.localSource.isSome = true ∧ pv.alphaAffinity ≠ "" := by
      simpa [PersistentVolume.needsMigration] using needed
    have notNone : pv.localSource ≠ none :=
      Option.isSome_iff_ne_none.mp isLocal
    unfold updateLocalPVAlphaAnn
    rw [if_neg notNone, if_pos annotated]
    cases cloned : cloneAndUpdatePV unmarshal pv with
    | error err =>
        apply Program.Ends.done
        exact ⟨fun _ _ => .inl rfl, fun _ => rfl, fun _ failed => by cases failed⟩
    | ok clone =>
        obtain ⟨sameName, cleared⟩ := clone_of_cloneAndUpdatePV cloned
        have thinned :=
          keptOrGone_foldl_drop (oracle (.updatePV clone)).deleted before
        have replied :
            execMigration (.updatePV clone) (oracle (.updatePV clone)) before =
              some (execUpdatePV
                ((oracle (.updatePV clone)).deleted.foldl ObjectStore.drop
                  before)
                (oracle (.updatePV clone)).outcome clone) := rfl
        have spec :=
          execUpdatePV_spec
            ((oracle (.updatePV clone)).deleted.foldl ObjectStore.drop before)
            (oracle (.updatePV clone)).outcome clone
        generalize execUpdatePV _ _ clone = outcome at replied spec
        obtain ⟨reply, after⟩ := outcome
        obtain ⟨elsewhere, inPlace⟩ := spec
        have others :
            ∀ other, other ≠ pv.name → KeptOrGone before after other := by
          intro other apart
          have same := elsewhere other (sameName ▸ apart)
          exact (thinned other).trans (.inl same)
        have settled :
            reply = .ok () ∨ reply = .error .notFound →
            Settled after pv.name := by
          intro fine now found
          rw [← sameName] at found
          rw [inPlace fine now found]
          exact cleared
        have neededOnly :
            pv.needsMigration = false → after = before := by
          intro unneeded
          rw [needed] at unneeded
          cases unneeded
        apply Program.Ends.call replied
        rcases reply with (_ | _ | _) | _
        · exact .done ⟨others, neededOnly, fun _ _ => settled (.inr rfl)⟩
        · exact .done ⟨others, neededOnly, fun _ failed => by cases failed⟩
        · exact .done ⟨others, neededOnly, fun _ failed => by cases failed⟩
        · exact .done ⟨others, neededOnly, fun _ _ => settled (.inl rfl)⟩
  · rw [Bool.not_eq_true] at needed
    rw [updateLocalPVAlphaAnn_of_unneeded needed]
    apply Program.Ends.done
    refine ⟨fun _ _ => .inl rfl, fun _ => rfl, fun isNeeded => ?_⟩
    rw [needed] at isNeeded
    cases isNeeded

/-- What holds after the tool has worked on some of the PVs. -/
structure WorkedOn
    (pvs : List PersistentVolume)
    (updateFailed : Bool)
    (before : PVSet)
    (result : Except MigrationError Unit)
    (after : PVSet) : Prop where
  others :
    ∀ other,
      other ∉ pvs.map PersistentVolume.name →
      KeptOrGone before after other
  unneeded :
    ∀ pv ∈ pvs,
      pv.needsMigration = false →
      KeptOrGone before after pv.name
  settled :
    result = .ok () →
    updateFailed = false ∧
      ∀ pv ∈ pvs, pv.needsMigration = true → Settled after pv.name

/-- The first PV and the rest of a list. -/
theorem WorkedOn.cons
    {pv : PersistentVolume}
    {rest : List PersistentVolume}
    {updateFailed failedNow : Bool}
    {result : Except MigrationError Unit}
    (different : pv.name ∉ rest.map PersistentVolume.name)
    (othersFirst : ∀ other, other ≠ pv.name → KeptOrGone before middle other)
    (unneededFirst : pv.needsMigration = false → middle = before)
    (settledFirst :
      result = .ok () →
      failedNow = false →
      updateFailed = false ∧
        (pv.needsMigration = true → Settled middle pv.name))
    (worked : WorkedOn rest failedNow middle result after) :
    WorkedOn (pv :: rest) updateFailed before result after where
  others := by
    intro other elsewhere
    simp only [List.map_cons, List.mem_cons, not_or] at elsewhere
    exact (othersFirst other elsewhere.1).trans
      (worked.others other elsewhere.2)
  unneeded := by
    intro current member isUnneeded
    rcases List.mem_cons.mp member with isFirst | inRest
    · subst current
      have keptLater := worked.others pv.name different
      rwa [unneededFirst isUnneeded] at keptLater
    · have apart : current.name ≠ pv.name := by
        intro same
        exact different (same ▸ List.mem_map_of_mem inRest)
      exact (othersFirst _ apart).trans
        (worked.unneeded current inRest isUnneeded)
  settled := by
    intro succeeded
    obtain ⟨notFailed, settledRest⟩ := worked.settled succeeded
    obtain ⟨notFailedBefore, settledPV⟩ := settledFirst succeeded notFailed
    refine ⟨notFailedBefore, ?_⟩
    intro current member isNeeded
    rcases List.mem_cons.mp member with isFirst | inRest
    · subst current
      exact (settledPV isNeeded).kept (worked.others pv.name different)
    · exact settledRest current inRest isNeeded

/-- What the tool does about a list of different PVs. -/
theorem ends_switchLocalPVs
    {pvs : List PersistentVolume}
    (different : (pvs.map PersistentVolume.name).Nodup)
    (updateFailed : Bool) :
    Program.Ends execMigration oracle
      (switchLocalPVs unmarshal pvs updateFailed) before
      fun _ result after => WorkedOn pvs updateFailed before result after := by
  induction pvs generalizing before updateFailed with
  | nil =>
      rw [switchLocalPVs]
      have nothing :
          ∀ result,
            (result = .ok () → updateFailed = false) →
            WorkedOn [] updateFailed before result before := by
        intro result notFailed
        refine ⟨fun _ _ => .inl rfl, by simp, fun succeeded => ?_⟩
        exact ⟨notFailed succeeded, by simp⟩
      split
      · exact .done (nothing _ fun failed => by cases failed)
      · rename_i notFailed
        exact .done (nothing _ fun _ => Bool.eq_false_iff.mpr notFailed)
  | cons pv rest inductionHypothesis =>
      obtain ⟨notInRest, differentRest⟩ := List.nodup_cons.mp different
      apply Program.Ends.bind (ends_updateLocalPVAlphaAnn pv)
      rintro calls outcome middle ⟨others, unneeded, settled⟩
      have continued :
          ∀ failedNow,
            (failedNow = false →
              updateFailed = false ∧
                (pv.needsMigration = true → Settled middle pv.name)) →
            Program.Ends execMigration oracle
              (switchLocalPVs unmarshal rest failedNow) middle
              fun _ result after =>
                WorkedOn (pv :: rest) updateFailed before result after := by
        intro failedNow settledNow
        obtain ⟨more, result, after, traced, worked⟩ :=
          @inductionHypothesis middle differentRest failedNow
        exact ⟨more, result, after, traced,
          worked.cons notInRest others unneeded fun _ => settledNow⟩
      rcases outcome with (_ | _ | _) | _
      · exact continued true (by simp)
      · have stopped :
            WorkedOn rest true middle (.error .tooManyRequests) middle :=
          ⟨fun _ _ => .inl rfl, fun _ _ _ => .inl rfl,
            fun failed => by cases failed⟩
        apply Program.Ends.done
        exact stopped.cons notInRest others unneeded
          fun failed => by cases failed
      · exact continued true (by simp)
      · exact continued updateFailed fun notFailed =>
          ⟨notFailed, fun isNeeded => settled isNeeded rfl⟩

end Loop

section Report

variable {unmarshal : UnmarshalAffinity}
variable {oracle : MigrationOp → MigrationAnswers}
variable {pvs : PVSet}

/-- Nothing is done about PVs that need no migration. -/
theorem switchLocalPVs_of_unneeded
    {listing : List PersistentVolume}
    (nothing : ∀ pv ∈ listing, pv.needsMigration = false) :
    switchLocalPVs unmarshal listing false = pure (.ok ()) := by
  induction listing with
  | nil => rfl
  | cons pv rest inductionHypothesis =>
      rw [switchLocalPVs,
        updateLocalPVAlphaAnn_of_unneeded (nothing pv (by simp))]
      exact inductionHypothesis fun later member =>
        nothing later (by simp [member])

/-- If nothing needs migration, no update is sent. -/
theorem updatePV_notMem_calls
    (nothing : ∀ pv ∈ pvs.list, pv.needsMigration = false)
    (pv : PersistentVolume) :
    .updatePV pv ∉ (migrate unmarshal oracle pvs).1.map Answered.op := by
  have ends :
      Program.Ends execMigration oracle
        (startSwitchingLocalPVAlphaAnn unmarshal) pvs
        fun calls _ _ => calls.map Answered.op = [.listPVs] := by
    cases fault : (oracle .listPVs).listFault with
    | some err =>
        have replied :
            execMigration .listPVs (oracle .listPVs) pvs =
              some (.error err, pvs) := by
          simp only [execMigration, fault]
        exact .call replied (.done rfl)
    | none =>
        have replied :
            execMigration .listPVs (oracle .listPVs) pvs =
              some (.ok pvs.list, pvs) := by
          simp only [execMigration, fault]
        apply Program.Ends.call replied
        change Program.Ends _ _
          (if pvs.list.isEmpty then pure (.ok ())
            else switchLocalPVs unmarshal pvs.list false) _ _
        rw [switchLocalPVs_of_unneeded nothing]
        rw [ite_self]
        exact .done rfl
  obtain ⟨calls, result, after, traced, onlyListed⟩ := ends
  rw [migrate, traced, onlyListed]
  simp

/-- With the PVs listed, the tool works on all of them. -/
theorem ends_of_listed
    (listed : (oracle .listPVs).listFault = none) :
    Program.Ends execMigration oracle
      (startSwitchingLocalPVAlphaAnn unmarshal) pvs
      fun _ result after => WorkedOn pvs.list false pvs result after := by
  have replied :
      execMigration .listPVs (oracle .listPVs) pvs =
        some (.ok pvs.list, pvs) := by
    simp only [execMigration, listed]
  apply Program.Ends.call replied
  change Program.Ends _ _
    (if pvs.list.isEmpty then pure (.ok ())
      else switchLocalPVs unmarshal pvs.list false) _ _
  split
  · rename_i isEmpty
    have noPVs : pvs.list = [] := List.isEmpty_iff.mp isEmpty
    apply Program.Ends.done
    rw [noPVs]
    exact ⟨fun _ _ => .inl rfl, by simp, fun _ => ⟨rfl, by simp⟩⟩
  · exact ends_switchLocalPVs pvs.nodup_names false

/-- What a PV is after the tool has worked on all PVs with success. -/
theorem WorkedOn.now_eq_or_settled
    {after : PVSet}
    (worked : WorkedOn pvs.list false pvs (.ok ()) after)
    {pvName : String}
    {now : PersistentVolume}
    (found : after.get pvName = some now) :
    ∃ pv,
      pvs.get pvName = some pv ∧
        (pv.needsMigration = false ∧ now = pv ∨ now.alphaAffinity = "") := by
  cases stored : pvs.get pvName with
  | none =>
      have elsewhere : pvName ∉ pvs.list.map PersistentVolume.name := by
        intro member
        obtain ⟨pv, inList, rfl⟩ := List.mem_map.mp member
        rw [ObjectStore.mem_list.mp inList] at stored
        cases stored
      rcases worked.others pvName elsewhere with same | gone
      · rw [same, stored] at found
        cases found
      · rw [gone] at found
        cases found
  | some pv =>
      refine ⟨pv, rfl, ?_⟩
      have inList := ObjectStore.mem_list.mpr (ObjectStore.get_name stored)
      obtain rfl : pv.name = pvName := ObjectStore.name_of_get stored
      cases needed : pv.needsMigration with
      | false =>
          rcases worked.unneeded pv inList needed with same | gone
          · rw [same, stored] at found
            cases found
            exact .inl ⟨rfl, rfl⟩
          · rw [gone] at found
            cases found
      | true =>
          have settled := (worked.settled rfl).2 pv inList needed
          exact .inr (settled now found)

/-- A local PV without need for migration has no annotation. -/
theorem alphaAffinity_of_unneeded
    {pv : PersistentVolume}
    (unneeded : pv.needsMigration = false)
    (isLocal : pv.localSource ≠ none) :
    pv.alphaAffinity = "" := by
  have isSome := Option.isSome_iff_ne_none.mpr isLocal
  simpa [PersistentVolume.needsMigration, isSome] using unneeded

/-- After success on all PVs, everything is migrated. -/
theorem WorkedOn.migrated
    {after : PVSet}
    (worked : WorkedOn pvs.list false pvs (.ok ()) after) :
    Migrated unmarshal pvs after where
  complete := by
    intro pvName pv now stored isLocal found
    obtain ⟨original, storedToo, ⟨unneeded, rfl⟩ | cleared⟩ :=
      worked.now_eq_or_settled found
    · rw [stored] at storedToo
      cases storedToo
      exact alphaAffinity_of_unneeded unneeded isLocal
    · exact cleared
  untouched := by
    intro pvName pv now stored unneeded found
    have inList := ObjectStore.mem_list.mpr (ObjectStore.get_name stored)
    obtain rfl : pv.name = pvName := ObjectStore.name_of_get stored
    rcases worked.unneeded pv inList unneeded with same | gone
    · rw [same, stored] at found
      exact (Option.some.inj found).symm
    · rw [gone] at found
      cases found
  settled := by
    intro oracle
    apply updatePV_notMem_calls
    intro now inList
    obtain ⟨original, -, ⟨unneeded, rfl⟩ | cleared⟩ :=
      worked.now_eq_or_settled (ObjectStore.mem_list.mp inList)
    · exact unneeded
    · simp [PersistentVolume.needsMigration, cleared]

/-- The tool reports truly if it gets to see the PVs. -/
theorem reportsTruly_of_listed
    (listed : (oracle .listPVs).listFault = none) :
    ReportsTruly unmarshal oracle pvs := by
  obtain ⟨calls, result, after, traced, worked⟩ :=
    ends_of_listed listed
  refine ⟨result, after, ?_, ?_⟩
  · rw [migrate, traced]
  · rintro rfl
    exact worked.migrated

/-- If the PVs cannot be listed, the tool does nothing and reports success. -/
theorem migrate_of_unlisted
    {err : MigrationError}
    (unlisted : (oracle .listPVs).listFault = some err) :
    (migrate unmarshal oracle pvs).2 = .ok (.ok (), pvs) := by
  have replied :
      execMigration .listPVs (oracle .listPVs) pvs =
        some (.error err, pvs) := by
    simp only [execMigration, unlisted]
  have ends :
      Program.Ends execMigration oracle
        (startSwitchingLocalPVAlphaAnn unmarshal) pvs
        fun _ result after => result = .ok () ∧ after = pvs :=
    .call replied (.done ⟨rfl, rfl⟩)
  obtain ⟨calls, result, after, traced, rfl, rfl⟩ := ends
  rw [migrate, traced]

/-- A set of PVs that counts as migrated to itself has nothing to migrate. -/
theorem Migrated.unneeded
    (migrated : Migrated unmarshal pvs pvs)
    {pv : PersistentVolume}
    (member : pv ∈ pvs.list) :
    pv.needsMigration = false := by
  have stored := ObjectStore.mem_list.mp member
  cases isLocal : pv.localSource with
  | none => simp [PersistentVolume.needsMigration, isLocal]
  | some source =>
      have cleared :=
        migrated.complete pv.name pv pv stored (by simp [isLocal]) stored
      simp [PersistentVolume.needsMigration, cleared]

/--
The tool reports truly just if the PVs can be listed or there is nothing to
migrate.
-/
theorem reportsTruly_iff
    (unmarshal : UnmarshalAffinity)
    (oracle : MigrationOp → MigrationAnswers)
    (pvs : PVSet) :
    ReportsTruly unmarshal oracle pvs ↔
      (oracle .listPVs).listFault = none ∨
        ∀ pv ∈ pvs.list, pv.needsMigration = false := by
  constructor
  · rintro ⟨result, after, ended, truly⟩
    cases fault : (oracle .listPVs).listFault with
    | none => exact .inl rfl
    | some err =>
        rw [migrate_of_unlisted fault] at ended
        cases ended
        exact .inr fun pv member => (truly rfl).unneeded member
  · rintro (listed | nothing)
    · exact reportsTruly_of_listed listed
    · cases fault : (oracle .listPVs).listFault with
      | none => exact reportsTruly_of_listed fault
      | some err =>
          refine ⟨.ok (), pvs, migrate_of_unlisted fault, fun _ => ?_⟩
          -- nothing to migrate: the untouched PVs are as after a full run
          have worked : WorkedOn pvs.list false pvs (.ok ()) pvs := by
            refine ⟨fun _ _ => .inl rfl, fun _ _ _ => .inl rfl, fun _ => ⟨rfl, ?_⟩⟩
            intro pv member needed
            rw [nothing pv member] at needed
            cases needed
          exact worked.migrated

end Report

/-- A local PV with the annotation of the alpha API. -/
def sampleAnnotatedPV : PersistentVolume :=
  localPV (sampleMigratingDiscoverer.withAlphaAPI true) sampleMigrated [] 0
    sampleAffinityText

/-- The API server times out on `List`: nothing is migrated, and the tool succeeds. -/
theorem not_reportsTruly_of_list_timeout :
    ¬ ReportsTruly unmarshalSample
        (fun _ => { listFault := some (.other "timeout") })
        (ObjectStore.empty.put sampleAnnotatedPV) := by
  rintro ⟨result, after, ended, truly⟩
  rw [migrate_of_unlisted rfl] at ended
  cases ended
  have member :
      sampleAnnotatedPV ∈ (ObjectStore.empty.put sampleAnnotatedPV : PVSet).list :=
    ObjectStore.mem_list.mpr (ObjectStore.get_put_self _ _)
  have needed : sampleAnnotatedPV.needsMigration = true := by
    decide +kernel
  rw [(truly rfl).unneeded member] at needed
  cases needed

end LocalProvisioner
