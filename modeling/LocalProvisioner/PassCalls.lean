import LocalProvisioner.SyncLoop

namespace LocalProvisioner

open Interleaving

/-!
# The PVs that a pass creates

Of all the calls of a pass, only those of `createPV` create PVs, and each of
them sends a PV that was made from a file of a class by the discoverer of the
pass.  The routines are walked through once for an arbitrary predicate on
calls, which need not be checked for the calls that create nothing.
-/

/-- A call creates no PV but one that the discoverer has made for a file. -/
def OwnCreation (discoverer : Discoverer) (op : Op) : Prop :=
  ∀ pv,
    op = .createPV pv →
    ∃ candidate mountOptions capacityByte affinityAnn,
      pv = localPV discoverer candidate mountOptions capacityByte affinityAnn

section Walk

variable {allowed : Op → Prop}
variable (harmless : ∀ op : Op, op.createdName = none → allowed op)

include harmless

/-- A call that creates nothing, before calls that are allowed. -/
theorem only_call
    {α : Type}
    {op : Op}
    {next : op.Reply → Routine α}
    (creates : op.createdName = none)
    (rest : ∀ reply, Program.Only allowed (next reply)) :
    Program.Only allowed (.call op next : Routine α) :=
  .call (harmless op creates) rest

theorem only_containerPath (pv : PersistentVolume) (config : MountConfig) :
    Program.Only allowed (getContainerPath pv config) := by
  unfold getContainerPath
  split
  · exact only_call harmless rfl fun (reply : Empty) => reply.elim
  · exact .done

theorem only_volumeMode (fullPath : String) :
    Program.Only allowed (getVolumeMode fullPath) := by
  refine only_call harmless rfl ?_
  intro (isdir : Except String Bool)
  rcases isdir with errdir | _ | _
  · refine only_call harmless rfl ?_
    intro (isblk : Except String Bool)
    rcases isblk with errblk | _ | _ <;> exact .done
  · refine only_call harmless rfl ?_
    intro (isblk : Except String Bool)
    rcases isblk with errblk | _ | _ <;> exact .done
  · exact .done

theorem only_volMode (runtime : RuntimeConfig) (pv : PersistentVolume) :
    Program.Only allowed (getVolMode runtime pv) := by
  unfold getVolMode
  split
  · exact .done
  · refine (only_containerPath harmless pv _).bind ?_
    rintro (err | mountPath)
    · exact .done
    · exact only_volumeMode harmless mountPath

theorem only_inProgress (pvName : String) (isJob : Bool) :
    Program.Only allowed (inProgress pvName isJob) := by
  cases isJob <;> exact only_call harmless rfl fun _ => .done

theorem only_takeStatus
    (runtime : RuntimeConfig)
    (pvName : String)
    (isJob : Bool) :
    Program.Only allowed (removeStatus runtime pvName isJob) := by
  cases isJob with
  | false => exact only_call harmless rfl fun _ => .done
  | true =>
      refine only_call harmless rfl ?_
      intro (listed : Except ApiError Job)
      rcases listed with (_ | _ | _) | job
      · exact .done
      · exact .done
      · exact .done
      · show Program.Only allowed (removeListedJob runtime job)
        unfold removeListedJob
        split
        · exact .done
        · refine only_call harmless rfl ?_
          intro (deleted : Except ApiError Unit)
          cases deleted <;> exact .done

theorem only_deleteCleaned
    (pv : PersistentVolume)
    (volMode : VolumeMode)
    (config : MountConfig)
    (runjob : Bool)
    (startTime : Option Nat) :
    Program.Only allowed
      (deleteCleanedPV pv volMode config runjob startTime) := by
  have reported :
      Program.Only allowed
        (reportDeleted pv volMode config runjob startTime) := by
    refine only_call harmless rfl fun _ => ?_
    cases startTime with
    | none => exact .done
    | some started => exact only_call harmless rfl fun _ => .done
  refine only_call harmless rfl ?_
  intro (deleted : Except ApiError Unit)
  rcases deleted with (_ | _ | _) | _
  · exact reported
  · exact only_call harmless rfl fun _ => .done
  · exact only_call harmless rfl fun _ => .done
  · exact reported

theorem only_start
    (runtime : RuntimeConfig)
    (pv : PersistentVolume)
    (volMode : VolumeMode)
    (mountPath : String)
    (config : MountConfig)
    (runjob : Bool) :
    Program.Only allowed
      (startCleaning runtime pv volMode mountPath config runjob) := by
  unfold startCleaning
  split
  · exact .done
  · cases runjob with
    | false => exact only_call harmless rfl fun _ => .done
    | true =>
        show Program.Only allowed (runJob runtime pv volMode mountPath config)
        unfold runJob
        split
        · exact .done
        · refine only_call harmless rfl fun (now : Nat) => ?_
          show Program.Only allowed (submitJob _)
          cases newCleanupJob pv volMode runtime.jobContainerImage
              runtime.jobTolerations runtime.node.name runtime.namespaceName
              mountPath config now with
          | error err => exact .done
          | ok job =>
              refine only_call harmless rfl ?_
              intro (created : Except ApiError Unit)
              cases created <;> exact .done

theorem only_cleanOr
    (runtime : RuntimeConfig)
    (pv : PersistentVolume)
    (volMode : VolumeMode)
    (mountPath : String)
    (config : MountConfig) :
    Program.Only allowed
      (cleanOrDelete runtime pv volMode mountPath config) := by
  refine (only_inProgress harmless pv.name _).bind ?_
  rintro (_ | _)
  · refine (only_takeStatus harmless runtime pv.name _).bind ?_
    rintro (err | ⟨state, startTime⟩)
    · exact .done
    · have started :=
        only_start harmless runtime pv volMode mountPath config
          (shouldRunJob runtime volMode)
      cases state with
      | unknown => exact .done
      | notFound => exact started
      | running => exact .done
      | failed => exact started
      | succeeded =>
          exact only_deleteCleaned harmless pv volMode config _ startTime
  · exact .done

theorem only_reclaimPV (runtime : RuntimeConfig) (pv : PersistentVolume) :
    Program.Only allowed (reclaimPV runtime pv) := by
  have deleted : Program.Only allowed (deletePV runtime pv) := by
    unfold deletePV
    split
    · exact .done
    · split
      · exact .done
      · refine (only_containerPath harmless pv _).bind ?_
        rintro (err | mountPath)
        · exact .done
        · refine (only_volMode harmless runtime pv).bind ?_
          rintro (err | volMode)
          · exact .done
          · exact only_cleanOr harmless runtime pv volMode mountPath _
  have reported :
      ∀ err, Program.Only allowed (reportFailedDelete runtime pv err) := by
    intro err
    refine (only_volMode harmless runtime pv).bind ?_
    rintro (_ | mode) <;>
      exact only_call harmless rfl fun _ =>
        only_call harmless rfl fun _ => .done
  unfold reclaimPV
  split
  · exact .done
  · split
    · exact .done
    · cases pv.reclaimPolicy with
      | retain => exact .done
      | recycle => exact only_call harmless rfl fun _ => .done
      | other policy => exact only_call harmless rfl fun _ => .done
      | delete =>
          refine deleted.bind ?_
          rintro (err | _)
          · exact reported err
          · exact .done

/-- The deletion half of a pass creates nothing. -/
theorem only_deletePVs (runtime : RuntimeConfig) :
    Program.Only allowed (deletePVs runtime) :=
  only_call harmless rfl fun pvs =>
    .forEach (only_reclaimPV harmless runtime) pvs

variable {discoverer : Discoverer}
variable (own :
  ∀ candidate mountOptions capacityByte affinityAnn,
    allowed (.createPV
      (localPV discoverer candidate mountOptions capacityByte affinityAnn)))

include own

theorem only_createPV
    (candidate : Candidate)
    (mountOptions : List String)
    (capacityByte : Int) :
    Program.Only allowed
      (createPV discoverer candidate mountOptions capacityByte) := by
  unfold createPV
  split
  · exact .done
  · refine .call (own _ _ _ _) ?_
    intro (created : Except ApiError Unit)
    rcases created with err | _
    · exact .done
    · exact only_call harmless rfl fun _ => .done

theorem only_provision
    (candidate : Candidate)
    (mountPoints : List String)
    (volMode : VolumeMode) :
    Program.Only allowed
      (provision discoverer candidate mountPoints volMode) := by
  have measured :
      ∀ mountOptions capacityByte,
        Program.Only allowed
          (createPV discoverer candidate mountOptions capacityByte) :=
    only_createPV harmless own candidate
  have asked :
      Program.Only allowed
        (getMountOptionsFromStorageClass candidate.storageClass) := by
    refine only_call harmless rfl ?_
    intro (found : Except String StorageClass)
    cases found <;> exact .done
  refine asked.bind ?_
  rintro (err | mountOptions)
  · exact .done
  · cases volMode with
    | other mode => exact .done
    | block =>
        refine only_call harmless rfl ?_
        intro (bytes : Except String Int)
        rcases bytes with err | capacityByte
        · exact .done
        · exact (measured mountOptions capacityByte).bind fun _ => .done
    | filesystem =>
        show Program.Only allowed
          (provisionFilesystem discoverer candidate mountPoints mountOptions)
        unfold provisionFilesystem
        split
        · exact .done
        · split
          · exact .done
          · refine only_call harmless rfl ?_
            intro (bytes : Except String Int)
            rcases bytes with err | capacityByte
            · exact .done
            · exact (measured mountOptions capacityByte).bind fun _ => .done

theorem only_discoverFile
    (storageClass : String)
    (config : MountConfig)
    (reclaimPolicy : ReclaimPolicy)
    (mountPoints : List String)
    (file : String) :
    Program.Only allowed
      (discoverFile discoverer storageClass config reclaimPolicy mountPoints
        file) := by
  refine only_call harmless rfl fun (startTime : Nat) => ?_
  refine (only_volumeMode harmless _).bind ?_
  rintro (err | volMode)
  · exact .done
  · refine only_call harmless rfl ?_
    intro (cached : Option PersistentVolume)
    rcases cached with _ | pv
    · refine only_call harmless rfl ?_
      intro (users : List String)
      rcases users with _ | ⟨user, others⟩
      · refine (only_inProgress harmless _ _).bind ?_
        rintro (_ | _)
        · refine (only_takeStatus harmless _ _ _).bind ?_
          rintro (err | status)
          · exact .done
          · exact only_provision harmless own _ mountPoints volMode
        · exact .done
      · exact .done
    · show Program.Only allowed (skipExisting pv _ _ volMode)
      unfold skipExisting
      split
      · exact only_call harmless rfl fun _ => .done
      · exact .done

theorem only_discoverFiles
    (storageClass : String)
    (config : MountConfig)
    (reclaimPolicy : ReclaimPolicy)
    (mountPoints files : List String)
    (total : Tally) :
    Program.Only allowed
      (discoverFiles discoverer storageClass config reclaimPolicy mountPoints
        files total) := by
  induction files generalizing total with
  | nil => exact .done
  | cons file rest inductionHypothesis =>
      unfold discoverFiles
      split
      · exact .done
      · exact inductionHypothesis total
      · exact (only_discoverFile harmless own storageClass config
          reclaimPolicy mountPoints file).bind fun found =>
            inductionHypothesis (total.add found)

theorem only_discoverVolumesAtPath
    (storageClass : String)
    (config : MountConfig) :
    Program.Only allowed
      (discoverVolumesAtPath discoverer storageClass config) := by
  have concluded :
      ∀ total, Program.Only allowed (concludeDiscovery total) := by
    intro total
    refine only_call harmless rfl fun _ => ?_
    refine only_call harmless rfl fun _ => ?_
    dsimp only
    split <;> exact .done
  have asked :
      Program.Only allowed
        (getReclaimPolicyFromStorageClass storageClass) := by
    refine only_call harmless rfl ?_
    intro (found : Except String StorageClass)
    cases found <;> exact .done
  refine asked.bind ?_
  rintro (err | reclaimPolicy)
  · exact .done
  · show Program.Only allowed
      (discoverWithPolicy discoverer storageClass config reclaimPolicy)
    unfold discoverWithPolicy
    split
    · exact .done
    · refine only_call harmless rfl ?_
      intro (files : Except String (List String))
      rcases files with err | files
      · exact .done
      · refine only_call harmless rfl ?_
        intro (mountPoints : Except String (List String))
        rcases mountPoints with err | mountPoints
        · exact .done
        · refine (only_discoverFiles harmless own storageClass config
            reclaimPolicy mountPoints files {}).bind ?_
          rintro (err | total)
          · exact .done
          · exact concluded total

theorem only_discoverClasses
    (classes : List (String × MountConfig))
    (readyz : Bool) :
    Program.Only allowed (discoverClasses discoverer classes readyz) := by
  induction classes generalizing readyz with
  | nil => exact .done
  | cons entry rest inductionHypothesis =>
      refine (only_discoverVolumesAtPath harmless own entry.1 entry.2).bind ?_
      rintro (err | _)
      · exact inductionHypothesis false
      · exact inductionHypothesis readyz

/-- A pass makes only allowed calls if its creations are allowed. -/
theorem only_syncPass : Program.Only allowed (syncPass discoverer) := by
  refine (only_deletePVs harmless discoverer.toRuntimeConfig).bind fun _ => ?_
  refine only_call harmless rfl ?_
  intro (classes : List (String × MountConfig))
  exact (only_discoverClasses harmless own classes true).bind fun _ =>
    only_call harmless rfl fun _ => .done

end Walk

/-- A pass creates only PVs that its discoverer has made. -/
theorem ownCreation_syncPass (discoverer : Discoverer) :
    Program.Only (OwnCreation discoverer) (syncPass discoverer) := by
  refine only_syncPass ?_ ?_
  · rintro op creates pv rfl
    cases creates
  · rintro candidate mountOptions capacityByte affinityAnn pv ⟨⟩
    exact ⟨candidate, mountOptions, capacityByte, affinityAnn, rfl⟩

/-- The rest of the pass creates only PVs that the discoverer has made. -/
def SyncState.CreatesOwn (state : SyncState) : Prop :=
  Program.Only (OwnCreation state.discoverer) state.rest

/-- In every state of a run, the rest of the pass creates only such PVs. -/
theorem createsOwn_of_reaches
    {conditions : Conditions}
    {state : SyncState}
    (reaches : conditions.Reaches state) :
    state.CreatesOwn := by
  refine reaches.invariant ?_ ?_
  · rintro _ ⟨runtime, discoverer, _, _, rfl⟩
    exact .done
  · rintro ⟨discoverer, rest, world⟩ action later only _ stepped
    cases action with
    | call answers =>
        cases rest with
        | done value => cases stepped
        | call op next =>
            obtain ⟨outcome, _, rfl⟩ := Option.map_eq_some_iff.mp stepped
            cases only with
            | call _ continues => exact continues outcome.1
    | disturb disturbance =>
        obtain ⟨moved, _, rfl⟩ := Option.map_eq_some_iff.mp stepped
        exact only
    | beginPass =>
        cases rest with
        | done value =>
            cases stepped
            exact ownCreation_syncPass discoverer
        | call op next => cases stepped
    | reload runtime =>
        cases rest with
        | done value =>
            simp only [step] at stepped
            split at stepped
            · cases stepped
              exact .done
            · cases stepped
        | call op next => cases stepped
    | restart runtime =>
        simp only [step] at stepped
        split at stepped
        · cases stepped
          exact .done
        · cases stepped

end LocalProvisioner
