import LocalProvisioner.DiscoveryWalk

namespace LocalProvisioner

open Interleaving

/-!
# Malformed name patterns

The components of a name pattern are tried on one file after the other, and
each one only until a component matches.  A malformed component is therefore
found when the first file gets to it, and `discoverVolumesAtPath` returns in the
middle of the walk.  By then it may have created PVs and removed the statuses
of ended cleaners for the files before.

A walk only ever adds PVs, takes statuses away and marks jobs as deleted, so
that it leaves all of them alone just if every single visit does.
-/

/-- No PV is created, and no cleanup status is removed. -/
structure Unaffected (before after : World) : Prop where
  pvs : ∀ pvName, after.pvs.get pvName = before.pvs.get pvName
  status :
    ∀ pvName,
      after.procTable.status? pvName = before.procTable.status? pvName
  jobs : ∀ jobName, after.jobDeleted jobName = before.jobDeleted jobName

namespace Unaffected

variable {before middle after : World}

theorem refl (world : World) : Unaffected world world :=
  ⟨fun _ => rfl, fun _ => rfl, fun _ => rfl⟩

theorem symm (unaffected : Unaffected before after) :
    Unaffected after before where
  pvs := fun pvName => (unaffected.pvs pvName).symm
  status := fun pvName => (unaffected.status pvName).symm
  jobs := fun jobName => (unaffected.jobs jobName).symm

theorem trans
    (first : Unaffected before middle)
    (second : Unaffected middle after) :
    Unaffected before after where
  pvs := fun pvName => (second.pvs pvName).trans (first.pvs pvName)
  status := fun pvName => (second.status pvName).trans (first.status pvName)
  jobs := fun jobName => (second.jobs jobName).trans (first.jobs jobName)

/-- What is not undone later has not been done before. -/
theorem of_advances
    (unaffected : Unaffected before after)
    (first : Advances before middle)
    (second : Advances middle after) :
    Unaffected before middle where
  pvs := by
    intro pvName
    cases stored : before.pvs.get pvName with
    | some pv => exact first.pvs pvName pv stored
    | none =>
        cases created : middle.pvs.get pvName with
        | none => rfl
        | some pv =>
            have kept := second.pvs pvName pv created
            rw [unaffected.pvs, stored] at kept
            cases kept
  status := by
    intro pvName
    rcases first.status pvName with same | ⟨gone, -⟩
    · exact same
    · have goneLater : after.procTable.status? pvName = none := by
        rcases second.status pvName with same | ⟨goneToo, -⟩
        · rw [same, gone]
        · exact goneToo
      rw [gone, ← unaffected.status pvName, goneLater]
  jobs := by
    intro jobName
    cases deletedBefore : before.jobDeleted jobName with
    | true => exact first.deleted jobName deletedBefore
    | false =>
        cases deleted : middle.jobDeleted jobName with
        | false => rfl
        | true =>
            have kept := second.deleted jobName deleted
            rw [unaffected.jobs, deletedBefore] at kept
            cases kept

/-- Two steps leave everything alone just if each of them does. -/
theorem iff_and
    (first : Advances before middle)
    (second : Advances middle after) :
    Unaffected before after ↔
      Unaffected before middle ∧ Unaffected middle after := by
  constructor
  · intro unaffected
    have firstHalf := unaffected.of_advances first second
    exact ⟨firstHalf, firstHalf.symm.trans unaffected⟩
  · intro both
    exact both.1.trans both.2

/-- Reports do not matter. -/
theorem reporting_iff (reports : List Report) :
    Unaffected before (after.reporting reports) ↔ Unaffected before after :=
  ⟨fun unaffected => ⟨unaffected.pvs, unaffected.status, unaffected.jobs⟩,
    fun unaffected => ⟨unaffected.pvs, unaffected.status, unaffected.jobs⟩⟩

/-- The removal of an entry. -/
theorem removeEntry_iff (world : World) (pvName : String) :
    Unaffected world
        { world with procTable := (world.procTable.removeEntry pvName).2 } ↔
      (world.procTable.status? pvName).all
        (fun status => !status.hasEnded) = true := by
  constructor
  · intro unaffected
    have same :
        (world.procTable.removeEntry pvName).2.status? pvName =
          world.procTable.status? pvName := unaffected.status pvName
    rw [ProcTable.status?_removeEntry_eq] at same
    cases found : world.procTable.status? pvName with
    | none => rfl
    | some status =>
        rw [found] at same
        cases ended : status.hasEnded with
        | false => simp [ended]
        | true => simp [ended] at same
  · intro kept
    refine ⟨fun _ => rfl, ?_, fun _ => rfl⟩
    intro other
    change (world.procTable.removeEntry pvName).2.status? other = _
    rw [ProcTable.status?_removeEntry_eq]
    split
    · rename_i taken
      obtain ⟨rfl, ended⟩ := taken
      cases found : world.procTable.status? other with
      | none => rfl
      | some status =>
          rw [found] at kept ended
          simp only [Option.all_some] at kept ended
          rw [ended] at kept
          cases kept
    · rfl

end Unaffected

namespace World

/-- The API server does not delete a job, or it is being deleted already. -/
def keepsJob (world : World) (answers : Answers) (jobName : String) : Bool :=
  match answers.outcome with
  | .rejected _ => true
  | _ => (world.jobs.get jobName).isNone || world.jobDeleted jobName

/-- The API server does not create a PV. -/
def refusesPV (world : World) (answers : Answers) (pv : PersistentVolume) :
    Bool :=
  match answers.outcome with
  | .rejected _ => true
  | _ => (world.pvs.get pv.name).isSome

end World

/-- A job is marked as deleted. -/
theorem unaffected_mark_iff
    {world : World}
    {jobName : String}
    {job : Job}
    (stored : world.jobs.get jobName = some job)
    (now : Nat) :
    Unaffected world (world.putJob { job with deletionTimestamp := some now }) ↔
      world.jobDeleted jobName = true := by
  have sameName : job.name = jobName := ObjectStore.name_of_get stored
  have marked :
      ∀ other,
        (world.putJob
            { job with deletionTimestamp := some now }).jobDeleted other =
          if other = jobName then true else world.jobDeleted other := by
    intro other
    change ((world.jobs.put _).get other).any _ = _
    rw [ObjectStore.get_put]
    change Option.any _ (if other = job.name then _ else _) = _
    rw [sameName]
    split
    · rfl
    · rfl
  constructor
  · intro unaffected
    have same := unaffected.jobs jobName
    rw [marked, if_pos rfl] at same
    exact same.symm
  · intro deleted
    refine ⟨fun _ => rfl, fun _ => rfl, ?_⟩
    intro other
    rw [marked]
    split
    · rename_i same
      rw [same, deleted]
    · rfl

/-- The deletion of a job. -/
theorem unaffected_execDeleteJob_iff
    (world : World)
    (answers : Answers)
    (jobName : String) :
    Unaffected world (world.execDeleteJob answers jobName).2 ↔
      world.keepsJob answers jobName = true := by
  unfold World.execDeleteJob World.keepsJob
  cases answers.outcome with
  | rejected err => exact iff_of_true (.refl world) rfl
  | processed | lost =>
      cases stored : world.jobs.get jobName with
      | none => exact iff_of_true (.refl world) rfl
      | some job =>
          have marked := unaffected_mark_iff stored answers.now
          simpa using marked

/-- The creation of a PV. -/
theorem unaffected_execCreatePV_iff
    (world : World)
    (answers : Answers)
    (pv : PersistentVolume) :
    Unaffected world (world.execCreatePV answers pv).2 ↔
      world.refusesPV answers pv = true := by
  have recorded :
      ∀ event, Unaffected world (world.record event) := fun _ =>
    ⟨fun _ => rfl, fun _ => rfl, fun _ => rfl⟩
  unfold World.execCreatePV World.refusesPV
  cases answers.outcome with
  | rejected err => exact iff_of_true (recorded _) rfl
  | processed | lost =>
      cases stored : world.pvs.get pv.name with
      | some other => exact iff_of_true (recorded _) rfl
      | none =>
          refine iff_of_false ?_ (by simp)
          intro unaffected
          have same :
              (world.pvs.put { pv with uid := world.freshUID answers }).get
                  pv.name =
                world.pvs.get pv.name := unaffected.pvs pv.name
          rw [ObjectStore.get_put, if_pos rfl, stored] at same
          cases same

namespace ClassPass

/-- Does the status of a file's volume stay when it is to be removed? -/
def keepsStatus (pass : ClassPass) (file : String) (mode : VolumeMode) : Bool :=
  if pass.usejob mode then
    match pass.listedJob file with
    | .error _ => true
    | .ok job =>
        decide (job.succeeded = 0) ||
          pass.world.keepsJob (pass.deletion job) job.name
  else
    (pass.world.procTable.status? (pass.pvName file)).all fun status =>
      !status.hasEnded

/-- Does the loop body neither create a PV nor remove a status for a file? -/
def harmless (pass : ClassPass) (file : String) : Bool :=
  match pass.verdict file with
  | .skipped => true
  | .reported => true
  | .held mode => pass.keepsStatus file mode
  | .unusable mode => pass.keepsStatus file mode
  | .volume mode _ =>
      pass.keepsStatus file mode &&
        (pass.request? file).all fun pv =>
          pass.world.refusesPV (pass.oracle (.createPV pv)) pv

/-- Does the pass return because of a malformed pattern? -/
def returnsOnPattern (pass : ClassPass) : Bool :=
  pass.listing?.any fun files => files.any fun file => !pass.accepts file

/--
A pass that returns because of a malformed pattern returns the error of the
pattern, and has created no PV and removed no cleanup status.
-/
def NoPartialEffect (pass : ClassPass) : Prop :=
  ∃ calls result later,
    pass.run = (calls, .ok (result, later)) ∧
      (pass.returnsOnPattern = true →
        (∃ err, result = .error err) ∧ Unaffected pass.world later)

section Visits

variable {pass : ClassPass}

/-- `RemoveStatus` leaves everything alone just if the status stays. -/
theorem unaffected_cleared_iff
    (pass : ClassPass)
    (file : String)
    (mode : VolumeMode) :
    Unaffected pass.world (pass.cleared file mode) ↔
      pass.keepsStatus file mode = true := by
  unfold cleared keepsStatus
  cases pass.usejob mode with
  | false => exact Unaffected.removeEntry_iff pass.world (pass.pvName file)
  | true =>
      cases pass.listedJob file with
      | error err => exact iff_of_true (.refl pass.world) rfl
      | ok job =>
          by_cases unfinished : job.succeeded = 0
          · simpa [unfinished] using Unaffected.refl pass.world
          · simpa [unfinished] using
              unaffected_execDeleteJob_iff pass.world (pass.deletion job)
                job.name

/-- The loop body leaves everything alone just if the file is harmless. -/
theorem unaffected_visited_iff (pass : ClassPass) (file : String) :
    Unaffected pass.world (pass.visited file) ↔
      pass.harmless file = true := by
  unfold visited harmless
  cases pass.verdict file with
  | skipped => exact iff_of_true (.refl _) rfl
  | reported => exact iff_of_true (.refl _) rfl
  | held mode => exact pass.unaffected_cleared_iff file mode
  | unusable mode => exact pass.unaffected_cleared_iff file mode
  | volume mode bytes =>
      have first := pass.advances_cleared file mode
      have second :=
        pass.advances_requested (pass.cleared file mode) (pass.request? file)
      simp only [Unaffected.iff_and first second, Bool.and_eq_true,
        unaffected_cleared_iff]
      cases pass.request? file with
      | none => simpa [requested] using fun _ => Unaffected.refl _
      | some pv =>
          have refused :=
            unaffected_execCreatePV_iff (pass.cleared file mode)
              (pass.oracle (.createPV pv)) pv
          rw [World.refusesPV, (pass.pvs_cleared file mode).1] at refused
          exact and_congr_right fun _ => refused

/-- Whether a status stays does not change while nothing is changed. -/
theorem keepsStatus_inWorld
    {later : World}
    (advances : Advances pass.world later)
    (unaffected : Unaffected pass.world later)
    (file : String)
    (mode : VolumeMode) :
    (pass.inWorld later).keepsStatus file mode =
      pass.keepsStatus file mode := by
  have sameTracker : (pass.inWorld later).usejob mode = pass.usejob mode := rfl
  have sameJob : (pass.inWorld later).listedJob file = pass.listedJob file :=
    advances.listedJob_eq _ _
  have sameEntry :
      (pass.inWorld later).world.procTable.status?
          ((pass.inWorld later).pvName file) =
        pass.world.procTable.status? (pass.pvName file) :=
    unaffected.status _
  have sameDeletion :
      ∀ job : Job,
        (pass.inWorld later).world.keepsJob
            ((pass.inWorld later).deletion job) job.name =
          pass.world.keepsJob (pass.deletion job) job.name := by
    intro job
    change later.keepsJob (pass.deletion job) job.name = _
    have sameNone :
        (later.jobs.get job.name).isNone =
          (pass.world.jobs.get job.name).isNone := by
      rw [← Option.not_isSome, ← Option.not_isSome, advances.jobs]
    simp only [World.keepsJob, sameNone, unaffected.jobs]
  simp only [keepsStatus, sameTracker, sameJob, sameEntry, sameDeletion]

/-- What is harmless stays so while nothing is changed. -/
theorem harmless_inWorld
    {later : World}
    (advances : Advances pass.world later)
    (unaffected : Unaffected pass.world later)
    (file : String) :
    (pass.inWorld later).harmless file = pass.harmless file := by
  have sameRefusal :
      ∀ pv : PersistentVolume,
        (pass.inWorld later).world.refusesPV
            ((pass.inWorld later).oracle (.createPV pv)) pv =
          pass.world.refusesPV (pass.oracle (.createPV pv)) pv := by
    intro pv
    change later.refusesPV (pass.oracle (.createPV pv)) pv = _
    simp only [World.refusesPV, unaffected.pvs]
  simp only [harmless, verdict_inWorld advances, request?_inWorld advances,
    keepsStatus_inWorld advances unaffected, sameRefusal]

/-- A walk leaves everything alone just if every file is harmless. -/
theorem Walk.unaffected_iff
    {files : List String}
    {before after : World}
    {requests : Requests}
    (walk : pass.Walk files before requests after) :
    Unaffected before after ↔
      ∀ file ∈ files, (pass.inWorld before).harmless file = true := by
  induction walk with
  | @done world reports =>
      have unchanged : Unaffected world (world.reporting reports) :=
        (Unaffected.reporting_iff reports).mpr (.refl world)
      simpa using unchanged
  | @visit file rest world later _ reports continued inductionHypothesis =>
      have moved :
          Advances world
            (((pass.inWorld world).visited file).reporting reports) :=
        ((pass.inWorld world).advances_visited file).reported reports
      have visit :
          Unaffected world
              (((pass.inWorld world).visited file).reporting reports) ↔
            (pass.inWorld world).harmless file = true :=
        (Unaffected.reporting_iff reports).trans
          ((pass.inWorld world).unaffected_visited_iff file)
      rw [Unaffected.iff_and moved continued.advances, List.forall_mem_cons,
        ← visit, inductionHypothesis]
      apply and_congr_right
      intro unaffected
      have same :
          ∀ other,
            (pass.inWorld (((pass.inWorld world).visited file).reporting
                reports)).harmless other =
              (pass.inWorld world).harmless other :=
        @harmless_inWorld (pass.inWorld world) _ moved unaffected
      simp only [same]

/-- A pass leaves everything alone just if every visited file is harmless. -/
theorem Walked.unaffected_iff
    {requests : Requests}
    {result : Except String Unit}
    {later : World}
    (walked : pass.Walked requests result later) :
    Unaffected pass.world later ↔
      ∀ file ∈ pass.walked, pass.harmless file = true :=
  walked.walk.unaffected_iff

end Visits

end ClassPass

/--
A malformed pattern has no partial effect just if every file that is visited
before it is found is harmless.
-/
theorem noPartialEffect_iff_harmless (pass : ClassPass) :
    pass.NoPartialEffect ↔
      (pass.returnsOnPattern = true →
        ∀ file ∈ pass.walked, pass.harmless file = true) := by
  obtain ⟨calls, result, later, traced, walked⟩ :=
    pass.ends_discoverVolumesAtPath
  constructor
  · rintro ⟨_, _, _, ran, clean⟩ returns
    have walkedToo := pass.ends_discoverVolumesAtPath.post_of_trace ran
    exact walkedToo.unaffected_iff.mp (clean returns).2
  · intro harmless
    refine ⟨calls, result, later, traced, ?_⟩
    intro returns
    refine ⟨?_, walked.unaffected_iff.mpr (harmless returns)⟩
    cases listed : pass.listing? with
    | none => simp [ClassPass.returnsOnPattern, listed] at returns
    | some files =>
        have notAll : ¬ ∀ file ∈ files, pass.accepts file = true := by
          simpa [ClassPass.returnsOnPattern, listed] using returns
        obtain ⟨file, -, err, -, failed⟩ := walked.aborted files listed notAll
        exact ⟨err, failed⟩

/-- A directory with a volume that matches, and one on which all are tried. -/
def samplePatternDirectory : Op → Answers
  | .getStorageClass _ =>
      { storageClass := .ok { reclaimPolicy := none, mountOptions := [] } }
  | .readDir _ => { names := .ok ["a1", "b1"] }
  | .listMounts => { names := .ok ["/mnt/fast/a1", "/mnt/fast/b1"] }
  | .isDir _ => { probe := .ok true }
  | _ => {}

/-- A pass over it with a pattern whose second component is malformed. -/
def samplePatternPass : ClassPass where
  discoverer := sampleDiscoverer false sampleClasses
  storageClass := "fast"
  config := { sampleMount "/mnt/disks" "/mnt/fast" with namePattern := "a*,[" }
  oracle := samplePatternDirectory
  world := World.empty

/-- The pass fails on the second file, and has created a PV for the first. -/
theorem created_before_malformed_component :
    ¬ samplePatternPass.NoPartialEffect := by
  rintro ⟨calls, result, later, ran, clean⟩
  have walked :=
    samplePatternPass.ends_discoverVolumesAtPath.post_of_trace ran
  have returns : samplePatternPass.returnsOnPattern = true := by
    decide +kernel
  have visited : samplePatternPass.walked = ["a1"] := by
    decide +kernel
  have harmful : samplePatternPass.harmless "a1" = false := by
    decide +kernel
  have harmless :=
    walked.unaffected_iff.mp (clean returns).2 "a1" (by simp [visited])
  rw [harmful] at harmless
  cases harmless

end LocalProvisioner
