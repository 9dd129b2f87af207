import LocalProvisioner.Inevitability
import LocalProvisioner.VolumeRounds

namespace LocalProvisioner

open Interleaving

/-!
# The stages of a volume

Between rounds the volume of a PV name is in one of four stages.  Each round
moves it from stage to stage, as the API server and the cleaner of the volume
let it.  So every released volume is offered again, from whatever state a run
has come to, after three rounds and two more for every round that fails it.
-/


/-- Where the volume of a name is between rounds. -/
inductive VolumeStage where
  /-- The name has no PV; -/
  | absent : VolumeStage
  /-- it has one that is not to be reclaimed, -/
  | kept : PersistentVolume → VolumeStage
  /-- or one that is, and has yet to be cleaned, -/
  | soiled : PersistentVolume → VolumeStage
  /-- or has been. -/
  | cleaned : PersistentVolume → VolumeStage

/-- The stage of a version and a status. -/
def VolumeStage.ofSlot
    (server : Option PersistentVolume)
    (status : Option CleanupState) : VolumeStage :=
  match server with
  | none => .absent
  | some pv =>
      if Reclaimable pv then
        if status = some .succeeded then .cleaned pv else .soiled pv
      else
        .kept pv

/-- The stage of a name. -/
def World.stage (world : World) (pvName : String) : VolumeStage :=
  .ofSlot (world.slot pvName).server (world.slot pvName).status

/-- The volume of a name is at rest, and its PV is known as one's own. -/
structure World.AtRest
    (runtime : RuntimeConfig)
    (pvName : String)
    (world : World) : Prop where
  slot : (world.slot pvName).AtRest
  shown : VolumeCache.getPV world.cache pvName = world.pvs.get pvName
  owned :
    ∀ pv, world.pvs.get pvName = some pv → ownsPV runtime pv = true

namespace Round

/-- The deleter finds what there is to clean. -/
def Targets (round : Round) (pv : PersistentVolume) : Prop :=
  ∃ work, round.deletion.target pv = .ok work

/-- The PV is cleaned if its cleaning is started. -/
def Cleans (round : Round) (pv : PersistentVolume) : Prop :=
  ∃ work,
    round.deletion.target pv = .ok work ∧
      DeletionPass.Cleanable work ∧
      cleaningOutcome work round.performed = .succeeded

/-- The API server carries out the deletion of a PV. -/
def Removes (round : Round) (pvName : String) : Prop :=
  (round.oracle (.deletePV pvName)).outcome.accepts = true

/-- The PVs of a name that the API server creates if the name is free. -/
def Wants (round : Round) (pvName : String) (pv : PersistentVolume) : Prop :=
  ∃ entry ∈ round.discoverer.discoveryMap.entries,
  ∃ file ∈
      ((round.discovery round.before).ofClass (entry.1, entry.2)).walked,
    ((round.discovery round.before).ofClass (entry.1, entry.2)).Wanted pvName
      file pv

end Round

/-- A step of a volume in a round. -/
inductive VolumeStage.Step (round : Round) (pvName : String) :
    VolumeStage → VolumeStage → Prop where
  | keep (pv : PersistentVolume) :
      Step round pvName (.kept pv) (.kept pv)
  | clean {pv : PersistentVolume} :
      round.Cleans pv →
      Step round pvName (.soiled pv) (.cleaned pv)
  | retry {pv : PersistentVolume} :
      ¬ round.Cleans pv →
      Step round pvName (.soiled pv) (.soiled pv)
  | remove {pv : PersistentVolume} :
      round.Targets pv →
      round.Removes pvName →
      Step round pvName (.cleaned pv) .absent
  -- the outcome of the cleaning is gone, although the PV is still there
  | forget {pv : PersistentVolume} :
      round.Targets pv →
      ¬ round.Removes pvName →
      Step round pvName (.cleaned pv) (.soiled pv)
  | wait {pv : PersistentVolume} :
      ¬ round.Targets pv →
      Step round pvName (.cleaned pv) (.cleaned pv)
  | offer {pv : PersistentVolume} (uid : Nat) :
      round.Wants pvName pv →
      Step round pvName .absent (.kept { pv with uid })
  | miss :
      (∀ pv, ¬ round.Wants pvName pv) →
      Step round pvName .absent .absent

/-- The middle of a round leads to a step of the volume. -/
structure Round.LeadsTo
    (round : Round)
    (pvName : String)
    (middle : Slot)
    (server : Option PersistentVolume)
    (status : Option CleanupState) : Prop where
  leads :
    middle.Leads round.discoverer.toRuntimeConfig round.performed
      (round.before.slot pvName).server server status
  step :
    VolumeStage.Step round pvName (round.before.stage pvName)
      (.ofSlot server status)
  owned :
    ∀ pv,
      server = some pv →
      ownsPV round.discoverer.toRuntimeConfig pv = true

namespace Round

variable {round : Round}
variable {pvName : String}
variable {pv : PersistentVolume}

section Cached

/-- The stage of a PV that is to be reclaimed. -/
theorem stage_of_reclaimable
    {world : World}
    (stored : (world.slot pvName).server = some pv)
    (reclaimable : Reclaimable pv) :
    world.stage pvName =
      if (world.slot pvName).status = some .succeeded then
        .cleaned pv
      else
        .soiled pv := by
  rw [World.stage, stored]
  exact if_pos reclaimable

/-- The slot of a PV leads to what it has, as long as nothing is done. -/
theorem leads_before
    (atRest : round.before.AtRest round.discoverer.toRuntimeConfig pvName)
    (stored : (round.before.slot pvName).server = some pv) :
    (round.before.slot pvName).Leads round.discoverer.toRuntimeConfig
      round.performed (round.before.slot pvName).server (some pv)
      (round.before.slot pvName).status := by
  rw [← stored]
  exact .of_atRest atRest.slot

/-- Nothing is done about a PV that is not to be reclaimed. -/
theorem leadsTo_of_kept
    (atRest : round.before.AtRest round.discoverer.toRuntimeConfig pvName)
    (stored : (round.before.slot pvName).server = some pv)
    (kept : ¬ Reclaimable pv) :
    round.LeadsTo pvName (round.before.slot pvName) (some pv)
      (round.before.slot pvName).status where
  leads := leads_before atRest stored
  step := by
    have stage :
        ∀ status, VolumeStage.ofSlot (some pv) status = .kept pv :=
      fun _ => if_neg kept
    rw [World.stage, stored, stage]
    exact .keep pv
  owned := by
    rintro _ ⟨⟩
    exact atRest.owned pv stored

/-- Nothing is done about a PV of which the deleter finds no volume. -/
theorem leadsTo_of_untargeted
    (atRest : round.before.AtRest round.discoverer.toRuntimeConfig pvName)
    (stored : (round.before.slot pvName).server = some pv)
    (reclaimable : Reclaimable pv)
    (untargeted : ¬ round.Targets pv) :
    round.LeadsTo pvName (round.before.slot pvName) (some pv)
      (round.before.slot pvName).status where
  leads := leads_before atRest stored
  step := by
    have stage :
        ∀ status,
          VolumeStage.ofSlot (some pv) status =
            if status = some .succeeded then .cleaned pv else .soiled pv :=
      fun _ => if_pos reclaimable
    rw [World.stage, stored, stage]
    split
    · exact .wait untargeted
    · refine .retry ?_
      rintro ⟨work, targeted, -⟩
      exact untargeted ⟨work, targeted⟩
  owned := by
    rintro _ ⟨⟩
    exact atRest.owned pv stored

/-- The deletion of a PV that has been cleaned. -/
theorem exists_leadsTo_of_deleted
    (atRest : round.before.AtRest round.discoverer.toRuntimeConfig pvName)
    (stored : (round.before.slot pvName).server = some pv)
    (reclaimable : Reclaimable pv)
    (targeted : round.Targets pv)
    (cleaned : (round.before.slot pvName).status = some .succeeded) :
    ∃ server status,
      round.LeadsTo pvName
        ({ round.before.slot pvName with status := none }.deleted
          (round.oracle (.deletePV pvName)))
        server status := by
  have stage : round.before.stage pvName = .cleaned pv := by
    rw [stage_of_reclaimable stored reclaimable, if_pos cleaned]
  have leads := leads_before atRest stored
  have forgotten :
      { round.before.slot pvName with status := none }.Leads
        round.discoverer.toRuntimeConfig round.performed
        (round.before.slot pvName).server (some pv) none :=
    ⟨leads.server, leads.latest, leads.owned, by simp [atRest.slot.idle]⟩
  have removed :
      round.Removes pvName →
      VolumeStage.Step round pvName (round.before.stage pvName)
        (.ofSlot none none) := by
    intro accepted
    rw [stage]
    exact .remove targeted accepted
  have told :
      ∀ version : Option PersistentVolume,
        version.filter unmarked = none →
        (∀ current,
          version = some current →
          ownsPV round.discoverer.toRuntimeConfig current = true) →
        round.Removes pvName →
        ∃ server status,
          round.LeadsTo pvName
            ({ round.before.slot pvName with status := none }.tell version)
            server status := by
    intro version gone owned accepted
    refine ⟨none, none, ?_, removed accepted, by rintro _ ⟨⟩⟩
    rw [← gone]
    exact forgotten.tell version owned
  have accepted :
      (round.oracle (.deletePV pvName)).outcome.accepts = true →
      ∃ server status,
        round.LeadsTo pvName
          (if (round.oracle (.deletePV pvName)).lingers then
            { round.before.slot pvName with status := none }.tell
              (some { pv with
                deletionTimestamp :=
                  some (round.oracle (.deletePV pvName)).now })
          else
            { round.before.slot pvName with status := none }.tell none)
          server status := by
    intro accepted
    split
    · refine told _ rfl ?_ accepted
      rintro _ ⟨⟩
      exact atRest.owned pv stored
    · exact told none rfl (by rintro _ ⟨⟩) accepted
  unfold Slot.deleted
  cases outcome : (round.oracle (.deletePV pvName)).outcome with
  | rejected err =>
      refine ⟨some pv, none, forgotten, ?_, ?_⟩
      · have still : VolumeStage.ofSlot (some pv) none = .soiled pv := by
          simp [VolumeStage.ofSlot, reclaimable]
        rw [stage, still]
        refine .forget targeted ?_
        simp [Removes, outcome, ApiOutcome.accepts]
      · rintro _ ⟨⟩
        exact atRest.owned pv stored
  | processed | lost =>
      simp only [stored]
      exact accepted (by rw [outcome]; rfl)

/-- A cleaning that is started, or cannot be. -/
theorem exists_leadsTo_of_started
    {work : CleanerWork}
    (atRest : round.before.AtRest round.discoverer.toRuntimeConfig pvName)
    (stored : (round.before.slot pvName).server = some pv)
    (reclaimable : Reclaimable pv)
    (targeted : round.deletion.target pv = .ok work)
    (uncleaned : (round.before.slot pvName).status ≠ some .succeeded) :
    ∃ server status,
      round.LeadsTo pvName
        (if work.volMode = .block ∧ work.config.blockCleanerCommand = [] then
          { round.before.slot pvName with status := none }
        else
          { round.before.slot pvName with
            status := some .running
            works := work :: (round.before.slot pvName).works })
        server status := by
  have stage : round.before.stage pvName = .soiled pv := by
    rw [stage_of_reclaimable stored reclaimable, if_neg uncleaned]
  have leads := leads_before atRest stored
  have owned :
      ∀ current,
        some pv = some current →
        ownsPV round.discoverer.toRuntimeConfig current = true := by
    rintro _ ⟨⟩
    exact atRest.owned pv stored
  have cleans_iff :
      round.Cleans pv ↔
        DeletionPass.Cleanable work ∧
          cleaningOutcome work round.performed = .succeeded := by
    constructor
    · rintro ⟨other, isTarget, cleanable⟩
      rw [targeted] at isTarget
      cases isTarget
      exact cleanable
    · exact fun cleanable => ⟨work, targeted, cleanable⟩
  split
  · rename_i commandless
    refine ⟨some pv, none, ⟨leads.server, leads.latest, leads.owned, ?_⟩, ?_,
      owned⟩
    · simp [atRest.slot.idle]
    · have still : VolumeStage.ofSlot (some pv) none = .soiled pv := by
        simp [VolumeStage.ofSlot, reclaimable]
      rw [stage, still]
      refine .retry fun cleans => ?_
      exact (cleans_iff.mp cleans).1 commandless.1 commandless.2
  · rename_i commanded
    refine ⟨some pv, some (cleaningOutcome work round.performed),
      ⟨leads.server, leads.latest, leads.owned, rfl⟩, ?_, owned⟩
    have isCleanable : DeletionPass.Cleanable work :=
      fun isBlock empty => commanded ⟨isBlock, empty⟩
    have next :
        VolumeStage.ofSlot (some pv)
            (some (cleaningOutcome work round.performed)) =
          if cleaningOutcome work round.performed = .succeeded then
            .cleaned pv
          else
            .soiled pv := by
      simp [VolumeStage.ofSlot, reclaimable]
    rw [stage, next]
    split
    · rename_i succeeds
      exact .clean (cleans_iff.mpr ⟨isCleanable, succeeds⟩)
    · rename_i fails
      exact .retry fun cleans => fails (cleans_iff.mp cleans).2

/-- The turn of a PV of which the deleter finds no volume. -/
theorem after_of_untargeted
    {pass : DeletionPass}
    {err : String}
    (untargeted : pass.target pv = .error err) :
    pass.after pv = pass.world := by
  unfold DeletionPass.after DeletionPass.deleted DeletionPass.turn
    DeletionPass.cleared
  simp only [untargeted]
  split
  · rfl
  · rfl

/-- What becomes of the PV of a name. -/
theorem exists_leadsTo_of_stored
    {between middle : World}
    (inProcess : round.discoverer.useJobForCleaning = false)
    (invariant : TableInvariant round.before)
    (atRest : round.before.AtRest round.discoverer.toRuntimeConfig pvName)
    (halves : round.Halves between middle)
    (stored : (round.before.slot pvName).server = some pv) :
    ∃ server status,
      round.LeadsTo pvName (middle.slot pvName) server status := by
  obtain rfl : pv.name = pvName := ObjectStore.name_of_get stored
  obtain ⟨world, unchanged, after⟩ :=
    halves.exists_slot_of_cached (atRest.shown.trans stored)
  rw [after]
  by_cases reclaimable : Reclaimable pv
  · cases targeted : round.deletion.target pv with
    | error err =>
        have untargeted : ¬ round.Targets pv := by
          rintro ⟨work, isTarget⟩
          rw [targeted] at isTarget
          cases isTarget
        have still :
            (round.deletion.inWorld world).after pv = world :=
          @after_of_untargeted pv (round.deletion.inWorld world) err targeted
        rw [still, unchanged]
        exact ⟨_, _,
          leadsTo_of_untargeted atRest stored reclaimable untargeted⟩
    | ok work =>
        obtain rfl : work.pv = pv := DeletionPass.pv_of_target targeted
        have sameStatus :
            world.procTable.status? work.pv.name =
              (round.before.slot work.pv.name).status :=
          congrArg Slot.status unchanged
        have known : ∀ state,
            (round.before.slot work.pv.name).status = some state →
            state ≠ .running ∧ state ≠ .unknown := by
          intro state isStatus
          refine ⟨?_, (invariant.ended _ state isStatus).1⟩
          rintro rfl
          obtain ⟨cleaner, live, named⟩ := (invariant.live _).mp isStatus
          have working := World.works_of_mem invariant live
          rw [named, atRest.slot.idle] at working
          cases working
        rw [@DeletionPass.slot_after_self (round.deletion.inWorld world) work
          reclaimable targeted (by simp [DeletionPass.runjob, shouldRunJob,
            DeletionPass.inWorld, deletion, inProcess])
          (fun unknown => (known .unknown (sameStatus.symm.trans unknown)).2
            rfl)]
        change ∃ server status,
          round.LeadsTo _ ((world.slot _).turned (round.oracle _) _) _ _
        rw [unchanged, Slot.turned]
        split
        · rename_i running
          exact ((known .running running).1 rfl).elim
        · rename_i succeeded
          exact exists_leadsTo_of_deleted atRest stored reclaimable
            ⟨work, targeted⟩ succeeded
        · rename_i notSucceeded
          exact exists_leadsTo_of_started atRest stored reclaimable targeted
            notSucceeded
  · have still : (round.deletion.inWorld world).after pv = world :=
      if_neg reclaimable
    rw [still, unchanged]
    exact ⟨_, _, leadsTo_of_kept atRest stored reclaimable⟩

end Cached

section Uncached

/-- A PV that is requested for a file is not to be reclaimed. -/
theorem fresh_of_request?
    {pass : ClassPass}
    {file : String}
    (requested : pass.request? file = some pv)
    (uid : Nat) :
    unmarked pv = true ∧ ¬ Reclaimable { pv with uid } := by
  unfold ClassPass.request? at requested
  split at requested
  · obtain ⟨storage, -, built⟩ := Option.bind_eq_some_iff.mp requested
    obtain ⟨text, -, rfl⟩ := Option.map_eq_some_iff.mp built
    refine ⟨rfl, ?_⟩
    rintro ⟨released, -⟩
    cases released
  · cases requested

/-- What is wanted can be read off the world before the round. -/
theorem wanted_iff_wants
    {between middle : World}
    {classes : List (String × MountConfig)}
    (inProcess : round.discoverer.useJobForCleaning = false)
    (halves : round.Halves between middle)
    (uncached : VolumeCache.getPV round.before.cache pvName = none)
    (ordered : (round.discovery between).classes? = some classes)
    (pv : PersistentVolume) :
    (round.discovery between).Wanted classes pvName pv ↔
      round.Wants pvName pv := by
  have sameSlot := halves.slot_of_uncached uncached
  have sameRequest :
      ∀ entry file,
        pvName = ((round.discovery round.before).ofClass entry).pvName file →
        ((round.discovery between).ofClass entry).request? file =
          ((round.discovery round.before).ofClass entry).request? file := by
    rintro entry file rfl
    exact @ClassPass.request?_of_same
      ((round.discovery round.before).ofClass entry) between file inProcess
      halves.sameCache (congrArg Slot.status sameSlot)
  have sameWanted :
      ∀ entry file,
        ((round.discovery between).ofClass entry).Wanted pvName file pv ↔
          ((round.discovery round.before).ofClass entry).Wanted pvName file
            pv := by
    intro entry file
    constructor
    · rintro ⟨requested, named, accepted⟩
      have here := named.symm.trans (ClassPass.identity_of_request? requested).1
      exact ⟨(sameRequest entry file here).symm.trans requested, named,
        accepted⟩
    · rintro ⟨requested, named, accepted⟩
      have here := named.symm.trans (ClassPass.identity_of_request? requested).1
      exact ⟨(sameRequest entry file here).trans requested, named, accepted⟩
  have members : ∀ entry, entry ∈ classes ↔
      ∃ listed ∈ round.discoverer.discoveryMap.entries,
        (listed.1, listed.2) = entry := by
    intro entry
    rw [(perm_of_permuted ordered).mem_iff, List.mem_map]
    rfl
  unfold DiscoveryPass.Wanted Wants
  constructor
  · rintro ⟨entry, member, file, walked, wanted⟩
    obtain ⟨listed, inMap, rfl⟩ := (members entry).mp member
    exact ⟨listed, inMap, file, walked, (sameWanted _ _).mp wanted⟩
  · rintro ⟨listed, inMap, file, walked, wanted⟩
    exact ⟨_, (members _).mpr ⟨listed, inMap, rfl⟩, file, walked,
      (sameWanted _ _).mpr wanted⟩

/-- What becomes of a free name. -/
theorem exists_leadsTo_of_free
    {between middle : World}
    (inProcess : round.discoverer.useJobForCleaning = false)
    (atRest : round.before.AtRest round.discoverer.toRuntimeConfig pvName)
    (halves : round.Halves between middle)
    (free : (round.before.slot pvName).server = none) :
    ∃ server status,
      round.LeadsTo pvName (middle.slot pvName) server status := by
  have uncached : VolumeCache.getPV round.before.cache pvName = none :=
    atRest.shown.trans free
  have stage : round.before.stage pvName = .absent := by
    rw [World.stage, free]
    rfl
  have leads :=
    @Slot.Leads.of_atRest round.discoverer.toRuntimeConfig round.performed _
      atRest.slot
  obtain ⟨classes, ordered, offered⟩ := halves.offered
  have wanted_iff := wanted_iff_wants inProcess halves uncached ordered
  have offering := (offered pvName).1.congr wanted_iff
  rw [halves.slot_of_uncached uncached] at offering
  rcases offering with ⟨same, unwanted⟩ | ⟨-, pv, uid, wants, told⟩
  · refine ⟨none, (middle.slot pvName).status, ?_, ?_, by rintro _ ⟨⟩⟩
    · rw [← free]
      exact leads.of_sameVersions same atRest.slot.idle
    · rw [stage]
      exact .miss (unwanted free)
  · have requested := wants
    obtain ⟨entry, -, file, -, isRequest, -⟩ := requested
    obtain ⟨isUnmarked, notReclaimable⟩ := fresh_of_request? isRequest uid
    have owned :
        ∀ current,
          some { pv with uid } = some current →
          ownsPV round.discoverer.toRuntimeConfig current = true := by
      rintro _ ⟨⟩
      exact (ClassPass.identity_of_request? isRequest).2.2
    have version :
        (some { pv with uid }).filter unmarked = some { pv with uid } :=
      if_pos isUnmarked
    refine ⟨some { pv with uid }, (middle.slot pvName).status, ?_, ?_, owned⟩
    · rw [← version]
      exact (leads.tell _ owned).of_sameVersions told atRest.slot.idle
    · have next :
          VolumeStage.ofSlot (some { pv with uid })
              (middle.slot pvName).status = .kept { pv with uid } :=
        if_neg notReclaimable
      rw [stage, next]
      exact .offer uid wants

end Uncached

end Round

/-- A round moves every volume by one step, and it is at rest again. -/
theorem Round.Ends.steps
    {round : Round}
    {pvName : String}
    {after : World}
    (ends : round.Ends pvName after)
    (reaches : processRuns.Reaches (.between round.discoverer round.before))
    (atRest : round.before.AtRest round.discoverer.toRuntimeConfig pvName) :
    after.AtRest round.discoverer.toRuntimeConfig pvName ∧
      VolumeStage.Step round pvName (round.before.stage pvName)
        (after.stage pvName) := by
  have inProcess : round.discoverer.useJobForCleaning = false :=
    (processRuns_carried.onOutline reaches).admitted
  obtain ⟨calls, middle, ran, settles⟩ := ends
  obtain ⟨between, halves⟩ := Round.exists_halves ran
  have leadsTo :
      ∃ server status,
        round.LeadsTo pvName (middle.slot pvName) server status := by
    cases stored : (round.before.slot pvName).server with
    | none => exact Round.exists_leadsTo_of_free inProcess atRest halves stored
    | some pv =>
        exact Round.exists_leadsTo_of_stored inProcess
          (tableInvariant_of_reaches reaches) atRest halves stored
  obtain ⟨server, status, leads, step, owned⟩ := leadsTo
  have shown :
      VolumeCache.getPV middle.cache pvName =
        (round.before.slot pvName).server := by
    rw [halves.laterCache]
    exact atRest.shown
  rw [← shown] at leads
  have begun :
      processRuns.Reaches
        { discoverer := round.discoverer
          rest := syncPass round.discoverer
          world := round.before } :=
    .advance .beginPass reaches trivial rfl
  have invariant := tableInvariant_of_reaches (reaches_of_trace begun ran)
  obtain ⟨rests, isServer, isStatus, isShown⟩ :=
    settles.leads_of_atRest invariant leads
  refine ⟨⟨rests, isShown.trans isServer.symm, ?_⟩, ?_⟩
  · intro pv stored
    exact owned pv (isServer.symm.trans stored)
  · have next : after.stage pvName = .ofSlot server status := by
      rw [World.stage, isServer, isStatus]
    rw [next]
    exact step

/-!
## Rounds in sequence
-/

/-- Rounds of one instance, from a state of a run in which a volume is at rest. -/
structure Rounds
    (pvName : String)
    (rounds : Nat → Round)
    (bound : Nat) : Prop where
  reached :
    processRuns.Reaches (.between (rounds 0).discoverer (rounds 0).before)
  atRest :
    (rounds 0).before.AtRest (rounds 0).discoverer.toRuntimeConfig pvName
  sameInstance : ∀ time, (rounds time).discoverer = (rounds 0).discoverer
  ends :
    ∀ time < bound, (rounds time).Ends pvName (rounds (time + 1)).before

/-- The round lets a volume in this stage proceed. -/
def Round.Serves (round : Round) (pvName : String) : VolumeStage → Prop
  | .absent => ∃ pv, round.Wants pvName pv
  | .kept _ => True
  | .soiled pv => round.Cleans pv
  | .cleaned pv => round.Targets pv ∧ round.Removes pvName

/-- This can be checked. -/
def Round.serves (round : Round) (pvName : String) : VolumeStage → Bool
  | .absent =>
      round.discoverer.discoveryMap.entries.any fun entry =>
        let pass := (round.discovery round.before).ofClass (entry.1, entry.2)
        pass.walked.any fun file =>
          (pass.request? file).any fun pv =>
            decide (pv.name = pvName) &&
              (round.oracle (.createPV pv)).outcome.accepts
  | .kept _ => true
  | .soiled pv =>
      (round.deletion.target pv).toOption.any fun work =>
        decide
          (¬ (work.volMode = .block ∧ work.config.blockCleanerCommand = []) ∧
            cleaningOutcome work round.performed = .succeeded)
  | .cleaned pv =>
      (round.deletion.target pv).isOk &&
        (round.oracle (.deletePV pvName)).outcome.accepts

theorem Round.serves_of_serves
    {round : Round}
    {pvName : String}
    {stage : VolumeStage}
    (checked : round.serves pvName stage = true) :
    round.Serves pvName stage := by
  cases stage with
  | absent =>
      obtain ⟨entry, inMap, checked⟩ := List.any_eq_true.mp checked
      obtain ⟨file, walked, checked⟩ := List.any_eq_true.mp checked
      obtain ⟨pv, requested, checked⟩ := (Option.any_eq_true _ _).mp checked
      rw [Bool.and_eq_true] at checked
      exact ⟨pv, entry, inMap, file, walked, requested,
        of_decide_eq_true checked.1, checked.2⟩
  | kept pv => trivial
  | soiled pv =>
      obtain ⟨work, targeted, checked⟩ := (Option.any_eq_true _ _).mp checked
      obtain ⟨commanded, succeeds⟩ := of_decide_eq_true checked
      refine ⟨work, ?_, ?_, succeeds⟩
      · cases found : round.deletion.target pv with
        | error err =>
            rw [found] at targeted
            cases targeted
        | ok other =>
            rw [found] at targeted
            cases targeted
            rfl
      · exact fun isBlock empty => commanded ⟨isBlock, empty⟩
  | cleaned pv =>
      rw [serves, Bool.and_eq_true] at checked
      refine ⟨?_, checked.2⟩
      cases found : round.deletion.target pv with
      | error err =>
          rw [found] at checked
          cases checked.1
      | ok work => exact ⟨work, found⟩

/-- The number of rounds until the volume is offered, if all goes well. -/
def VolumeStage.distance : VolumeStage → Nat
  | .kept _ => 0
  | .absent => 1
  | .cleaned _ => 2
  | .soiled _ => 3

namespace VolumeStage

variable {round : Round}
variable {pvName : String}
variable {before after : VolumeStage}

/-- A round that serves the volume brings it nearer. -/
theorem Step.distance_lt
    (step : Step round pvName before after)
    (serves : round.Serves pvName before)
    (unkept : before.distance ≠ 0) :
    after.distance < before.distance := by
  cases step with
  | keep pv => exact (unkept rfl).elim
  | clean => simp [distance]
  | retry fails => exact (fails serves).elim
  | remove => simp [distance]
  | forget _ fails => exact (fails serves.2).elim
  | wait fails => exact (fails serves.1).elim
  | offer => simp [distance]
  | miss unwanted =>
      obtain ⟨pv, wants⟩ := serves
      exact (unwanted pv wants).elim

/-- No round throws it back by more than one. -/
theorem Step.distance_le (step : Step round pvName before after) :
    after.distance ≤ before.distance + 1 := by
  cases step <;> simp [distance]

end VolumeStage

namespace Rounds

variable {pvName : String}
variable {rounds : Nat → Round}
variable {bound : Nat}

/-- Every round starts at rest in a state of the run. -/
theorem atRest_of_le
    (sequence : Rounds pvName rounds bound)
    {time : Nat}
    (early : time ≤ bound) :
    processRuns.Reaches
        (.between (rounds time).discoverer (rounds time).before) ∧
      (rounds time).before.AtRest (rounds time).discoverer.toRuntimeConfig
        pvName := by
  induction time with
  | zero => exact ⟨sequence.reached, sequence.atRest⟩
  | succ time ih =>
      obtain ⟨reached, atRest⟩ := ih (by omega)
      have ends := sequence.ends time (by omega)
      have same :
          (rounds (time + 1)).discoverer = (rounds time).discoverer := by
        rw [sequence.sameInstance, sequence.sameInstance time]
      rw [same]
      exact ⟨ends.reaches reached, (ends.steps reached atRest).1⟩

/-- Every round moves the volume by one step. -/
theorem steps
    (sequence : Rounds pvName rounds bound)
    {time : Nat}
    (early : time < bound) :
    VolumeStage.Step (rounds time) pvName
      ((rounds time).before.stage pvName)
      ((rounds (time + 1)).before.stage pvName) := by
  obtain ⟨reached, atRest⟩ := sequence.atRest_of_le (Nat.le_of_lt early)
  exact ((sequence.ends time early).steps reached atRest).2

end Rounds

/--
A volume without a PV, or with one that is to be reclaimed, is offered within
three rounds and two more for every round that does not serve it.
-/
theorem rounds_offer
    {pvName : String}
    {rounds : Nat → Round}
    {bound : Nat}
    {faulty : Finset Nat}
    (sequence : Rounds pvName rounds bound)
    (unkept : ∀ pv, (rounds 0).before.stage pvName ≠ .kept pv)
    (served :
      ∀ time < bound,
        time ∉ faulty →
        (rounds time).Serves pvName ((rounds time).before.stage pvName))
    (enough : 3 + 2 * faulty.card ≤ bound) :
    ∃ time < bound,
    ∃ pv uid,
      (rounds time).Wants pvName pv ∧
        (rounds (time + 1)).before.stage pvName = .kept { pv with uid } := by
  have starts : ((rounds 0).before.stage pvName).distance ≤ 3 := by
    cases (rounds 0).before.stage pvName <;> simp [VolumeStage.distance]
  have away : ((rounds 0).before.stage pvName).distance ≠ 0 := by
    cases stage : (rounds 0).before.stage pvName with
    | kept pv => exact (unkept pv stage).elim
    | absent | soiled | cleaned => simp [VolumeStage.distance]
  have arrives :
      ∃ time < bound,
        ((rounds time).before.stage pvName).distance ≠ 0 ∧
          ((rounds (time + 1)).before.stage pvName).distance = 0 := by
    refine @exists_arrival_of_faults
      (fun time => ((rounds time).before.stage pvName).distance) faulty bound
      ?_ ?_ away (by omega)
    · intro time early unspoiled
      exact (sequence.steps early).distance_lt (served time early unspoiled)
    · intro time early
      exact (sequence.steps early).distance_le
  obtain ⟨time, early, notYet, arrived⟩ := arrives
  have step := sequence.steps early
  generalize (rounds time).before.stage pvName = stage at notYet step
  generalize after :
    (rounds (time + 1)).before.stage pvName = next at arrived step
  cases step with
  | offer uid wants => exact ⟨time, early, _, uid, wants, after⟩
  | keep => exact (notYet rfl).elim
  | clean | retry | remove | forget | wait | miss => cases arrived

/-- The world after the pass of a round. -/
def Round.middle (round : Round) : World :=
  match (syncPass round.discoverer).trace exec round.oracle round.before with
  | (_, .ok (_, middle)) => middle
  | (_, .error _) => round.before

/-- A round whose pass completes, and after which the volume comes to rest. -/
theorem Round.ends_of_settles
    {round : Round}
    {pvName : String}
    {after : World}
    (completes :
      ((syncPass round.discoverer).trace exec round.oracle
        round.before).2.isOk = true)
    (settles :
      Settles round.discoverer.toRuntimeConfig pvName round.performed
        round.middle after) :
    round.Ends pvName after := by
  unfold Round.middle at settles
  split at settles
  · rename_i calls value middle ran
    exact ⟨calls, middle, ran, settles⟩
  · rename_i ran
    rw [ran] at completes
    cases completes

/-- One file, and as many cached PVs as the order has indices. -/
def sampleSurroundings (order : List Nat) : Op → Answers
  | .listPVs => { order }
  | .rangeDiscoveryMap _ => { order := [0] }
  | .getStorageClass _ =>
      { storageClass := .ok { reclaimPolicy := none, mountOptions := [] } }
  | .readDir _ => { names := .ok ["volume"] }
  | .listMounts => { names := .ok ["/mnt/fast/volume"] }
  | .isDir _ => { probe := .ok true }
  | .getFsCapacityByte _ _ => { bytes := .ok 1000 }
  | _ => {}

/-- A round on the sample node in which nothing fails. -/
def sampleRound (order : List Nat) (before : World) : Round where
  discoverer := sampleDiscoverer false sampleClasses
  oracle := sampleSurroundings order
  performed := .ok ()
  before

/-- The world after a move of the surroundings. -/
def World.moved (world : World) (move : Disturbance) : World :=
  (world.disturb (sampleRuntime false sampleClasses) move).getD world

/-- The volume comes to rest by one move. -/
theorem Settles.of_move
    {pvName : String}
    {performed : Except String Unit}
    {world : World}
    {move : Disturbance}
    (settling : Settling pvName performed world move)
    (possible :
      (world.disturb (sampleRuntime false sampleClasses) move).isSome = true)
    (rests : ((world.moved move).slot pvName).rests = true) :
    Settles (sampleRuntime false sampleClasses) pvName performed world
      (world.moved move) := by
  obtain ⟨next, moved⟩ := Option.isSome_iff_exists.mp possible
  have isNext : world.moved move = next := by rw [World.moved, moved]; rfl
  rw [isNext] at rests ⊢
  exact .move settling moved (.atRest (Slot.atRest_of_rests rests))

/-- A volume is found, -/
def sampleFoundWorld : World :=
  (sampleRound [] .empty).middle.moved .deliverPV

/-- its PV is released after it was used, -/
def sampleReleasedWorld : World :=
  (sampleFoundWorld.putPV (sampleReleasedPV 1)).moved .deliverPV

/-- it is cleaned, -/
def sampleCleanedWorld : World :=
  (sampleRound [0] sampleReleasedWorld).middle.moved
    (.cleanerFinishes 0 (.ok ()))

/-- its PV is deleted, -/
def sampleDeletedWorld : World :=
  (sampleRound [0] sampleCleanedWorld).middle.moved .deliverPV

/-- and it is found again. -/
def sampleOfferedWorld : World :=
  (sampleRound [] sampleDeletedWorld).middle.moved .deliverPV

/-- Three rounds with a released PV. -/
def sampleRounds : Nat → Round
  | 0 => sampleRound [0] sampleReleasedWorld
  | 1 => sampleRound [0] sampleCleanedWorld
  | 2 => sampleRound [] sampleDeletedWorld
  | _ => sampleRound [] sampleOfferedWorld

/-- The volume is found in a first round. -/
theorem ends_sampleRound_empty :
    (sampleRound [] .empty).Ends sampleName sampleFoundWorld :=
  Round.ends_of_settles (by decide +kernel)
    (.of_move trivial (by decide +kernel) (by decide +kernel))

/-- The released PV is at rest in a state of a run. -/
theorem atRest_sampleReleasedWorld :
    processRuns.Reaches
        (.between (sampleDiscoverer false sampleClasses)
          sampleReleasedWorld) ∧
      sampleReleasedWorld.AtRest (sampleRuntime false sampleClasses)
        sampleName := by
  have started :
      processRuns.Reaches
        (.between (sampleDiscoverer false sampleClasses) .empty) :=
    .initial ⟨sampleRuntime false sampleClasses, _, rfl,
      newDiscoverer_sampleRuntime false sampleClasses, rfl⟩
  have found := ends_sampleRound_empty.reaches started
  have foundAtRest :=
    (ends_sampleRound_empty.steps started
      ⟨⟨rfl, rfl, by rintro _ ⟨⟩⟩, rfl, by rintro _ ⟨⟩⟩).1
  have updated :
      sampleFoundWorld.disturb (sampleRuntime false sampleClasses)
          (.updatePV (sampleReleasedPV 1)) =
        some (sampleFoundWorld.putPV (sampleReleasedPV 1)) := by
    obtain ⟨current, stored⟩ :=
      Option.isSome_iff_exists.mp
        (by decide +kernel :
          (sampleFoundWorld.pvs.get (sampleReleasedPV 1).name).isSome = true)
    have same :
        (sampleFoundWorld.pvs.get (sampleReleasedPV 1).name).all
          (fun current =>
            current.uid = (sampleReleasedPV 1).uid ∧
              current.localSource = (sampleReleasedPV 1).localSource) =
          true := by
      decide +kernel
    rw [stored] at same
    simp only [World.disturb, stored]
    exact if_pos (of_decide_eq_true same)
  have released :
      processRuns.Reaches
        (.between (sampleDiscoverer false sampleClasses)
          (sampleFoundWorld.putPV (sampleReleasedPV 1))) := by
    refine .advance (.disturb (.updatePV (sampleReleasedPV 1))) found trivial ?_
    simp only [step]
    exact congrArg (Option.map _) updated
  have settles :
      Settles (sampleRuntime false sampleClasses) sampleName (.ok ())
        (sampleFoundWorld.putPV (sampleReleasedPV 1)) sampleReleasedWorld :=
    .of_move trivial (by decide +kernel) (by decide +kernel)
  have owned :
      ∀ pv,
        some (sampleReleasedPV 1) = some pv →
        ownsPV (sampleRuntime false sampleClasses) pv = true := by
    rintro _ ⟨⟩
    decide
  have leads :=
    (@Slot.Leads.of_atRest (sampleRuntime false sampleClasses) (.ok ()) _
      foundAtRest.slot).tell (some (sampleReleasedPV 1)) owned
  have isSlot :
      (sampleFoundWorld.putPV (sampleReleasedPV 1)).slot sampleName =
        (sampleFoundWorld.slot sampleName).tell (some (sampleReleasedPV 1)) :=
    (World.slot_putPV _ _ _).trans (if_pos rfl)
  rw [← isSlot] at leads
  have shown :
      VolumeCache.getPV (sampleFoundWorld.putPV (sampleReleasedPV 1)).cache
          sampleName =
        (sampleFoundWorld.slot sampleName).server :=
    foundAtRest.shown
  rw [← shown] at leads
  obtain ⟨rests, isServer, -, isShown⟩ :=
    settles.leads_of_atRest (tableInvariant_of_reaches released) leads
  refine ⟨settles.reaches released, rests, isShown.trans isServer.symm, ?_⟩
  intro pv stored
  exact owned pv (isServer.symm.trans stored)

/-- It is cleaned in a first round, -/
theorem ends_sampleRound_released :
    (sampleRound [0] sampleReleasedWorld).Ends sampleName
      sampleCleanedWorld := by
  refine Round.ends_of_settles (by decide +kernel)
    (.of_move ?_ (by decide +kernel) (by decide +kernel))
  intro _ _ _
  rfl

/-- deleted in a second one, -/
theorem ends_sampleRound_cleaned :
    (sampleRound [0] sampleCleanedWorld).Ends sampleName sampleDeletedWorld :=
  Round.ends_of_settles (by decide +kernel)
    (.of_move trivial (by decide +kernel) (by decide +kernel))

/-- and offered again in a third one. -/
theorem ends_sampleRound_deleted :
    (sampleRound [] sampleDeletedWorld).Ends sampleName sampleOfferedWorld :=
  Round.ends_of_settles (by decide +kernel)
    (.of_move trivial (by decide +kernel) (by decide +kernel))

/-- The three rounds come to rest. -/
theorem sampleRounds_rounds : Rounds sampleName sampleRounds 3 where
  reached := atRest_sampleReleasedWorld.1
  atRest := atRest_sampleReleasedWorld.2
  sameInstance := by
    intro time
    match time with
    | 0 | 1 | 2 | _ + 3 => rfl
  ends := by
    intro time early
    match time with
    | 0 => exact ends_sampleRound_released
    | 1 => exact ends_sampleRound_cleaned
    | 2 => exact ends_sampleRound_deleted

/-- A released PV is offered again in the last of three rounds. -/
theorem rounds_offer_of_sampleRounds :
    Rounds sampleName sampleRounds 3 ∧
      ∃ time < 3,
      ∃ pv uid,
        (sampleRounds time).Wants sampleName pv ∧
          (sampleRounds (time + 1)).before.stage sampleName =
            .kept { pv with uid } := by
  have serves :
      ∀ time ∈ [0, 1, 2],
        (sampleRounds time).serves sampleName
          ((sampleRounds time).before.stage sampleName) = true := by
    decide +kernel
  refine ⟨sampleRounds_rounds, ?_⟩
  refine @rounds_offer sampleName sampleRounds 3 ∅ sampleRounds_rounds ?_ ?_
    (by decide)
  · intro pv kept
    have away :
        ((sampleRounds 0).before.stage sampleName).distance = 3 := by
      decide +kernel
    rw [kept] at away
    cases away
  · intro time early _
    refine Round.serves_of_serves (serves time ?_)
    match time with
    | 0 | 1 | 2 => decide

end LocalProvisioner
