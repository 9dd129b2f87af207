import LocalProvisioner.CleanerAccounts
import LocalProvisioner.VolumeSlots

namespace LocalProvisioner

open Interleaving

/-!
# Rounds of the sync loop

A round is a pass over all PVs and all classes, after which the surroundings
move until a volume is at rest: its cleaner has ended, the populator has been
told of every change, and nothing is left of a PV that is marked as deleted.
Meanwhile, anything may happen to the PVs of other volumes.

What the volume has at rest is decided by its slot at the end of the pass.
-/

/-- What may move the world while the volume of a name comes to rest. -/
def Settling
    (pvName : String)
    (performed : Except String Unit)
    (world : World) :
    Disturbance → Prop
  | .cleanerFinishes index outcome =>
      ∀ cleaner,
        world.cleaners[index]? = some cleaner →
        cleaner.pvName = pvName →
        outcome = performed
  | .overwriteCache _ => False
  | .updatePV pv => pv.name ≠ pvName
  -- the finalizers of a PV that is marked as deleted have done their work
  | .removePV removed =>
      removed = pvName →
      ∀ pv, world.pvs.get pvName = some pv → pv.deletionTimestamp ≠ none
  | _ => True

/-- The populator, the cleaner of a volume and its finalizers are done. -/
structure Slot.AtRest (slot : Slot) : Prop where
  idle : slot.works = []
  told : slot.news = []
  live : ∀ pv, slot.server = some pv → pv.deletionTimestamp = none

/-- The surroundings move until the volume of a name is at rest. -/
inductive Settles
    (runtime : RuntimeConfig)
    (pvName : String)
    (performed : Except String Unit) :
    World → World → Prop where
  | atRest {world : World} :
      (world.slot pvName).AtRest →
      Settles runtime pvName performed world world
  | move {disturbance : Disturbance} {world next later : World} :
      Settling pvName performed world disturbance →
      world.disturb runtime disturbance = some next →
      Settles runtime pvName performed next later →
      Settles runtime pvName performed world later

/--
A round of an instance: its surroundings answer as the oracle says, and
`performed` is what the action of a cleaner of the volume comes to.
-/
structure Round where
  discoverer : Discoverer
  oracle : Op → Answers
  performed : Except String Unit
  before : World

/-- What the round can come to. -/
def Round.Ends (round : Round) (pvName : String) (after : World) : Prop :=
  ∃ calls middle,
    (syncPass round.discoverer).trace exec round.oracle round.before =
        (calls, .ok ((), middle)) ∧
      Settles round.discoverer.toRuntimeConfig pvName round.performed middle
        after

/-- An instance between two passes. -/
abbrev SyncState.between (discoverer : Discoverer) (world : World) :
    SyncState :=
  { discoverer, rest := .done (), world }

/-!
## Rounds are parts of runs
-/

section Runs

variable {discoverer : Discoverer}
variable {oracle : Op → Answers}
variable {pvName : String}
variable {performed : Except String Unit}

/-- The calls of a routine are steps of a run. -/
theorem reaches_of_trace
    {program : Routine Unit}
    {world later : World}
    {calls : List (Answered syncSignature)}
    (reaches : processRuns.Reaches { discoverer, rest := program, world })
    (ran : program.trace exec oracle world = (calls, .ok ((), later))) :
    processRuns.Reaches (.between discoverer later) := by
  induction program generalizing world calls with
  | done result =>
      cases ran
      exact reaches
  | call op rest inductionHypothesis =>
      cases replied : exec op (oracle op) world with
      | none =>
          rw [Program.trace_call_of_none replied] at ran
          cases ran
      | some made =>
          obtain ⟨reply, middle⟩ := made
          rw [Program.trace_call_of_some replied, Prod.mk.injEq] at ran
          refine inductionHypothesis reply ?_ (Prod.ext rfl ran.2)
          refine .advance (.call (oracle op)) reaches trivial ?_
          simp only [step, replied, Option.map_some]

/-- Coming to rest is a part of a run. -/
theorem Settles.reaches
    {world later : World}
    (settles : Settles discoverer.toRuntimeConfig pvName performed world later)
    (reaches : processRuns.Reaches (.between discoverer world)) :
    processRuns.Reaches (.between discoverer later) := by
  induction settles with
  | atRest => exact reaches
  | @move disturbance _ _ _ _ moved _ inductionHypothesis =>
      apply inductionHypothesis
      refine .advance (.disturb disturbance) reaches trivial ?_
      simp only [step, moved, Option.map_some]

/-- A round is a part of a run. -/
theorem Round.Ends.reaches
    {round : Round}
    {after : World}
    (ends : round.Ends pvName after)
    (reaches :
      processRuns.Reaches (.between round.discoverer round.before)) :
    processRuns.Reaches (.between round.discoverer after) := by
  obtain ⟨calls, middle, ran, settles⟩ := ends
  have begun :
      processRuns.Reaches
        { discoverer := round.discoverer
          rest := syncPass round.discoverer
          world := round.before } :=
    .advance .beginPass reaches trivial rfl
  exact settles.reaches (reaches_of_trace begun ran)

/-- The table and the cleaners agree wherever a run comes to. -/
theorem tableInvariant_of_reaches
    {state : SyncState}
    (reaches : processRuns.Reaches state) :
    TableInvariant state.world := by
  obtain ⟨phase, holds⟩ := processRuns_carried.assertion_of_reaches reaches
  exact holds.invariant

end Runs

/-!
## Coming to rest
-/

/-- A PV that is not marked as deleted. -/
def unmarked (pv : PersistentVolume) : Bool :=
  pv.deletionTimestamp.isNone

/-- Whether a slot is at rest can be checked. -/
def Slot.rests (slot : Slot) : Bool :=
  slot.works.isEmpty && slot.news.isEmpty && slot.server.all unmarked

theorem Slot.atRest_of_rests {slot : Slot} (rests : slot.rests = true) :
    slot.AtRest := by
  rw [Slot.rests, Bool.and_eq_true, Bool.and_eq_true] at rests
  obtain ⟨⟨idle, told⟩, live⟩ := rests
  refine ⟨List.isEmpty_iff.mp idle, List.isEmpty_iff.mp told, ?_⟩
  intro pv stored
  rw [stored] at live
  exact Option.isNone_iff_eq_none.mp live

/-- Nothing is marked in a slot at rest. -/
theorem Slot.AtRest.filter_unmarked {slot : Slot} (atRest : slot.AtRest) :
    slot.server.filter unmarked = slot.server := by
  cases stored : slot.server with
  | none => rfl
  | some pv => simp [unmarked, atRest.live pv stored]

/--
A slot leads to a version of the PV and a status: so much is decided by what
the server has, by what has yet to be told, and by a cleaner under way.
-/
structure Slot.Leads
    (runtime : RuntimeConfig)
    (performed : Except String Unit)
    (shown : Option PersistentVolume)
    (slot : Slot)
    (server : Option PersistentVolume)
    (status : Option CleanupState) : Prop where
  server : slot.server.filter unmarked = server
  latest : slot.news.getLast?.getD shown = slot.server
  owned : ∀ pv, some pv ∈ slot.news → ownsPV runtime pv = true
  status :
    (match slot.works with
      | [] => slot.status
      | work :: _ => some (cleaningOutcome work performed)) = status

namespace Slot.Leads

variable {runtime : RuntimeConfig}
variable {performed : Except String Unit}
variable {shown server : Option PersistentVolume}
variable {status : Option CleanupState}
variable {slot : Slot}

/-- A slot at rest leads to what it has. -/
theorem of_atRest (atRest : slot.AtRest) :
    Leads runtime performed slot.server slot slot.server slot.status where
  server := atRest.filter_unmarked
  latest := by simp [atRest.told]
  owned := by simp [atRest.told]
  status := by simp [atRest.idle]

/-- The server has a new version. -/
theorem tell
    (leads : Leads runtime performed shown slot server status)
    (version : Option PersistentVolume)
    (owned : ∀ pv, version = some pv → ownsPV runtime pv = true) :
    Leads runtime performed shown (slot.tell version) (version.filter unmarked)
      status where
  server := rfl
  latest := by simp [Slot.tell]
  owned := by
    intro pv member
    rcases List.mem_append.mp member with earlier | isNew
    · exact leads.owned pv earlier
    · exact owned pv (List.mem_singleton.mp isNew).symm
  status := leads.status

/-- The populator is told of the first version. -/
theorem delivered
    {news : Option PersistentVolume}
    {rest : List (Option PersistentVolume)}
    (leads : Leads runtime performed shown slot server status)
    (coming : slot.news = news :: rest) :
    Leads runtime performed news { slot with news := rest } server status where
  server := leads.server
  latest := by
    have latest := leads.latest
    rw [coming] at latest
    cases rest with
    | nil => exact latest
    | cons next others =>
        rw [List.getLast?_cons_cons] at latest
        rw [List.getLast?_cons] at latest ⊢
        exact latest
  owned := by
    intro pv member
    exact leads.owned pv (by rw [coming]; exact List.mem_cons_of_mem _ member)
  status := leads.status

/-- The same versions, with another status. -/
theorem of_sameVersions
    {later : Slot}
    (leads : Leads runtime performed shown slot server status)
    (same : slot.SameVersions later)
    (idle : slot.works = []) :
    Leads runtime performed shown later server later.status where
  server := by rw [same.server, leads.server]
  latest := by rw [same.server, same.news, leads.latest]
  owned := by
    rw [same.news]
    exact leads.owned
  status := by rw [same.works, idle]

/-- The cleaner ends. -/
theorem ended
    {work : CleanerWork}
    (leads : Leads runtime performed shown slot server status)
    (cleaning : slot.works = [work]) :
    Leads runtime performed shown
      { slot with
        status := some (cleaningOutcome work performed)
        works := [] } server status where
  server := leads.server
  latest := leads.latest
  owned := leads.owned
  status := by
    have expected := leads.status
    rw [cleaning] at expected
    exact expected

end Slot.Leads

namespace World

variable {world later : World}
variable {runtime : RuntimeConfig}
variable {pvName : String}

/-- The cleaner of a name works in its slot. -/
theorem works_of_mem
    {cleaner : Cleaner}
    (invariant : TableInvariant world)
    (member : cleaner ∈ world.cleaners) :
    (world.slot cleaner.pvName).works = [cleaner.work] := by
  have alone :
      world.cleaners.filter
          (fun other => other.pvName = cleaner.pvName) = [cleaner] :=
    ObjectStore.filter_name_of_nodup invariant.single member
  simp only [slot]
  rw [alone]
  rfl

/-- The slots after a cleaner has ended. -/
theorem slot_finishCleaner
    {index : Nat}
    {cleaner : Cleaner}
    (invariant : TableInvariant world)
    (found : world.cleaners[index]? = some cleaner)
    (performed : Except String Unit)
    (pvName : String) :
    (world.finishCleaner index cleaner performed).slot pvName =
      if pvName = cleaner.pvName then
        { world.slot pvName with
          status := some (cleaningOutcome cleaner.work performed)
          works := [] }
      else
        world.slot pvName := by
  have status := invariant.status?_finishCleaner found performed pvName
  have works :
      (world.cleaners.eraseIdx index).filter
          (fun other => other.pvName = pvName) =
        if pvName = cleaner.pvName then
          []
        else
          world.cleaners.filter fun other => other.pvName = pvName := by
    split
    · rename_i same
      rw [List.filter_eq_nil_iff]
      intro other live sameName
      refine ((invariant.mem_eraseIdx found).mp live).2 ?_
      rw [← same]
      exact of_decide_eq_true sameName
    · rename_i apart
      obtain ⟨inside, isCleaner⟩ := List.getElem?_eq_some_iff.mp found
      conv_rhs =>
        rw [← List.take_append_drop index world.cleaners,
          List.drop_eq_getElem_cons inside, isCleaner]
      rw [List.eraseIdx_eq_take_drop_succ, List.filter_append,
        List.filter_append, List.filter_cons_of_neg]
      simpa using Ne.symm apart
  simp only [slot]
  change Slot.mk _ _ _ (((world.cleaners.eraseIdx index).filter _).map _) = _
  rw [status, works]
  split
  · rfl
  · rfl

/-- The populator takes in what is told of an own PV. -/
theorem getPV_handlePVNotice_of_owned
    (cache : VolumeCache)
    {notice : Notice PersistentVolume}
    (owned : ∀ pv, notice.news = some pv → ownsPV runtime pv = true) :
    VolumeCache.getPV (handlePVNotice runtime cache notice)
      notice.object.name = notice.news := by
  cases notice with
  | updated pv =>
      exact (getPV_handlePVUpdate runtime cache pv pv.name).trans
        (if_pos ⟨rfl, .inr (owned pv rfl)⟩)
  | deleted pv =>
      exact (getPV_handlePVDelete cache pv pv.name).trans (if_pos rfl)

/-- The slots after the populator has been told of a change. -/
theorem slot_deliver
    {notice : Notice PersistentVolume}
    {rest : List (Notice PersistentVolume)}
    (pending : world.pvNotices = notice :: rest)
    (cache : VolumeCache)
    (pvName : String) :
    if pvName = notice.object.name then
      (world.slot pvName).news = notice.news :: newsOf pvName rest ∧
        ({ world with pvNotices := rest, cache } : World).slot pvName =
          { world.slot pvName with news := newsOf pvName rest }
    else
      ({ world with pvNotices := rest, cache } : World).slot pvName =
        world.slot pvName := by
  split
  · rename_i same
    refine ⟨?_, rfl⟩
    simp only [slot, newsOf, pending]
    rw [List.filter_cons_of_pos (by simp [same]), List.map_cons]
  · rename_i apart
    simp only [slot, newsOf, pending]
    rw [List.filter_cons_of_neg (by simpa using Ne.symm apart)]

end World

/-- Nothing that happens on the way to rest changes what a slot leads to. -/
theorem Slot.Leads.settling
    {runtime : RuntimeConfig}
    {performed : Except String Unit}
    {pvName : String}
    {server : Option PersistentVolume}
    {status : Option CleanupState}
    {world next : World}
    {disturbance : Disturbance}
    (leads :
      Leads runtime performed (VolumeCache.getPV world.cache pvName)
        (world.slot pvName) server status)
    (invariant : TableInvariant world)
    (settling : Settling pvName performed world disturbance)
    (moved : world.disturb runtime disturbance = some next) :
    Leads runtime performed (VolumeCache.getPV next.cache pvName)
      (next.slot pvName) server status := by
  cases disturbance with
  | cleanerFinishes index outcome =>
      obtain ⟨cleaner, found, rfl⟩ := Option.map_eq_some_iff.mp moved
      rw [World.slot_finishCleaner invariant found]
      split
      · rename_i same
        subst same
        rw [settling cleaner found rfl]
        exact leads.ended
          (World.works_of_mem invariant (List.mem_of_getElem? found))
      · exact leads
  | overwriteCache cache => exact settling.elim
  | updatePV pv =>
      simp only [World.disturb] at moved
      split at moved
      · cases moved
      · split at moved
        · cases moved
          rw [World.slot_putPV, if_neg (Ne.symm settling)]
          exact leads
        · cases moved
  | removePV removed =>
      obtain ⟨pv, stored, rfl⟩ := Option.map_eq_some_iff.mp moved
      have named := ObjectStore.name_of_get stored
      rw [World.slot_dropPV]
      split
      · rename_i same
        have inSlot : (world.slot pvName).server = some pv := by
          rw [same, named]
          exact stored
        have marked := settling (by rw [same, named]) pv inSlot
        have gone : server = none := by
          rw [← leads.server, inSlot]
          simpa [unmarked] using marked
        rw [gone]
        exact leads.tell none (by rintro pv ⟨⟩)
      · exact leads
  | jobSucceeds jobName =>
      simp only [World.disturb] at moved
      split at moved
      · cases moved
      · split at moved
        · cases moved
          exact leads
        · cases moved
  | markJobDeleted jobName now =>
      obtain ⟨job, _, rfl⟩ := Option.map_eq_some_iff.mp moved
      exact leads
  | removeJob jobName =>
      obtain ⟨job, _, rfl⟩ := Option.map_eq_some_iff.mp moved
      exact leads
  | deliverPV =>
      simp only [World.disturb] at moved
      split at moved
      · cases moved
      · rename_i notice rest pending
        cases moved
        have slots :=
          World.slot_deliver pending
            (World.handlePVNotice runtime world.cache notice) pvName
        split at slots
        · rename_i same
          obtain ⟨coming, after⟩ := slots
          have owned :
              ∀ pv, notice.news = some pv → ownsPV runtime pv = true := by
            intro pv isNews
            refine leads.owned pv ?_
            rw [coming, isNews]
            exact List.mem_cons_self
          have shown :
              VolumeCache.getPV (World.handlePVNotice runtime world.cache notice)
                pvName = notice.news := by
            rw [same]
            exact World.getPV_handlePVNotice_of_owned world.cache owned
          rw [after, shown]
          exact leads.delivered coming
        · rename_i apart
          rw [slots,
            World.getPV_handlePVNotice_of_ne runtime world.cache apart]
          exact leads
  | deliverJob =>
      simp only [World.disturb] at moved
      split at moved
      · cases moved
      · cases moved
        exact leads

/-- What a volume has when it comes to rest. -/
theorem Settles.leads_of_atRest
    {runtime : RuntimeConfig}
    {performed : Except String Unit}
    {pvName : String}
    {server : Option PersistentVolume}
    {status : Option CleanupState}
    {world later : World}
    (settles : Settles runtime pvName performed world later)
    (invariant : TableInvariant world)
    (leads :
      Slot.Leads runtime performed (VolumeCache.getPV world.cache pvName)
        (world.slot pvName) server status) :
    (later.slot pvName).AtRest ∧
      (later.slot pvName).server = server ∧
      (later.slot pvName).status = status ∧
      VolumeCache.getPV later.cache pvName = server := by
  induction settles with
  | atRest atRest =>
      obtain ⟨isServer, latest, -, isStatus⟩ := leads
      have server := atRest.filter_unmarked.symm.trans isServer
      rw [atRest.told] at latest
      rw [atRest.idle] at isStatus
      exact ⟨atRest, server, isStatus, latest.trans server⟩
  | move settling moved _ inductionHypothesis =>
      have holds : TableAssertion .idle _ := ⟨invariant, trivial⟩
      exact inductionHypothesis (holds.disturbed moved).invariant
        (leads.settling invariant settling moved)

/-!
## The pass
-/

/-- A deletion pass that completes has listed the cache, and met no trap. -/
theorem exists_listed_of_completes
    {pass : DeletionPass}
    {calls : List (Answered syncSignature)}
    {later : World}
    (ran :
      (deletePVs pass.runtime).trace exec pass.oracle pass.world =
        (calls, .ok ((), later))) :
    ∃ listed,
      permuted (pass.oracle .listPVs).order
          (VolumeCache.listPVs pass.world.cache) = some listed ∧
        ∀ pv ∈ VolumeCache.listPVs pass.world.cache,
          ¬ Dereferenced pass.runtime pv := by
  cases inOrder :
      permuted (pass.oracle .listPVs).order
        (VolumeCache.listPVs pass.world.cache) with
  | none =>
      have stuck :
          exec .listPVs (pass.oracle .listPVs) pass.world = none := by
        simp only [exec, inOrder]
        rfl
      have unlisted :
          (deletePVs pass.runtime).trace exec pass.oracle pass.world =
            ([], .error .listPVs) :=
        Program.trace_call_of_none stuck
      rw [ran] at unlisted
      cases unlisted
  | some listed =>
      refine ⟨listed, rfl, ?_⟩
      intro pv cached dereferenced
      have taken :=
        @deletionPass_eq pass.world pass.runtime pass.oracle _ listed inOrder
      unfold deletionPass at taken
      rw [DeletionPass.ordered_self, ran, Prod.mk.injEq] at taken
      have completes := congrArg (fun result => result.isOk) taken.2.symm
      have listedPV := (perm_of_permuted inOrder).mem_iff.mpr cached
      rw [← DeletionPass.ordered_self pass.oracle] at completes
      obtain ⟨current, turn⟩ := exists_turn_of_completes listedPV completes
      rw [trace_reclaimPV_of_dereferenced dereferenced] at turn
      cases turn

/-- A discovery pass that completes creates PVs in free slots only. -/
theorem exists_offering_of_completes
    {pass : DiscoveryPass}
    {calls : List (Answered syncSignature)}
    {later : World}
    (ran :
      (discoverLocalVolumes pass.discoverer).trace exec pass.oracle pass.world =
        (calls, .ok ((), later))) :
    ∃ classes,
      pass.classes? = some classes ∧
        ∀ pvName,
          Slot.Offering (pass.Wanted classes pvName) (pass.world.slot pvName)
              (later.slot pvName) ∧
            (VolumeCache.getPV pass.world.cache pvName ≠ none →
              later.slot pvName = pass.world.slot pvName) := by
  cases ordered : pass.classes? with
  | none =>
      have stuck :
          exec (.rangeDiscoveryMap pass.discoverer.discoveryMap)
            (pass.oracle (.rangeDiscoveryMap pass.discoverer.discoveryMap))
            pass.world = none :=
        congrArg (Option.map fun listed => (listed, pass.world)) ordered
      have unlisted :
          (discoverLocalVolumes pass.discoverer).trace exec pass.oracle
              pass.world =
            ([], .error (.rangeDiscoveryMap pass.discoverer.discoveryMap)) :=
        Program.trace_call_of_none stuck
      rw [ran] at unlisted
      cases unlisted
  | some classes =>
      refine ⟨classes, rfl, fun pvName => ?_⟩
      have replied :
          exec (.rangeDiscoveryMap pass.discoverer.discoveryMap)
            (pass.oracle (.rangeDiscoveryMap pass.discoverer.discoveryMap))
            pass.world = some (classes, pass.world) :=
        congrArg (Option.map fun listed => (listed, pass.world)) ordered
      have ends :
          (discoverLocalVolumes pass.discoverer).Ends exec pass.oracle
              pass.world
            fun _ _ later =>
              Slot.Offering (pass.Wanted classes pvName)
                  (pass.world.slot pvName) (later.slot pvName) ∧
                (VolumeCache.getPV pass.world.cache pvName ≠ none →
                  later.slot pvName = pass.world.slot pvName) := by
        apply Program.Ends.call replied
        apply Program.Ends.bind
          (DiscoveryPass.ends_discoverClasses_offering classes true (.refl _)
            pvName)
        intro calls readyz later offered
        apply Program.Ends.call rfl
        exact .done offered
      exact ends.post_of_trace ran

namespace Round

variable {round : Round}

/-- The deletion half of the pass. -/
def deletion (round : Round) : DeletionPass where
  runtime := round.discoverer.toRuntimeConfig
  oracle := round.oracle
  world := round.before

/-- The discovery half of the pass. -/
def discovery (round : Round) (world : World) : DiscoveryPass where
  discoverer := round.discoverer
  oracle := round.oracle
  world

/-- What the two halves of the pass have done. -/
structure Halves (round : Round) (between middle : World) : Prop where
  turned :
    ∃ listed,
      listed.Perm (VolumeCache.listPVs round.before.cache) ∧
        round.deletion.Turned listed
          (round.before.record (.listedPVs listed)) between
  offered :
    ∃ classes,
      (round.discovery between).classes? = some classes ∧
        ∀ pvName,
          Slot.Offering ((round.discovery between).Wanted classes pvName)
              (between.slot pvName) (middle.slot pvName) ∧
            (VolumeCache.getPV between.cache pvName ≠ none →
              middle.slot pvName = between.slot pvName)
  sameCache : between.cache = round.before.cache
  laterCache : middle.cache = round.before.cache

/-- The pass is a deletion half and a discovery half. -/
theorem exists_halves
    {calls : List (Answered syncSignature)}
    {middle : World}
    (ran :
      (syncPass round.discoverer).trace exec round.oracle round.before =
        (calls, .ok ((), middle))) :
    ∃ between, round.Halves between middle := by
  have cached :
      ∀ {program : Routine Unit} {calls world later},
        program.trace exec round.oracle world = (calls, .ok ((), later)) →
        later.cache = world.cache := by
    intro program calls world later ran
    exact Program.kept_of_trace (fun current => current.cache = world.cache)
      (fun _ _ _ _ same executed => (cache_of_exec executed).trans same)
      rfl ran
  have inSequence :
      (syncPass round.discoverer).trace exec round.oracle round.before = _ :=
    Program.trace_bind (deletePVs round.discoverer.toRuntimeConfig)
      (fun _ => discoverLocalVolumes round.discoverer) round.before
  rw [ran] at inSequence
  split at inSequence
  · cases inSequence
  · rename_i calls value between first
    rw [Prod.mk.injEq] at inSequence
    obtain ⟨listed, inOrder, safe⟩ :=
      @exists_listed_of_completes round.deletion calls between first
    have completed :=
      (DeletionPass.ends_deletePVs inOrder safe).post_of_trace first
    exact ⟨between, {
      turned := ⟨listed, perm_of_permuted inOrder, completed.turned⟩
      offered :=
        @exists_offering_of_completes (round.discovery between) _ middle
          (Prod.ext rfl inSequence.2.symm)
      sameCache := cached first
      laterCache := cached ran
    }⟩

section Halves

variable {between middle : World}
variable {pvName : String}
variable {pv : PersistentVolume}

/-- No turn is about a name that is not cached. -/
theorem Halves.slot_of_uncached
    (halves : round.Halves between middle)
    (uncached : VolumeCache.getPV round.before.cache pvName = none) :
    between.slot pvName = round.before.slot pvName := by
  obtain ⟨listed, isPermutation, turned⟩ := halves.turned
  refine turned.slot_of_notMem ?_
  rintro pv member rfl
  have cached := ObjectStore.mem_list.mp (isPermutation.mem_iff.mp member)
  rw [VolumeCache.getPV, cached] at uncached
  cases uncached

/-- A cached PV has its turn, and discovery leaves it alone. -/
theorem Halves.exists_slot_of_cached
    (halves : round.Halves between middle)
    (cached : VolumeCache.getPV round.before.cache pv.name = some pv) :
    ∃ world,
      world.slot pv.name = round.before.slot pv.name ∧
        middle.slot pv.name =
          ((round.deletion.inWorld world).after pv).slot pv.name := by
  obtain ⟨listed, isPermutation, turned⟩ := halves.turned
  obtain ⟨classes, -, offered⟩ := halves.offered
  have different : (listed.map PersistentVolume.name).Nodup :=
    (isPermutation.map PersistentVolume.name).nodup_iff.mpr
      (ObjectStore.nodup_names round.before.cache)
  have member : pv ∈ listed :=
    isPermutation.mem_iff.mpr (ObjectStore.mem_list.mpr cached)
  obtain ⟨world, unchanged, after⟩ := turned.exists_slot different member
  refine ⟨world, unchanged, ((offered pv.name).2 ?_).trans after⟩
  rw [halves.sameCache, cached]
  rintro ⟨⟩

end Halves

end Round

/-- The request for a file is decided by the cache and by its own status. -/
theorem ClassPass.request?_of_same
    {pass : ClassPass}
    {later : World}
    {file : String}
    (inProcess : pass.discoverer.useJobForCleaning = false)
    (sameCache : later.cache = pass.world.cache)
    (sameStatus :
      later.procTable.status? (pass.pvName file) =
        pass.world.procTable.status? (pass.pvName file)) :
    (pass.inWorld later).request? file = pass.request? file := by
  have inTable : ∀ mode, pass.usejob mode = false := by
    intro mode
    simp [usejob, inProcess]
  have sameMode : (pass.inWorld later).mode? file = pass.mode? file := rfl
  have sameCapacity :
      (pass.inWorld later).capacity? file = pass.capacity? file := rfl
  have sameCached : (pass.inWorld later).cachedPV file = pass.cachedPV file :=
    congrArg (VolumeCache.getPV · (pass.pvName file)) sameCache
  have sameUse : (pass.inWorld later).pathInUse file = pass.pathInUse file :=
    congrArg
      (fun cache =>
        !(VolumeCache.lookupPVsByPath cache (pass.outsidePath file)).isEmpty)
      sameCache
  have sameCleaning :
      ∀ mode,
        (pass.inWorld later).cleaning file mode = pass.cleaning file mode := by
    intro mode
    have here : (pass.inWorld later).usejob mode = false := inTable mode
    simp only [cleaning, here, inTable mode, Bool.false_eq_true, if_false]
    rw [Bool.eq_iff_iff, ProcTable.isRunning_iff, ProcTable.isRunning_iff]
    exact iff_of_eq (congrArg (· = some CleanupState.running) sameStatus)
  have sameRemoval :
      ∀ mode,
        (pass.inWorld later).removes file mode = pass.removes file mode := by
    intro mode
    have here : (pass.inWorld later).usejob mode = false := inTable mode
    simp only [removes, here, inTable mode, Bool.false_eq_true, if_false]
    rw [ProcTable.isOk_removeEntry, ProcTable.isOk_removeEntry]
    exact congrArg (fun status => status.all CleanupState.hasEnded) sameStatus
  have sameVerdict : (pass.inWorld later).verdict file = pass.verdict file := by
    simp only [verdict, sameMode, sameCached, sameUse, sameCapacity,
      sameCleaning, sameRemoval]
  simp only [request?, sameVerdict]
  rfl

end LocalProvisioner
