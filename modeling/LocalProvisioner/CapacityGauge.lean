import LocalProvisioner.DiscoveryPass

namespace LocalProvisioner

open Interleaving

/-!
# The capacity gauge

`persistentvolume_capacity_bytes` has one gauge for each volume mode and none
for a class.  Each class sets both gauges to its own totals when its walk is
over, so that they hold the totals of the class which the iteration over the
discovery map has visited last.  A total is kept in 64 bits and published as a
floating point number, which changes sums from `2 ^ 53` on.
-/

/-- The modes with a gauge. -/
def gaugeModes : List VolumeMode :=
  [.block, .filesystem]

/-- The value that a report sets the gauge of a mode to, if it sets it. -/
def Report.gaugeOf (mode : VolumeMode) : Report → Option Int
  | .capacity reported bytes => if reported = mode then some bytes else none
  | _ => none

/-- The gauge of a mode; the newest report comes first. -/
def gauge (reports : List Report) (mode : VolumeMode) : Int :=
  (reports.findSome? (Report.gaugeOf mode)).getD 0

/-- The gauges after the end of a class. -/
theorem gauge_of_published
    {mode : VolumeMode}
    (known : mode ∈ gaugeModes)
    (total : VolumeMode → Int)
    (older : List Report) :
    gauge
        (.capacity .filesystem (total .filesystem) ::
          .capacity .block (total .block) :: older)
        mode =
      total mode := by
  have cases : mode = .block ∨ mode = .filesystem := by
    simpa [gaugeModes] using known
  rcases cases with rfl | rfl
  · rfl
  · rfl

/-- What is published of capacities that add up to a sum. -/
def published (bytes : Int) : Int :=
  float64 (Int64.ofInt bytes)

/-- Sums below the precision of `float64` are published as they are. -/
theorem published_of_natAbs_lt
    {bytes : Int}
    (small : bytes.natAbs < 2 ^ 53) :
    published bytes = bytes := by
  have kept : (Int64.ofInt bytes).toInt = bytes := by
    apply Int64.toInt_ofInt_of_le <;> omega
  rw [published, float64, kept, BinaryRounding.roundInt_of_natAbs_lt small]

namespace DiscoveryPass

/-- The capacities of some classes, added up. -/
def sumCapacities
    (pass : DiscoveryPass)
    (classes : List (String × MountConfig))
    (mode : VolumeMode) :
    Int :=
  (classes.map fun entry => (pass.ofClass entry).capacities mode).sum

/-- By how much the last class misses its own sum when it publishes it. -/
def conversionError
    (pass : DiscoveryPass)
    (classes : List (String × MountConfig))
    (mode : VolumeMode) :
    Int :=
  classes.getLast?.elim 0 fun entry =>
    published ((pass.ofClass entry).capacities mode) -
      (pass.ofClass entry).capacities mode

/--
After the pass, the gauge of each mode is the sum, over all classes, of the
capacities of the volumes of that mode for which the pass got to `createPV`.
-/
def GaugesExact (pass : DiscoveryPass) : Prop :=
  ∃ classes calls later,
    pass.classes? = some classes ∧
      pass.run = (calls, .ok ((), later)) ∧
      ∀ mode ∈ gaugeModes,
        gauge later.reports mode = pass.sumCapacities classes mode

section Gauges

variable {pass : DiscoveryPass}
variable {classes : List (String × MountConfig)}

/-- The gauges hold the sums of the last class, or what they held before. -/
theorem gauge_of_walked
    {requests : ClassPass.Requests}
    {later : World}
    (walked : pass.WalkedClasses classes pass.world requests later)
    (completes : ∀ entry ∈ classes, (pass.ofClass entry).completes = true)
    {mode : VolumeMode}
    (known : mode ∈ gaugeModes) :
    gauge later.reports mode + pass.sumCapacities classes.dropLast mode =
      (if classes = [] then gauge pass.world.reports mode else 0) +
        pass.sumCapacities classes mode + pass.conversionError classes mode := by
  rcases List.eq_nil_or_concat classes with rfl | ⟨earlier, entry, rfl⟩
  · rw [walked.unpublished rfl]
    simp [sumCapacities, conversionError]
  · rw [List.concat_eq_append] at walked completes ⊢
    obtain ⟨older, reported⟩ :=
      walked.published earlier entry rfl (completes entry (by simp))
    have shown :
        gauge later.reports mode =
          published ((pass.ofClass entry).capacities mode) := by
      rw [reported]
      exact gauge_of_published known
        (fun mode => float64 ((pass.ofClass entry).total mode)) older
    simp only [shown, sumCapacities, conversionError, List.dropLast_concat,
      List.map_append, List.map_singleton, List.sum_append, List.sum_singleton,
      List.append_eq_nil_iff, List.cons_ne_nil, and_false, if_false,
      List.getLast?_concat, Option.elim_some]
    omega

/-- Classes whose sums are below the precision of `float64` are published. -/
theorem conversionError_of_small
    {mode : VolumeMode}
    (small :
      ∀ entry ∈ classes, ((pass.ofClass entry).capacities mode).natAbs < 2 ^ 53) :
    pass.conversionError classes mode = 0 := by
  unfold conversionError
  cases last : classes.getLast? with
  | none => rfl
  | some entry =>
      have member := List.mem_of_getLast? last
      rw [Option.elim_some, published_of_natAbs_lt (small entry member),
        Int.sub_self]

end Gauges

end DiscoveryPass

/--
The gauges are exact just if the volumes of all classes but the one visited
last add up to what is lost when the last class publishes its own sum.  That is
nothing as long as the sums are below `2 ^ 53`.
-/
theorem gaugesExact_iff
    {pass : DiscoveryPass}
    {classes : List (String × MountConfig)}
    (ordered : pass.classes? = some classes)
    (completes : ∀ entry ∈ classes, (pass.ofClass entry).completes = true) :
    (pass.GaugesExact ↔
      ∀ mode ∈ gaugeModes,
        pass.sumCapacities classes.dropLast mode =
            pass.conversionError classes mode ∧
          (classes = [] → gauge pass.world.reports mode = 0)) ∧
      ∀ mode ∈ gaugeModes,
        (∀ entry ∈ classes,
          ((pass.ofClass entry).capacities mode).natAbs < 2 ^ 53) →
        pass.conversionError classes mode = 0 := by
  have compare :
      ∀ {requests later},
        pass.WalkedClasses classes pass.world requests later →
        ∀ mode ∈ gaugeModes,
          gauge later.reports mode = pass.sumCapacities classes mode ↔
            pass.sumCapacities classes.dropLast mode =
                pass.conversionError classes mode ∧
              (classes = [] → gauge pass.world.reports mode = 0) := by
    intro _ later walked mode known
    have balance := DiscoveryPass.gauge_of_walked walked completes known
    by_cases none : classes = []
    · subst none
      have same :
          gauge later.reports mode = gauge pass.world.reports mode := by
        simpa [DiscoveryPass.sumCapacities,
          DiscoveryPass.conversionError] using balance
      simp [DiscoveryPass.sumCapacities, DiscoveryPass.conversionError, same]
    · simp only [none, if_false, false_implies, and_true] at balance ⊢
      omega
  refine ⟨⟨?_, ?_⟩, fun _ _ => DiscoveryPass.conversionError_of_small⟩
  · rintro ⟨_, calls, later, orderedToo, ran, exact⟩ mode known
    rw [ordered] at orderedToo
    cases orderedToo
    have walked :=
      (DiscoveryPass.ends_discoverLocalVolumes ordered).post_of_trace ran
    exact (compare walked mode known).mp (exact mode known)
  · intro balanced
    obtain ⟨calls, result, later, traced, walked⟩ :=
      DiscoveryPass.ends_discoverLocalVolumes ordered
    refine ⟨classes, calls, later, ordered, traced, ?_⟩
    intro mode known
    exact (compare walked mode known).mpr (balanced mode known)

/-- With the volume in the last class, the gauges are exact. -/
theorem gaugesExact_of_volume_last : (sampleTwoClassPass [1, 0]).GaugesExact := by
  have ordered :
      (sampleTwoClassPass [1, 0]).classes? = some sampleTwoClasses.reverse := by
    rfl
  have completes :
      ∀ entry ∈ sampleTwoClasses.reverse,
        ((sampleTwoClassPass [1, 0]).ofClass entry).completes = true := by
    decide +kernel
  apply (gaugesExact_iff ordered completes).1.mpr
  decide +kernel

/-- With the volume in the first class, the gauge forgets it. -/
theorem gauge_forgets_first_class :
    ¬ (sampleTwoClassPass [0, 1]).GaugesExact := by
  rintro ⟨classes, calls, later, ordered, ran, exact⟩
  have walked :=
    (DiscoveryPass.ends_discoverLocalVolumes ordered).post_of_trace ran
  have inOrder :
      (sampleTwoClassPass [0, 1]).classes? = some sampleTwoClasses := by
    rfl
  rw [ordered] at inOrder
  cases inOrder
  have completes :
      ∀ entry ∈ sampleTwoClasses,
        ((sampleTwoClassPass [0, 1]).ofClass entry).completes = true := by
    decide +kernel
  have known : VolumeMode.filesystem ∈ gaugeModes := by
    decide
  have balance := DiscoveryPass.gauge_of_walked walked completes known
  rw [exact .filesystem known] at balance
  have first :
      (sampleTwoClassPass [0, 1]).sumCapacities sampleTwoClasses.dropLast
          .filesystem = 1000 ∧
        (sampleTwoClassPass [0, 1]).conversionError sampleTwoClasses
          .filesystem = 0 := by
    decide +kernel
  rw [first.1, first.2, if_neg (by simp [sampleTwoClasses])] at balance
  omega

end LocalProvisioner
