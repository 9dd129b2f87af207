import LocalProvisioner.Discovery

namespace LocalProvisioner

/-!
# Rounding capacities

`roundDownCapacityPretty` on machine integers, with its loop over the units as
the source has it.  No quotient and no product of the loop leaves the range of
`int64`, so that the loop computes what the same steps on integers compute;
the laws of rounding are proved there and carried over.
-/

/-- `easyToReadUnitsBytes`: GiB and MiB. -/
def easyToReadUnitsBytes : List Int64 :=
  [1073741824, 1048576]

/-- The loop of `roundDownCapacityPretty` over the units that are left. -/
def roundDownToUnits (capacityBytes : Int64) : List Int64 → Int64
  | [] => capacityBytes
  | easyToReadUnitBytes :: rest =>
      let size := capacityBytes / easyToReadUnitBytes
      if size ≥ 10 then
        size * easyToReadUnitBytes
      else
        roundDownToUnits capacityBytes rest

/-- `roundDownCapacityPretty`, with the arithmetic of `int64`. -/
def roundDownCapacityPrettyInt64 (capacityBytes : Int64) : Int64 :=
  roundDownToUnits capacityBytes easyToReadUnitsBytes

/-- The integers of `int64`. -/
def InInt64 (value : Int) : Prop :=
  -9223372036854775808 ≤ value ∧ value ≤ 9223372036854775807

theorem inInt64_toInt (value : Int64) : InInt64 value.toInt := by
  have lower := value.le_toInt
  have upper := value.toInt_lt
  unfold InInt64
  omega

/-- A multiple of a unit between zero and a capacity. -/
theorem tdiv_mul_between {unit : Int} (positive : 0 < unit) (capacity : Int) :
    (0 ≤ capacity →
      0 ≤ capacity.tdiv unit * unit ∧ capacity.tdiv unit * unit ≤ capacity) ∧
    (capacity ≤ 0 →
      capacity ≤ capacity.tdiv unit * unit ∧
        capacity.tdiv unit * unit ≤ 0) := by
  have nonnegative :
      ∀ value : Int, 0 ≤ value →
        0 ≤ value.tdiv unit * unit ∧ value.tdiv unit * unit ≤ value := by
    intro value above
    rw [Int.tdiv_eq_ediv_of_nonneg above]
    have quotient := Int.ediv_nonneg above (Int.le_of_lt positive)
    exact ⟨Int.mul_nonneg quotient (Int.le_of_lt positive),
      Int.ediv_mul_le value (Int.ne_of_gt positive)⟩
  constructor
  · exact nonnegative capacity
  · intro below
    have mirrored := nonnegative (-capacity) (by omega)
    rw [Int.neg_tdiv, Int.neg_mul] at mirrored
    omega

/-- Quotients by units and their products with the units stay in range. -/
theorem toInt_div_mul
    (capacity : Int64)
    {unit : Int64}
    (positive : 0 < unit.toInt) :
    (capacity / unit).toInt = capacity.toInt.tdiv unit.toInt ∧
      (capacity / unit * unit).toInt =
        capacity.toInt.tdiv unit.toInt * unit.toInt ∧
      InInt64 (capacity.toInt.tdiv unit.toInt * unit.toInt) := by
  have quotient :
      (capacity / unit).toInt = capacity.toInt.tdiv unit.toInt := by
    apply Int64.toInt_div_of_ne_right
    rintro rfl
    revert positive
    decide
  have inRange : InInt64 (capacity.toInt.tdiv unit.toInt * unit.toInt) := by
    have between := tdiv_mul_between positive capacity.toInt
    have range := inInt64_toInt capacity
    unfold InInt64 at range ⊢
    omega
  refine ⟨quotient, ?_, inRange⟩
  unfold InInt64 at inRange
  rw [Int64.toInt_mul, quotient]
  apply Int.bmod_eq_of_le <;> omega

theorem toInt_pos_of_mem_easyToReadUnitsBytes
    {unit : Int64}
    (member : unit ∈ easyToReadUnitsBytes) :
    0 < unit.toInt := by
  simp only [easyToReadUnitsBytes, List.mem_cons, List.not_mem_nil, or_false]
    at member
  rcases member with rfl | rfl <;> decide

/-- The machine computes what the steps on integers compute. -/
theorem toInt_roundDownCapacityPrettyInt64 (capacity : Int64) :
    (roundDownCapacityPrettyInt64 capacity).toInt =
      roundDownCapacityPretty capacity.toInt := by
  have gib := @toInt_div_mul capacity 1073741824 (by decide)
  have mib := @toInt_div_mul capacity 1048576 (by decide)
  have gibibyte : (1073741824 : Int64).toInt = 1024 * 1024 * 1024 := by decide
  have mebibyte : (1048576 : Int64).toInt = 1024 * 1024 := by decide
  have ten : (10 : Int64).toInt = 10 := by decide
  rw [gibibyte] at gib
  rw [mebibyte] at mib
  simp only [roundDownCapacityPrettyInt64, easyToReadUnitsBytes,
    roundDownToUnits, roundDownCapacityPretty, ge_iff_le,
    Int64.le_iff_toInt_le, ten, gib.1, mib.1]
  split
  · exact gib.2.1
  · split
    · exact mib.2.1
    · rfl

/-- What `roundDownCapacityPretty` returns in its three ranges of capacities. -/
theorem roundDownCapacityPretty_cases (capacity : Int) :
    (10737418240 ≤ capacity ∧
        roundDownCapacityPretty capacity =
          capacity / 1073741824 * 1073741824) ∨
      (10485760 ≤ capacity ∧ capacity < 10737418240 ∧
        roundDownCapacityPretty capacity = capacity / 1048576 * 1048576) ∨
      (capacity < 10485760 ∧ roundDownCapacityPretty capacity = capacity) := by
  unfold roundDownCapacityPretty
  by_cases nonnegative : 0 ≤ capacity
  · simp only [Int.tdiv_eq_ediv_of_nonneg nonnegative]
    split
    · exact .inl ⟨by omega, by omega⟩
    · split
      · exact .inr (.inl ⟨by omega, by omega, by omega⟩)
      · exact .inr (.inr ⟨by omega, rfl⟩)
  · have gib := (@tdiv_mul_between (1024 * 1024 * 1024) (by decide) capacity).2
    have mib := (@tdiv_mul_between (1024 * 1024) (by decide) capacity).2
    rw [if_neg (by omega), if_neg (by omega)]
    exact .inr (.inr ⟨by omega, rfl⟩)

/-- Rounding never goes up. -/
theorem roundDownCapacityPretty_le (capacity : Int) :
    roundDownCapacityPretty capacity ≤ capacity := by
  rcases roundDownCapacityPretty_cases capacity with
    ⟨_, rounded⟩ | ⟨_, _, rounded⟩ | ⟨_, rounded⟩ <;> omega

/-- A larger capacity is not rounded to less. -/
theorem roundDownCapacityPretty_mono
    {capacity other : Int}
    (ordered : capacity ≤ other) :
    roundDownCapacityPretty capacity ≤ roundDownCapacityPretty other := by
  rcases roundDownCapacityPretty_cases capacity with
      ⟨_, rounded⟩ | ⟨_, _, rounded⟩ | ⟨_, rounded⟩ <;>
    rcases roundDownCapacityPretty_cases other with
      ⟨_, otherRounded⟩ | ⟨_, _, otherRounded⟩ | ⟨_, otherRounded⟩ <;>
    omega

/-- What has been rounded is not rounded further. -/
theorem roundDownCapacityPretty_idempotent (capacity : Int) :
    roundDownCapacityPretty (roundDownCapacityPretty capacity) =
      roundDownCapacityPretty capacity := by
  rcases roundDownCapacityPretty_cases capacity with
      ⟨_, rounded⟩ | ⟨_, _, rounded⟩ | ⟨_, rounded⟩ <;>
    rcases roundDownCapacityPretty_cases (roundDownCapacityPretty capacity) with
      ⟨_, again⟩ | ⟨_, _, again⟩ | ⟨_, again⟩ <;>
    omega

/-- Less than a tenth of what is kept gets lost. -/
theorem roundDownCapacityPretty_loss
    {capacity : Int}
    (nonnegative : 0 ≤ capacity) :
    10 * (capacity - roundDownCapacityPretty capacity) <
      roundDownCapacityPretty capacity + 1 := by
  rcases roundDownCapacityPretty_cases capacity with
    ⟨_, rounded⟩ | ⟨_, _, rounded⟩ | ⟨_, rounded⟩ <;> omega

/--
On machine integers, rounding goes down, keeps the order, is idempotent and
loses less than a tenth of what it keeps, and no product leaves the range.
-/
theorem roundDownCapacityPrettyInt64_laws (capacity other : Int64) :
    roundDownCapacityPrettyInt64 capacity ≤ capacity ∧
      (capacity ≤ other →
        roundDownCapacityPrettyInt64 capacity ≤
          roundDownCapacityPrettyInt64 other) ∧
      roundDownCapacityPrettyInt64 (roundDownCapacityPrettyInt64 capacity) =
        roundDownCapacityPrettyInt64 capacity ∧
      (0 ≤ capacity →
        10 * (capacity.toInt -
            (roundDownCapacityPrettyInt64 capacity).toInt) <
          (roundDownCapacityPrettyInt64 capacity).toInt + 1) ∧
      ∀ unit ∈ easyToReadUnitsBytes,
        InInt64 ((capacity / unit).toInt * unit.toInt) := by
  simp only [Int64.le_iff_toInt_le, ← Int64.toInt_inj,
    toInt_roundDownCapacityPrettyInt64]
  refine ⟨?_, ?_, ?_, ?_, ?_⟩
  · exact roundDownCapacityPretty_le _
  · exact roundDownCapacityPretty_mono
  · exact roundDownCapacityPretty_idempotent _
  · exact roundDownCapacityPretty_loss
  · intro unit member
    obtain ⟨quotient, _, inRange⟩ :=
      toInt_div_mul capacity (toInt_pos_of_mem_easyToReadUnitsBytes member)
    rwa [quotient]

/--
A PV that is created for a volume advertises the rounded capacity, which is
never more than the volume has.
-/
theorem capacity_of_mem_calls_createPV
    {discoverer : Discoverer}
    {candidate : Candidate}
    {mountOptions : List String}
    {capacityByte : Int64}
    {answer : (op : Op) → Option op.Reply}
    {pv : PersistentVolume}
    (created :
      .createPV pv ∈
        (createPV discoverer candidate mountOptions capacityByte.toInt).calls
          answer) :
    ∃ advertised : Int64,
      pv.capacity = some advertised.toInt ∧
        advertised = roundDownCapacityPrettyInt64 capacityByte ∧
          advertised.toInt ≤ capacityByte.toInt := by
  obtain ⟨affinityAnn, -, rfl⟩ := localPV_of_mem_calls_createPV created
  refine ⟨roundDownCapacityPrettyInt64 capacityByte, ?_, rfl, ?_⟩
  · rw [toInt_roundDownCapacityPrettyInt64]
    rfl
  · rw [toInt_roundDownCapacityPrettyInt64]
    exact roundDownCapacityPretty_le capacityByte.toInt

end LocalProvisioner
