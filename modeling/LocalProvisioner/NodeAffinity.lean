import LocalProvisioner.Objects
import Mathlib.Data.Finset.Sort
import Mathlib.Data.String.Basic

namespace LocalProvisioner

/-!
# Node affinities

What a required node affinity means to Kubernetes, and which node names the
node-cleanup components read from it.  Terms are ORed, the match expressions
of a term are ANDed, and an empty term matches nothing.  Field selectors of
terms are left out: no modelled function reads them.
-/

/-- Decimal digits as a number; `none` without digits or for another character. -/
def parseDigits (digits : List Char) : Option Nat :=
  if digits ≠ [] ∧ digits.all Char.isDigit then
    some (digits.foldl (fun value digit => 10 * value + (digit.toNat - 48)) 0)
  else
    none

/-- `strconv.ParseInt(text, 10, 64)`. -/
def parseInt64 (text : String) : Option Int :=
  let parsed : Option Int :=
    match text.toList with
    | '-' :: digits => (parseDigits digits).map fun value => -(value : Int)
    | '+' :: digits => (parseDigits digits).map fun value => (value : Int)
    | digits => (parseDigits digits).map fun value => (value : Int)
  parsed.filter fun value =>
    decide (-9223372036854775808 ≤ value ∧ value ≤ 9223372036854775807)

/-- `Requirement.Matches` of a match expression on node labels. -/
def NodeSelectorRequirement.matchesLabels
    (requirement : NodeSelectorRequirement)
    (labels : GoMap String) :
    Bool :=
  let value := labels.lookup requirement.key
  let compares (related : Int → Int → Bool) : Bool :=
    match value.bind parseInt64, requirement.values.map parseInt64 with
    | some left, [some right] => related left right
    | _, _ => false
  match requirement.operator with
  | .opIn => value.any fun text => decide (text ∈ requirement.values)
  | .opNotIn => value.all fun text => decide (text ∉ requirement.values)
  | .opExists => value.isSome
  | .opDoesNotExist => value.isNone
  | .opGt => compares fun left right => decide (left > right)
  | .opLt => compares fun left right => decide (left < right)

/-- A term matches if it is not empty and all of its expressions do. -/
def NodeSelectorTerm.matchesLabels
    (term : NodeSelectorTerm)
    (labels : GoMap String) :
    Bool :=
  !term.matchExpressions.isEmpty &&
    term.matchExpressions.all fun expression => expression.matchesLabels labels

/-- A selector matches if one of its terms does. -/
def NodeSelector.matchesLabels
    (selector : NodeSelector)
    (labels : GoMap String) :
    Bool :=
  selector.nodeSelectorTerms.any fun term => term.matchesLabels labels

/-- `spec.nodeAffinity.required`. -/
def PersistentVolume.requiredAffinity
    (pv : PersistentVolume) : Option NodeSelector :=
  pv.nodeAffinity.bind VolumeNodeAffinity.required

/-- Does a node satisfy the required affinity of a PV? -/
def Node.serves (node : Node) (pv : PersistentVolume) : Bool :=
  pv.requiredAffinity.all fun selector => selector.matchesLabels node.labels

/-- A match expression from which node names are read. -/
def NodeSelectorRequirement.namesHosts
    (requirement : NodeSelectorRequirement) : Bool :=
  decide (requirement.key = hostnameLabel) &&
    decide (requirement.operator = .opIn)

/-- A term that names no node. -/
def NodeSelectorTerm.namesNoHost (term : NodeSelectorTerm) : Bool :=
  term.matchExpressions.all fun expression => !expression.namesHosts

/-- The next round of the loop over the match expressions of a term. -/
def narrowHosts
    (nodes : Option (Finset String))
    (matchExpr : NodeSelectorRequirement) :
    Option (Finset String) :=
  if matchExpr.namesHosts then
    match nodes with
    | none => some matchExpr.values.toFinset
    | some nodes => some (nodes ∩ matchExpr.values.toFinset)
  else
    nodes

/-- The set of node names read from one term; `none` is the nil set. -/
def NodeSelectorTerm.hosts (term : NodeSelectorTerm) : Option (Finset String) :=
  term.matchExpressions.foldl narrowHosts none

/-- The next round of the loop over the terms. -/
def addHosts (result : Finset String) (term : NodeSelectorTerm) :
    Finset String :=
  result ∪ term.hosts.getD ∅

/-- `GetLocalPersistentVolumeNodeNames`; `sets.List` never returns nil. -/
def getLocalPersistentVolumeNodeNames
    (pv : PersistentVolume) : Option (List String) :=
  pv.requiredAffinity.map fun selector =>
    (selector.nodeSelectorTerms.foldl addHosts ∅).sort

/-- The names that are left after a loop over match expressions. -/
theorem mem_foldl_narrowHosts
    (expressions : List NodeSelectorRequirement)
    (nodes : Option (Finset String))
    (name : String) :
    name ∈ (expressions.foldl narrowHosts nodes).getD ∅ ↔
      (nodes.isSome = true ∨
        ∃ expression ∈ expressions, expression.namesHosts = true) ∧
      (∀ earlier ∈ nodes, name ∈ earlier) ∧
      ∀ expression ∈ expressions,
        expression.namesHosts = true → name ∈ expression.values := by
  induction expressions generalizing nodes with
  | nil =>
      cases nodes <;> simp
  | cons expression rest inductionHypothesis =>
      rw [List.foldl_cons, inductionHypothesis]
      by_cases named : expression.namesHosts = true
      · cases nodes with
        | none => simp [narrowHosts, named]
        | some earlier =>
            simp [narrowHosts, named, and_assoc]
      · simp [narrowHosts, named]

/-- The names read from a term are those all its hostname expressions allow. -/
theorem mem_hosts {term : NodeSelectorTerm} {name : String} :
    name ∈ term.hosts.getD ∅ ↔
      (∃ expression ∈ term.matchExpressions,
        expression.namesHosts = true) ∧
      ∀ expression ∈ term.matchExpressions,
        expression.namesHosts = true → name ∈ expression.values := by
  rw [NodeSelectorTerm.hosts, mem_foldl_narrowHosts]
  simp

/-- The union over a list of terms. -/
theorem mem_foldl_addHosts
    (terms : List NodeSelectorTerm)
    (result : Finset String)
    (name : String) :
    name ∈ terms.foldl addHosts result ↔
      name ∈ result ∨ ∃ term ∈ terms, name ∈ term.hosts.getD ∅ := by
  induction terms generalizing result with
  | nil => simp
  | cons term rest inductionHypothesis =>
      rw [List.foldl_cons, inductionHypothesis]
      simp [addHosts, or_assoc]

/-- The node names of a PV are those read from one of its terms. -/
theorem mem_getLocalPersistentVolumeNodeNames
    {pv : PersistentVolume}
    {selector : NodeSelector}
    (required : pv.requiredAffinity = some selector)
    {nodeNames : List String}
    (read : getLocalPersistentVolumeNodeNames pv = some nodeNames)
    (name : String) :
    name ∈ nodeNames ↔
      ∃ term ∈ selector.nodeSelectorTerms, name ∈ term.hosts.getD ∅ := by
  rw [getLocalPersistentVolumeNodeNames, required] at read
  cases read
  rw [Finset.mem_sort, mem_foldl_addHosts]
  simp

/-- A node that matches a term with a hostname expression is named by it. -/
theorem hostname_of_matchesLabels
    {term : NodeSelectorTerm}
    {labels : GoMap String}
    (matched : term.matchesLabels labels = true)
    (named :
      ∃ expression ∈ term.matchExpressions,
        expression.namesHosts = true) :
    ∃ hostname,
      labels.lookup hostnameLabel = some hostname ∧
        hostname ∈ term.hosts.getD ∅ := by
  simp only [NodeSelectorTerm.matchesLabels, Bool.and_eq_true,
    List.all_eq_true] at matched
  have allowed :
      ∀ expression ∈ term.matchExpressions,
        expression.namesHosts = true →
        ∃ hostname,
          labels.lookup hostnameLabel = some hostname ∧
            hostname ∈ expression.values := by
    rintro ⟨key, operator, values⟩ member names
    have holds := matched.2 _ member
    simp only [NodeSelectorRequirement.namesHosts, Bool.and_eq_true,
      decide_eq_true_eq] at names
    obtain ⟨rfl, rfl⟩ := names
    simpa [NodeSelectorRequirement.matchesLabels,
      Option.any_eq_true] using holds
  obtain ⟨expression, member, names⟩ := named
  obtain ⟨hostname, labelled, _⟩ := allowed expression member names
  refine ⟨hostname, labelled, mem_hosts.mpr ⟨⟨expression, member, names⟩, ?_⟩⟩
  intro other otherMember otherNames
  obtain ⟨_, otherLabelled, inValues⟩ := allowed other otherMember otherNames
  rw [labelled] at otherLabelled
  cases otherLabelled
  exact inValues

/-!
## The node names of a PV as a set

What `GetLocalPersistentVolumeNodeNames` returns depends on the set of names
that the terms allow, and on nothing else: neither on the order in which the
affinity is written down nor on repetitions.
-/

/-- Does a term name a host: does it have hostname expressions, and do all allow it? -/
def NodeSelectorTerm.NamesHost
    (term : NodeSelectorTerm)
    (name : String) : Prop :=
  (∃ expression ∈ term.matchExpressions,
    expression.key = hostnameLabel ∧ expression.operator = .opIn) ∧
  ∀ expression ∈ term.matchExpressions,
    expression.key = hostnameLabel →
    expression.operator = .opIn →
    name ∈ expression.values

/-- The loop over the match expressions of a term finds the hosts it names. -/
theorem mem_hosts_iff_namesHost
    {term : NodeSelectorTerm}
    {name : String} :
    name ∈ term.hosts.getD ∅ ↔ term.NamesHost name := by
  rw [mem_hosts]
  simp only [NodeSelectorRequirement.namesHosts, Bool.and_eq_true,
    decide_eq_true_eq, and_imp, NodeSelectorTerm.NamesHost]

/-- A list in another order, with related elements in place of its own. -/
def Reordered
    {Element : Type}
    (related : Element → Element → Prop)
    (first second : List Element) : Prop :=
  ∃ middle, first.Perm middle ∧ List.Forall₂ related middle second

namespace Reordered

variable {Element : Type}
variable {related : Element → Element → Prop}
variable {first second : List Element}

/-- Every element has one it is related to, in both directions. -/
theorem mem_related (reordered : Reordered related first second) :
    (∀ left ∈ first, ∃ right ∈ second, related left right) ∧
      ∀ right ∈ second, ∃ left ∈ first, related left right := by
  obtain ⟨middle, permuted, pairs⟩ := reordered
  simp only [permuted.mem_iff]
  clear permuted
  induction pairs with
  | nil => simp
  | @cons left right lefts rights pair _ inductionHypothesis =>
      obtain ⟨forward, backward⟩ := inductionHypothesis
      constructor
      · intro element member
        rcases List.mem_cons.mp member with rfl | later
        · exact ⟨right, by simp, pair⟩
        · obtain ⟨other, otherMember, otherPair⟩ := forward element later
          exact ⟨other, by simp [otherMember], otherPair⟩
      · intro element member
        rcases List.mem_cons.mp member with rfl | later
        · exact ⟨left, by simp, pair⟩
        · obtain ⟨other, otherMember, otherPair⟩ := backward element later
          exact ⟨other, by simp [otherMember], otherPair⟩

/-- What related elements agree on holds of some element of both or of none. -/
theorem exists_iff
    (reordered : Reordered related first second)
    {holds : Element → Prop}
    (agree : ∀ left right, related left right → (holds left ↔ holds right)) :
    (∃ element ∈ first, holds element) ↔ ∃ element ∈ second, holds element := by
  obtain ⟨forward, backward⟩ := reordered.mem_related
  constructor
  · rintro ⟨left, member, holdsLeft⟩
    obtain ⟨right, rightMember, pair⟩ := forward left member
    exact ⟨right, rightMember, (agree left right pair).mp holdsLeft⟩
  · rintro ⟨right, member, holdsRight⟩
    obtain ⟨left, leftMember, pair⟩ := backward right member
    exact ⟨left, leftMember, (agree left right pair).mpr holdsRight⟩

/-- What related elements agree on holds of all elements of both or of neither. -/
theorem forall_iff
    (reordered : Reordered related first second)
    {holds : Element → Prop}
    (agree : ∀ left right, related left right → (holds left ↔ holds right)) :
    (∀ element ∈ first, holds element) ↔ ∀ element ∈ second, holds element := by
  have complement :=
    reordered.exists_iff fun left right pair => not_congr (agree left right pair)
  rw [← not_iff_not]
  simpa only [not_forall, exists_prop] using complement

end Reordered

/-- The same match expression, with its values in another order. -/
structure NodeSelectorRequirement.SameUpToOrder
    (first second : NodeSelectorRequirement) : Prop where
  key : first.key = second.key
  operator : first.operator = second.operator
  values : first.values.Perm second.values

/-- The same term, with its expressions and their values in another order. -/
def NodeSelectorTerm.SameUpToOrder (first second : NodeSelectorTerm) : Prop :=
  Reordered NodeSelectorRequirement.SameUpToOrder
    first.matchExpressions second.matchExpressions

/-- The same selector, with terms, expressions and values in another order. -/
def NodeSelector.SameUpToOrder (first second : NodeSelector) : Prop :=
  Reordered NodeSelectorTerm.SameUpToOrder
    first.nodeSelectorTerms second.nodeSelectorTerms

/-- The order of expressions and values does not change the hosts of a term. -/
theorem NodeSelectorTerm.SameUpToOrder.namesHost_iff
    {first second : NodeSelectorTerm}
    (same : first.SameUpToOrder second)
    (name : String) :
    first.NamesHost name ↔ second.NamesHost name := by
  apply and_congr
  · apply Reordered.exists_iff same
    intro left right pair
    rw [pair.key, pair.operator]
  · apply Reordered.forall_iff same
    intro left right pair
    rw [pair.key, pair.operator, pair.values.mem_iff]

/--
The node names of a PV with a required affinity are strictly increasing, and
are the names of hosts that one of its terms names. They are the same for
every other order of terms, expressions and values.
-/
theorem getLocalPersistentVolumeNodeNames_spec
    {pv : PersistentVolume}
    {selector : NodeSelector}
    (required : pv.requiredAffinity = some selector) :
    ∃ nodeNames,
      getLocalPersistentVolumeNodeNames pv = some nodeNames ∧
        nodeNames.Pairwise (· < ·) ∧
        (∀ name,
          name ∈ nodeNames ↔
            ∃ term ∈ selector.nodeSelectorTerms, term.NamesHost name) ∧
        ∀ (other : PersistentVolume) (otherSelector : NodeSelector),
          other.requiredAffinity = some otherSelector →
          selector.SameUpToOrder otherSelector →
          getLocalPersistentVolumeNodeNames other = some nodeNames := by
  have members :
      ∀ (terms : List NodeSelectorTerm) (name : String),
        name ∈ terms.foldl addHosts ∅ ↔
          ∃ term ∈ terms, term.NamesHost name := by
    intro terms name
    simp [mem_foldl_addHosts, mem_hosts_iff_namesHost]
  refine ⟨(selector.nodeSelectorTerms.foldl addHosts ∅).sort, ?_, ?_, ?_, ?_⟩
  · rw [getLocalPersistentVolumeNodeNames, required]
    rfl
  · exact (Finset.sortedLT_sort _).pairwise
  · intro name
    rw [Finset.mem_sort, members]
  · intro other otherSelector otherRequired same
    have sameNames :
        otherSelector.nodeSelectorTerms.foldl addHosts ∅ =
          selector.nodeSelectorTerms.foldl addHosts ∅ := by
      ext name
      rw [members, members]
      exact (Reordered.exists_iff same fun _ _ pair =>
        pair.namesHost_iff name).symm
    rw [getLocalPersistentVolumeNodeNames, otherRequired, Option.map_some,
      sameNames]

/-- A PV with a required affinity. -/
def sampleAffinityPV (terms : List NodeSelectorTerm) : PersistentVolume :=
  { samplePV with
    nodeAffinity := some { required := some { nodeSelectorTerms := terms } } }

/-- An expression that allows hosts. -/
def sampleHosts (values : List String) : NodeSelectorRequirement where
  key := hostnameLabel
  operator := .opIn
  values := values

/-- Two expressions that share a host, and a second term, in two orders. -/
theorem getLocalPersistentVolumeNodeNames_of_sampleHosts :
    ∃ nodeNames,
      getLocalPersistentVolumeNodeNames
          (sampleAffinityPV [
            { matchExpressions := [sampleHosts ["b", "a"], sampleHosts ["b"]] },
            { matchExpressions := [sampleHosts ["c"]] }]) = some nodeNames ∧
        nodeNames.Pairwise (· < ·) ∧
        "b" ∈ nodeNames ∧
        "a" ∉ nodeNames ∧
        getLocalPersistentVolumeNodeNames
          (sampleAffinityPV [
            { matchExpressions := [sampleHosts ["c"]] },
            { matchExpressions := [sampleHosts ["b"], sampleHosts ["a", "b"]] }
            ]) = some nodeNames := by
  obtain ⟨nodeNames, read, increasing, members, sameNames⟩ :=
    @getLocalPersistentVolumeNodeNames_spec
      (sampleAffinityPV [
        { matchExpressions := [sampleHosts ["b", "a"], sampleHosts ["b"]] },
        { matchExpressions := [sampleHosts ["c"]] }]) _ rfl
  refine ⟨nodeNames, read, increasing, ?_, ?_, ?_⟩
  · rw [members]
    simp [NodeSelectorTerm.NamesHost, sampleHosts]
  · rw [members]
    simp [NodeSelectorTerm.NamesHost, sampleHosts]
  · apply sameNames _ _ rfl
    have sameExpression :
        NodeSelectorRequirement.SameUpToOrder (sampleHosts ["b", "a"])
          (sampleHosts ["a", "b"]) :=
      ⟨rfl, rfl, .swap _ _ _⟩
    have sameTerm :
        NodeSelectorTerm.SameUpToOrder
          { matchExpressions := [sampleHosts ["b", "a"], sampleHosts ["b"]] }
          { matchExpressions := [sampleHosts ["b"], sampleHosts ["a", "b"]] } :=
      ⟨_, .swap _ _ _,
        .cons ⟨rfl, rfl, .refl _⟩ (.cons sameExpression .nil)⟩
    exact ⟨_, .swap _ _ _,
      .cons ⟨_, .refl _, .cons ⟨rfl, rfl, .refl _⟩ .nil⟩
        (.cons sameTerm .nil)⟩

end LocalProvisioner
