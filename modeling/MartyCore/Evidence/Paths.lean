import MartyCore.Evidence.Model

/-!
# `Evidence.Paths` — what a pass rule reads

A pass rule follows paths into a fact. A key that is missing from an object ends the walk with nothing, and so does
a part that is no index; an index past the end of an array ends the process, because the source takes the element
out with `Vec::remove`. Which of the two happens depends on the fact and on how far the rule is evaluated: `all`
stops at the first condition that fails and `any` at the first that holds.

`Reading` says both things about a condition at once: whether its evaluation gets to an index past the end, and
what it comes to if it does not. `conditionReading` and `factReading` compute the reading without running the
source's code, and `pathConditionSatisfied_reads` and `factSatisfiesRequirement_reads` say that the code does
exactly that.
-/

namespace MartyCore.Evidence

open Exec

variable {N : Type} (platform : Platform N)

/-! ## Walks -/

/-- The value the path leads to, if it leads anywhere. -/
def valueAt : Json N → List Str → Option (Json N)
  | current, [] => some current
  | .obj members, part :: rest => (members.lookup part).bind (fun value => valueAt value rest)
  | .arr values, part :: rest =>
    ((parseUsize part).bind (fun index => values[index]?)).bind (fun value => valueAt value rest)
  | _, _ :: _ => none

/-- The walk comes to an array with an index that is not in it. -/
def indexesPastEnd : Json N → List Str → Bool
  | _, [] => false
  | .obj members, part :: rest => (members.lookup part).any (fun value => indexesPastEnd value rest)
  | .arr values, part :: rest =>
    (parseUsize part).any (fun index => (values[index]?).elim true (fun value => indexesPastEnd value rest))
  | _, _ :: _ => false

/-- **A walk panics exactly when it indexes an array past its end.** -/
theorem pathSteps_returns (current : Json N) (parts : List Str) :
    Exec.ReturnsUnless (indexesPastEnd current parts) (valueAt current parts) (pathSteps current parts) := by
  induction parts generalizing current with
  | nil => cases current <;> exact returnsUnless_ok _
  | cons part rest ih =>
    cases current with
    | obj members =>
      simp only [indexesPastEnd, valueAt, pathSteps]
      cases members.lookup part with
      | none => exact returnsUnless_ok _
      | some value => exact ih value
    | arr values =>
      simp only [indexesPastEnd, valueAt, pathSteps]
      cases parseUsize part with
      | none => exact returnsUnless_ok _
      | some index =>
        simp only [Option.any_some, Option.bind_some]
        cases values[index]? with
        | none => exact returnsUnless_panic _ _
        | some value => exact ih value
    | null | bool _ | num _ | str _ => exact returnsUnless_ok _

/-! ## Readings -/

/-- What the evaluation of a condition comes to. -/
structure Reading where
  /-- It gets to an index past the end of an array. -/
  pastEnd : Bool
  /-- Otherwise, whether the condition holds. -/
  holds : Bool

namespace Reading

/-- A condition that reads nothing. -/
def const (b : Bool) : Reading := ⟨false, b⟩

/-- `r && s`: `s` is only read where `r` holds. -/
def and (r s : Reading) : Reading := ⟨r.pastEnd || (r.holds && s.pastEnd), r.holds && s.holds⟩

/-- `r || s`: `s` is only read where `r` fails. -/
def or (r s : Reading) : Reading := ⟨r.pastEnd || (!r.holds && s.pastEnd), r.holds || s.holds⟩

def not (r : Reading) : Reading := ⟨r.pastEnd, !r.holds⟩

end Reading

/-- The call comes to the reading. -/
def Reads (r : Reading) (x : Exec Str Bool) : Prop := Exec.ReturnsUnless r.pastEnd r.holds x

theorem reads_const (b : Bool) : Reads (.const b) (.ok b) := returnsUnless_ok b

theorem Reads.and {r s : Reading} {x y : Exec Str Bool} (hx : Reads r x) (hy : Reads s y) :
    Reads (r.and s) (x >>= fun b => if b then y else return false) := by
  obtain ⟨pastEnd, holds⟩ := r
  refine Exec.ReturnsUnless.bind hx ?_
  cases holds with
  | true => exact hy
  | false => exact returnsUnless_ok false

theorem Reads.or {r s : Reading} {x y : Exec Str Bool} (hx : Reads r x) (hy : Reads s y) :
    Reads (r.or s) (x >>= fun b => if b then return true else y) := by
  obtain ⟨pastEnd, holds⟩ := r
  refine Exec.ReturnsUnless.bind hx ?_
  cases holds with
  | true => exact returnsUnless_ok true
  | false => exact hy

theorem Reads.not {r : Reading} {x : Exec Str Bool} (hx : Reads r x) : Reads r.not (x.map (fun b => !b)) := by
  obtain ⟨pastEnd, holds⟩ := r
  cases pastEnd with
  | true =>
    obtain ⟨message, rfl⟩ := hx
    exact returnsUnless_panic _ message
  | false =>
    have hok : x = .ok holds := hx
    rw [hok]
    exact returnsUnless_ok _

/-! ## Conditions -/

/-- The parts of a path, where it has any. -/
def pathParts (path : Str) : Option (List Str) :=
  let path := stripRoot path.trim
  if path = [] then none else some ((path.splitOn '.').filter (fun part => part ≠ []))

theorem pathValueOwned_returns (current : Json N) (path : Str) :
    Exec.ReturnsUnless ((pathParts path).any (indexesPastEnd current)) ((pathParts path).bind (valueAt current))
      (pathValueOwned current path) := by
  unfold pathParts pathValueOwned
  by_cases hempty : stripRoot path.trim = []
  · simp only [hempty, if_true]
    exact returnsUnless_ok none
  · simp only [hempty, if_false]
    exact pathSteps_returns _ _

variable (fact : EvidenceFact N)

/-- Where the walk for a normalized path starts. -/
def pathRoot (normalized : Str) : Json N :=
  if ["assertion.".toList, "scope.".toList, "verification.".toList, "source.".toList,
      "$.".toList].any (fun start => start.isPrefixOf normalized) then
    .obj [("assertion".toList, .obj fact.assertion), ("scope".toList, .obj fact.scope),
      ("verification".toList, .obj fact.verification), ("source".toList, .obj fact.source),
      ("provider".toList, .str fact.provider), ("fact_type".toList, .str fact.factType),
      ("subject_id".toList, .str fact.subjectId)]
  else .obj fact.assertion

/-- A path, an operator and a value. -/
def operatorReading (condition : Members N) : Reading :=
  match (condition.lookup "path".toList).bind asStr with
  | none => .const false
  | some path =>
    if path = [] then .const false
    else
      let root := pathRoot fact path.trim
      let parts := pathParts path.trim
      let operator := (((condition.lookup "op".toList).or (condition.lookup "operator".toList)).bind asStr).getD
        (if (condition.lookup "value".toList).isSome then "eq".toList else "exists".toList)
      ⟨parts.any (indexesPastEnd root),
       operatorHolds platform (platform.toLowercase operator) (parts.bind (valueAt root))
        ((condition.lookup "value".toList).getD .null)⟩

theorem pathOperator_reads (condition : Members N) :
    Reads (operatorReading platform fact condition) (pathOperator platform fact condition) := by
  unfold operatorReading pathOperator
  cases (condition.lookup "path".toList).bind asStr with
  | none => exact reads_const false
  | some path =>
    by_cases hempty : path = []
    · simp only [hempty, if_true]
      exact reads_const false
    · simp only [hempty, if_false]
      exact (pathValueOwned_returns (pathRoot fact path.trim) path.trim).bind_ok _

mutual

def conditionReading (fact : EvidenceFact N) : Json N → Reading
  | .obj condition =>
    (((combinedReading fact .all condition).or (combinedReading fact .any condition)).or
      (combinedReading fact .not condition)).getD (operatorReading platform fact condition)
  | .null => .const false
  | .bool b => .const b
  | .num n => .const (truthy platform (.num n))
  | .str s => .const (truthy platform (.str s))
  | .arr values => .const (truthy platform (.arr values))

def combinedReading (fact : EvidenceFact N) (combinator : Combinator) : Members N → Option Reading
  | [] => none
  | (key, value) :: rest =>
    if key = combinator.name then
      some (match combinator with
        | .all => allReading fact value
        | .any => anyReading fact value
        | .not => (conditionReading fact value).not)
    else combinedReading fact combinator rest

def allReading (fact : EvidenceFact N) : Json N → Reading
  | .arr items => allItemsReading fact items
  | _ => .const false

def anyReading (fact : EvidenceFact N) : Json N → Reading
  | .arr items => anyItemReading fact items
  | _ => .const false

def allItemsReading (fact : EvidenceFact N) : List (Json N) → Reading
  | [] => .const true
  | item :: rest => (conditionReading fact item).and (allItemsReading fact rest)

def anyItemReading (fact : EvidenceFact N) : List (Json N) → Reading
  | [] => .const false
  | item :: rest => (conditionReading fact item).or (anyItemReading fact rest)

end

mutual

/-- **The evaluation of a condition comes to its reading.** -/
theorem pathConditionSatisfied_reads :
    ∀ condition : Json N,
      Reads (conditionReading platform fact condition) (pathConditionSatisfied platform fact condition)
  | .obj condition => by
      have hall := combined_reads .all condition
      have hany := combined_reads .any condition
      have hnot := combined_reads .not condition
      simp only [conditionReading, pathConditionSatisfied]
      generalize combinedReading platform fact .all condition = all, combined platform fact .all condition = x at hall
      generalize combinedReading platform fact .any condition = any, combined platform fact .any condition = y at hany
      generalize combinedReading platform fact .not condition = not, combined platform fact .not condition = z at hnot
      -- the first combinator the condition has decides; without one it is an operator
      cases hall with
      | some h => exact h
      | none =>
        cases hany with
        | some h => exact h
        | none =>
          cases hnot with
          | some h => exact h
          | none => exact pathOperator_reads platform fact condition
  | .null => reads_const false
  | .bool b => reads_const b
  | .num n => reads_const _
  | .str s => reads_const _
  | .arr values => reads_const _

theorem combined_reads (combinator : Combinator) : ∀ members : Members N,
    Option.Rel Reads (combinedReading platform fact combinator members) (combined platform fact combinator members)
  | [] => .none
  | (key, value) :: rest => by
      simp only [combinedReading, combined]
      by_cases hkey : key = combinator.name
      · simp only [hkey, if_true]
        refine .some ?_
        cases combinator with
        | all => exact allItems_reads value
        | any => exact anyItem_reads value
        | not => exact (pathConditionSatisfied_reads value).not
      · simp only [hkey, if_false]
        exact combined_reads combinator rest

theorem allItems_reads : ∀ value : Json N, Reads (allReading platform fact value) (allItems platform fact value)
  | .arr items => allSatisfied_reads items
  | .obj _ | .null | .bool _ | .num _ | .str _ => reads_const false

theorem anyItem_reads : ∀ value : Json N, Reads (anyReading platform fact value) (anyItem platform fact value)
  | .arr items => anySatisfied_reads items
  | .obj _ | .null | .bool _ | .num _ | .str _ => reads_const false

theorem allSatisfied_reads :
    ∀ items : List (Json N), Reads (allItemsReading platform fact items) (allSatisfied platform fact items)
  | [] => reads_const true
  | item :: rest => (pathConditionSatisfied_reads item).and (allSatisfied_reads rest)

theorem anySatisfied_reads :
    ∀ items : List (Json N), Reads (anyItemReading platform fact items) (anySatisfied platform fact items)
  | [] => reads_const false
  | item :: rest => (pathConditionSatisfied_reads item).or (anySatisfied_reads rest)

end

/-! ## Facts -/

variable (requirement : Json N)

/-- What the pass rule of a requirement comes to; without one, or with an empty one, every fact passes. -/
def ruleReading : Reading :=
  let rule := (((asObject requirement).bind (fun mapping => mapping.lookup "pass_rule".toList)).bind asObject).getD []
  if rule = [] then .const true
  else if ["all".toList, "any".toList, "not".toList, "path".toList].any (fun key => (rule.lookup key).isSome) then
    conditionReading platform fact (.obj rule)
  else .const (clausesHold false (ruleClauses platform fact rule))

theorem passRuleSatisfied_reads :
    Reads (ruleReading platform fact requirement) (passRuleSatisfied platform fact requirement) := by
  unfold ruleReading passRuleSatisfied
  cases ((asObject requirement).bind (fun mapping => mapping.lookup "pass_rule".toList)).bind asObject with
  | none => exact reads_const true
  | some rule =>
    simp only [Option.getD_some]
    split
    · exact reads_const true
    · split
      · exact pathConditionSatisfied_reads platform fact (.obj rule)
      · exact reads_const _

/-- The fact is one the requirement is about: its requirement id, its identity with the scope, its method, and
    verified. -/
def isEligible : Bool :=
  let requirementId := (requirementString requirement "requirement_id".toList).getD []
  let method := (requirementString requirement "verification_method".toList).getD []
  (requirementId = [] || fact.requirementId = [] || fact.requirementId = requirementId) &&
    requirementIdentityMatches platform fact requirement true &&
    (method = [] || stringField fact.verification "method".toList = method) && factVerified platform fact

/-- What `fact_satisfies_requirement` comes to. -/
def factReading : Reading :=
  if isEligible platform fact requirement then ruleReading platform fact requirement else .const false

theorem scopeMatches_of_identity {fact : EvidenceFact N} {requirement : Json N}
    (h : requirementIdentityMatches platform fact requirement true = true) :
    scopeMatches platform fact.scope (requirementScope requirement) = true := by
  simp only [requirementIdentityMatches, Bool.and_eq_true] at h
  simpa using h.2

/-- **The evaluation of a requirement on a fact comes to its reading.** The source checks the scope twice; once the
    identity matches with the scope, the second check passes. -/
theorem factSatisfiesRequirement_reads :
    Reads (factReading platform fact requirement) (factSatisfiesRequirement platform fact requirement) := by
  unfold factReading factSatisfiesRequirement
  by_cases heligible : isEligible platform fact requirement = true
  · rw [if_pos heligible]
    simp only [isEligible, Bool.and_eq_true, Bool.or_eq_true, decide_eq_true_eq] at heligible
    obtain ⟨⟨⟨hid, hidentity⟩, hmethod⟩, hverified⟩ := heligible
    rw [if_neg, if_neg (not_not.mpr hidentity), if_neg,
      if_neg (not_not.mpr (scopeMatches_of_identity platform hidentity)), if_pos hverified]
    · exact passRuleSatisfied_reads platform fact requirement
    · simpa only [ne_eq, not_and_or, not_not] using hmethod
    · simpa only [ne_eq, not_and_or, not_not, or_assoc] using hid
  · rw [if_neg heligible]
    simp only [isEligible, Bool.and_eq_true, Bool.or_eq_true, decide_eq_true_eq] at heligible
    dsimp only
    -- some test fails, and each that does returns `false`
    split_ifs with hid hidentity hmethod hscope hverified
    · exact reads_const false
    · exact reads_const false
    · refine absurd ⟨⟨⟨?_, hidentity⟩, ?_⟩, hverified⟩ heligible
      · simpa only [ne_eq, not_and_or, not_not, or_assoc] using hid
      · simpa only [ne_eq, not_and_or, not_not] using hmethod
    · exact reads_const false
    · exact reads_const false
    · exact reads_const false

end MartyCore.Evidence
