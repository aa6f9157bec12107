import MartyCore.Evidence.Paths

/-!
# `Evidence.Approval` — what the bundled policies approve

Without a policy set a request is decided by the three bundled policies. They read four members of the context
(`isAuthorized_bundled`), and those are computed by a scan of the current heads for each effective requirement. The
scan for one requirement stops at the first head that satisfies it, so `scanReading` has a value exactly where no
head up to that one is read past the end of an array.

The scope flag comes from another filter than the one that satisfies requirements: it looks at the facts with the
identity of the requirement, verified or not. A fact that satisfies the requirement is among them
(`scopeMissed_of_satisfied`), which is why the flag never contradicts the count.
-/

namespace MartyCore.Evidence

open List

variable {N : Type} (platform : Platform N)

/-! ## The bundled policies -/

section

variable (app : ApplicationInput) (facts : List (EvidenceFact N)) (context : EvidenceContext)

/-- The members the policies read. -/
theorem lookup_attributes :
    context.attributes.lookup "evidence_provider".toList = some (.text context.evidenceProvider) ∧
    context.attributes.lookup "evidence_verification_status".toList = some (.text context.evidenceVerificationStatus) ∧
    context.attributes.lookup "evidence_scope_matched".toList = some (.bool context.evidenceScopeMatched) ∧
    context.attributes.lookup "all_required_evidence_satisfied".toList =
      some (.bool context.allRequiredEvidenceSatisfied) ∧
    context.attributes.lookup "satisfied_requirement_count".toList = some (.long context.satisfiedRequirementCount) ∧
    context.attributes.lookup "required_evidence_count".toList = some (.long context.requiredEvidenceCount) :=
  ⟨by rfl, by rfl, by rfl, by rfl, by rfl, by rfl⟩

/-- The principal is the first entity, and its service name is its id. -/
theorem serviceName_isTrue :
    (Condition.serviceName serviceAccountId).isTrue (cedarRequest app facts context) = true := by
  simp [Condition.isTrue, cedarRequest, buildEntities]

/-- **The bundled policies allow a request exactly on four members of its context.** -/
theorem isAuthorized_bundled :
    isAuthorized bundledPolicies (cedarRequest app facts context) = true ↔
      context.evidenceVerificationStatus = "VERIFIED".toList ∧ context.evidenceScopeMatched = true ∧
      context.allRequiredEvidenceSatisfied = true ∧
      context.requiredEvidenceCount ≤ context.satisfiedRequirementCount := by
  have hcontext : (cedarRequest app facts context).context = context := rfl
  have hprincipal : (cedarRequest app facts context).principal.type = serviceAccountType := rfl
  have haction : (cedarRequest app facts context).action = approveAction := rfl
  simp only [isAuthorized, bundledPolicies, CedarPolicy.isSatisfied, any_cons, any_nil, all_cons,
    all_nil, serviceName_isTrue, hprincipal, haction]
  simp only [Condition.isTrue, hcontext, lookup_attributes]
  generalize "VERIFIED".toList = verified
  -- the permit needs the status and the scope, and each forbid then fails on one of them
  by_cases hstatus : context.evidenceVerificationStatus = verified
  · cases context.evidenceScopeMatched <;> simp [hstatus]
  · simp [hstatus]

end

/-! ## The scan for one requirement -/

/-- What the scan of the facts for a requirement comes to. -/
def scanReading (requirement : Json N) : List (EvidenceFact N) → Reading
  | [] => .const false
  | fact :: rest => (factReading platform fact requirement).or (scanReading requirement rest)

theorem someSatisfies_reads (requirement : Json N) (facts : List (EvidenceFact N)) :
    Reads (scanReading platform requirement facts) (someSatisfies platform requirement facts) := by
  induction facts with
  | nil => exact reads_const false
  | cons fact rest ih => exact (factSatisfiesRequirement_reads platform fact requirement).or ih

variable {requirement : Json N}

variable {facts : List (EvidenceFact N)}

/-- A scan that is not read past an end holds exactly when the source's check holds on some fact. -/
theorem scanReading_holds_iff
    (hscan : (scanReading platform requirement facts).pastEnd = false) :
    (scanReading platform requirement facts).holds = true ↔
      ∃ fact ∈ facts, factSatisfiesRequirement platform fact requirement = .ok true := by
  induction facts with
  | nil => simp [scanReading, Reading.const]
  | cons fact rest ih =>
    have hfact := (factSatisfiesRequirement_reads platform fact requirement).ok_iff (b := true)
    simp only [scanReading, Reading.or, Bool.or_eq_false_iff] at hscan
    obtain ⟨hpast, hrest⟩ := hscan
    simp only [scanReading, Reading.or, Bool.or_eq_true, mem_cons, exists_eq_or_imp, hfact, hpast,
      true_and, eq_comm (a := true)]
    cases hholds : (factReading platform fact requirement).holds with
    | true => simp
    | false =>
      rw [hholds] at hrest
      simpa using ih hrest

theorem exists_of_scanReading_holds
    (hholds : (scanReading platform requirement facts).holds = true) :
    ∃ fact ∈ facts, (factReading platform fact requirement).holds = true := by
  induction facts with
  | nil => cases hholds
  | cons fact rest ih =>
    simp only [scanReading, Reading.or, Bool.or_eq_true] at hholds
    rcases hholds with hfact | hrest
    · exact ⟨fact, mem_cons_self, hfact⟩
    · obtain ⟨other, hmem, hother⟩ := ih hrest
      exact ⟨other, mem_cons_of_mem fact hmem, hother⟩

/-- **A satisfied requirement is in scope.** The fact that satisfies it has the identity of the requirement. -/
theorem scopeMissed_of_satisfied
    (hholds : (scanReading platform requirement facts).holds = true) :
    scopeMissed platform facts requirement = false := by
  obtain ⟨fact, hmem, hfact⟩ := exists_of_scanReading_holds platform hholds
  have heligible : isEligible platform fact requirement = true := by
    by_contra hnot
    rw [factReading, if_neg hnot] at hfact
    cases hfact
  simp only [isEligible, Bool.and_eq_true] at heligible
  have hidentity : requirementIdentityMatches platform fact requirement true = true := heligible.1.1.2
  have hwithout : requirementIdentityMatches platform fact requirement false = true := by
    simp only [requirementIdentityMatches, Bool.and_eq_true] at hidentity ⊢
    exact ⟨hidentity.1, rfl⟩
  have hany : (facts.filter (fun fact => requirementIdentityMatches platform fact requirement false)).any
      (fun fact => scopeMatches platform fact.scope (requirementScope requirement)) = true :=
    any_eq_true.mpr
      ⟨fact, mem_filter.mpr ⟨hmem, hwithout⟩, scopeMatches_of_identity platform hidentity⟩
  simp [scopeMissed, hany]

/-! ## The summary -/

variable (requirements : List (Json N))

/-- Some scan for a requirement is read past an end. -/
def readsPastEnd (facts : List (EvidenceFact N)) : Bool :=
  requirements.any (fun requirement => (scanReading platform requirement facts).pastEnd)

/-- The requirements some fact satisfies. -/
def satisfiedCount (facts : List (EvidenceFact N)) : Nat :=
  requirements.countP (fun requirement => (scanReading platform requirement facts).holds)

/-- No requirement has a scope that its facts miss. -/
def allInScope (facts : List (EvidenceFact N)) : Bool :=
  requirements.all (fun requirement => !scopeMissed platform facts requirement)

theorem summaryLoop_returns (facts : List (EvidenceFact N)) (requirements : List (Json N)) (satisfied : Nat)
    (scopeMatched : Bool) :
    Exec.ReturnsUnless (readsPastEnd platform requirements facts)
      (satisfied + satisfiedCount platform requirements facts, scopeMatched && allInScope platform requirements facts)
      (summaryLoop platform facts requirements (satisfied, scopeMatched)) := by
  induction requirements generalizing satisfied scopeMatched with
  | nil =>
    simp only [readsPastEnd, satisfiedCount, allInScope, any_nil, countP_nil, all_nil, Nat.add_zero, Bool.and_true]
    exact Exec.returnsUnless_ok _
  | cons requirement rest ih =>
    refine Exec.ReturnsUnless.bind (someSatisfies_reads platform requirement facts) ?_
    have hcount : satisfied + satisfiedCount platform (requirement :: rest) facts =
        (if (scanReading platform requirement facts).holds then satisfied + 1 else satisfied) +
          satisfiedCount platform rest facts := by
      simp only [satisfiedCount, countP_cons]
      split <;> omega
    have hscope : (scopeMatched && allInScope platform (requirement :: rest) facts) =
        ((scopeMatched && !scopeMissed platform facts requirement) && allInScope platform rest facts) := by
      simp only [allInScope, all_cons, Bool.and_assoc]
    rw [hcount, hscope]
    exact ih _ _

/-- What the summary says of the effective requirements, where no scan is read past an end. -/
theorem summarizeRequirements_returns (facts : List (EvidenceFact N)) :
    Exec.ReturnsUnless (readsPastEnd platform (effectiveRequirements requirements) facts)
      ((effectiveRequirements requirements).length, satisfiedCount platform (effectiveRequirements requirements) facts,
        !(effectiveRequirements requirements).isEmpty &&
          decide ((effectiveRequirements requirements).length ≤
            satisfiedCount platform (effectiveRequirements requirements) facts),
        allInScope platform (effectiveRequirements requirements) facts)
      (summarizeRequirements platform requirements facts) := by
  unfold summarizeRequirements
  cases effectiveRequirements requirements with
  | nil => exact Exec.returnsUnless_ok _
  | cons requirement rest =>
    have hloop := summaryLoop_returns platform facts (requirement :: rest) 0 true
    rw [Nat.zero_add, Bool.true_and] at hloop
    exact hloop.bind_ok _

variable {requirements : List (Json N)}

theorem length_le_satisfiedCount_iff :
    requirements.length ≤ satisfiedCount platform requirements facts ↔
      ∀ requirement ∈ requirements, (scanReading platform requirement facts).holds = true := by
  rw [satisfiedCount, ← countP_eq_length]
  have hle := countP_le_length (p := fun requirement => (scanReading platform requirement facts).holds)
    (l := requirements)
  omega

/-- **When all requirements are satisfied, all are in scope and the counts agree.** -/
theorem inScope_of_allSatisfied
    (hall : requirements.length ≤ satisfiedCount platform requirements facts) :
    allInScope platform requirements facts = true ∧
    satisfiedCount platform requirements facts = requirements.length := by
  have hholds := (length_le_satisfiedCount_iff platform).mp hall
  refine ⟨all_eq_true.mpr ?_, countP_eq_length.mpr hholds⟩
  intro requirement hmem
  rw [scopeMissed_of_satisfied platform (hholds requirement hmem)]
  rfl

/-! ## The decision -/

theorem latestStatus_eq_verified_iff (latest : Option (EvidenceFact N)) :
    latestStatus platform latest = "VERIFIED".toList ↔
      ∃ head, latest = some head ∧ factVerified platform head = true := by
  have hne : "UNVERIFIED".toList ≠ "VERIFIED".toList := by decide
  have hempty : ([] : Str) ≠ "VERIFIED".toList := by decide
  cases latest with
  | none => exact iff_of_false hne (fun ⟨_, hhead, _⟩ => absurd hhead.symm (Option.some_ne_none _))
  | some fact =>
    have hlatest : latestStatus platform (some fact) =
        if stringField fact.verification "status".toList = [] then "UNVERIFIED".toList
        else Str.toUppercase platform.unicode (stringField fact.verification "status".toList) := rfl
    simp only [Option.some.injEq, exists_eq_left']
    rw [hlatest, factVerified, decide_eq_true_iff]
    generalize stringField fact.verification "status".toList = status
    cases status with
    -- an empty status counts as unverified, and its upper case is empty
    | nil =>
      exact iff_of_false hne hempty
    | cons c rest => rw [if_neg (cons_ne_nil c rest)]

/-- The members of the context the bundled policies read. -/
theorem buildContext_returns (binding : Option BindingInput) (requirements : List (Json N))
    (facts : List (EvidenceFact N)) :
    ∃ context, Exec.ReturnsUnless (readsPastEnd platform (effectiveRequirements requirements) facts) context
        (buildContext platform binding requirements facts) ∧
      context.evidenceVerificationStatus = latestStatus platform facts.getLast? ∧
      context.evidenceScopeMatched = allInScope platform (effectiveRequirements requirements) facts ∧
      context.requiredEvidenceCount = (effectiveRequirements requirements).length ∧
      context.satisfiedRequirementCount = satisfiedCount platform (effectiveRequirements requirements) facts ∧
      context.allRequiredEvidenceSatisfied = (!(effectiveRequirements requirements).isEmpty &&
        decide ((effectiveRequirements requirements).length ≤
          satisfiedCount platform (effectiveRequirements requirements) facts)) :=
  ⟨_, (summarizeRequirements_returns platform requirements facts).bind_ok _, rfl, rfl, rfl, rfl, rfl⟩

/-- What bundled approval asks of a request. -/
def Approvable (request : EvaluationRequest N) : Prop :=
  (∃ head, (currentHeads request.facts).getLast? = some head ∧ factVerified platform head = true) ∧
  effectiveRequirements request.requirements ≠ [] ∧
  ∀ requirement ∈ effectiveRequirements request.requirements, ∃ head ∈ currentHeads request.facts,
    factSatisfiesRequirement platform head requirement = .ok true

/-- The scope flag and the counts of a context do not contradict its satisfaction flag. -/
def EvidenceContext.Consistent (context : EvidenceContext) : Prop :=
  context.allRequiredEvidenceSatisfied = true →
    context.evidenceScopeMatched = true ∧ context.satisfiedRequirementCount = context.requiredEvidenceCount

variable {request : EvaluationRequest N}

theorem approvable_iff
    (hpast : readsPastEnd platform (effectiveRequirements request.requirements) (currentHeads request.facts) = false) :
    Approvable platform request ↔
      latestStatus platform (currentHeads request.facts).getLast? = "VERIFIED".toList ∧
      effectiveRequirements request.requirements ≠ [] ∧
      (effectiveRequirements request.requirements).length ≤
        satisfiedCount platform (effectiveRequirements request.requirements) (currentHeads request.facts) := by
  rw [Approvable, latestStatus_eq_verified_iff, length_le_satisfiedCount_iff]
  refine and_congr_right' (and_congr_right' (forall₂_congr ?_))
  intro requirement hmem
  exact (scanReading_holds_iff platform (by simpa using any_eq_false.mp hpast requirement hmem)).symm

/-- Where Cedar gets its three arguments, the decision is the bundled policies'. -/
theorem decideBy_bundled {context : EvidenceContext}
    (hpolicies : platform.policySetFromStr .bundled = .ok bundledPolicies)
    (hentities : platform.entitiesFromJsonValue (buildEntities request.app facts) = .ok ())
    (hrequest : platform.requestNew request.app.id context = .ok ()) (source : Str) (id : Option Str) :
    (decideBy platform request facts context source id .bundled).allowed =
      isAuthorized bundledPolicies (cedarRequest request.app facts context) ∧
    (decideBy platform request facts context source id .bundled).context = context := by
  simp only [decideBy, authorize, hpolicies, hentities, hrequest, Result.ok_bind, pure, Except.pure, and_self]

/-- **Bundled approval is exactly verified, fully satisfied evidence, as long as no pass rule is read past the end of
    an array.** A request without a policy set is decided, and allowed exactly when it is approvable, precisely when
    the scan for each effective requirement gets to its end, or to a head that satisfies it, without such an index. -/
theorem bundled_approval_iff (request : EvaluationRequest N) (hset : policySetId request = none)
    (hpolicies : platform.policySetFromStr .bundled = .ok bundledPolicies)
    (hentities : platform.entitiesFromJsonValue (buildEntities request.app (currentHeads request.facts)) = .ok ())
    (hrequest : ∀ context,
      buildContext platform request.binding request.requirements (currentHeads request.facts) = .ok context →
        platform.requestNew request.app.id context = .ok ()) :
    (∃ decision, evaluate platform request = .ok decision ∧
      (decision.allowed = true ↔ Approvable platform request) ∧ decision.context.Consistent) ↔
    readsPastEnd platform (effectiveRequirements request.requirements) (currentHeads request.facts) = false := by
  obtain ⟨context, hcontext, hstatus, hscope, hrequired, hsatisfied, hall⟩ :=
    buildContext_returns platform request.binding request.requirements (currentHeads request.facts)
  constructor
  · rintro ⟨decision, hdecision, -⟩
    obtain ⟨built, hbuilt, -⟩ := Exec.of_bind hdecision
    exact (hcontext.ok_iff.mp hbuilt).1
  · intro hpast
    have hbuild := hcontext.ok_iff.mpr ⟨hpast, rfl⟩
    obtain ⟨hallowed, hsame⟩ := decideBy_bundled platform hpolicies hentities (hrequest context hbuild)
      "bundled".toList none
    have hconsistent : context.Consistent := by
      intro hflag
      rw [hall, Bool.and_eq_true, decide_eq_true_eq] at hflag
      rw [hscope, hsatisfied, hrequired]
      exact inScope_of_allSatisfied platform hflag.2
    refine ⟨decideBy platform request (currentHeads request.facts) context "bundled".toList none .bundled, ?_, ?_, ?_⟩
    · simp only [evaluate, hbuild, hset, Result.ok_bind]
      rfl
    · rw [hallowed, isAuthorized_bundled, approvable_iff platform hpast, hstatus, hscope, hrequired, hsatisfied, hall]
      simp only [Bool.and_eq_true, Bool.not_eq_true', isEmpty_eq_false_iff, decide_eq_true_eq]
      constructor
      · rintro ⟨hverified, -, ⟨hne, hle⟩, -⟩
        exact ⟨hverified, hne, hle⟩
      · rintro ⟨hverified, hne, hle⟩
        exact ⟨hverified, (inScope_of_allSatisfied platform hle).1, ⟨hne, hle⟩, hle⟩
    · rw [hsame]
      exact hconsistent

/-- Numbers are natural numbers, case is ASCII case, and Cedar takes what it is given. -/
def samplePlatform : Platform Nat where
  F := Nat
  asF64 := some
  parseF64 _ := none
  le a b := a ≤ b
  lt a b := a < b
  eq a b := a = b
  zero := 0
  one := 1
  numberEq a b := a = b
  numberText := Nat.toDigits 10
  unicode := Str.asciiMapping
  toLowercase s := s.map Char.toLower
  debugText s := s
  fromStr _ := none
  policySetFromStr _ := .ok bundledPolicies
  entitiesFromJsonValue _ := .ok ()
  requestNew _ _ := .ok ()
  diagnostics _ _ := ([], [])

/-- A verified fact of the default type whose assertion holds the given scores. -/
def scoresFact (id : Char) (at_ : DateTime) (scores : List (Json Nat)) : EvidenceFact Nat where
  id := [id]
  logicalKey := []
  provider := []
  factType := []
  subjectId := []
  requirementId := []
  scope := []
  assertion := [("scores".toList, .arr scores)]
  verification := [("status".toList, .str "verified".toList)]
  source := []
  effectiveAt := none
  observedAt := at_
  createdAt := at_

/-- The requirement that there is a second score. -/
def secondScore : Json Nat := .obj [("pass_rule".toList, .obj [("path".toList, .str "scores.1".toList)])]

/-- A request with that requirement and no policy set. -/
def scoresRequest (facts : List (EvidenceFact Nat)) : EvaluationRequest Nat where
  app := ⟨['a'], ['o'], []⟩
  template := none
  binding := none
  requirements := [secondScore]
  facts := facts
  policySet := none

/-- Two scores, in a fact that the scan comes to. -/
def scoredFact : EvidenceFact Nat := scoresFact 'b' 1 [.num 1, .num 2]

theorem bundled_approval_iff_scoredFact :
    ∃ decision, evaluate samplePlatform (scoresRequest [scoredFact]) = .ok decision ∧
      (decision.allowed = true ↔ Approvable samplePlatform (scoresRequest [scoredFact])) ∧
      decision.context.Consistent :=
  (bundled_approval_iff samplePlatform (scoresRequest [scoredFact]) rfl rfl rfl (fun _ _ => rfl)).mpr
    (by decide)

/-- **A rule that reads past the end of an array ends the process, and with it the approval of other evidence.** The
    later fact has the second score and is verified, so the request is approvable; the scan comes to the earlier fact
    first, whose scores are empty. -/
theorem evaluate_panics_on_emptyScores :
    Approvable samplePlatform (scoresRequest [scoresFact 'a' 0 [], scoredFact]) ∧
    evaluate samplePlatform (scoresRequest [scoresFact 'a' 0 [], scoredFact]) =
      .error (.panic "removal index (is 1) should be < len (is 0)") := by
  have hlast : (currentHeads [scoresFact 'a' 0 [], scoredFact]).getLast? = some scoredFact := by rfl
  refine ⟨⟨⟨scoredFact, hlast, by decide⟩, ?_, ?_⟩, by decide⟩
  · show effectiveRequirements [secondScore] ≠ []
    exact cons_ne_nil _ _
  · show ∀ requirement ∈ effectiveRequirements [secondScore], _
    intro requirement hmem
    rw [mem_singleton.mp hmem]
    exact ⟨scoredFact, mem_of_getLast? hlast, by decide⟩

/-- **An evaluation returns exactly when it indexes no array past its end**, for a requirement, a condition and a path;
    an index past the end is not an absent value. -/
theorem evaluation_returns_iff {N : Type} (platform : Platform N) (fact : EvidenceFact N) :
    (∀ requirement, (∃ b, factSatisfiesRequirement platform fact requirement = .ok b) ↔
      (factReading platform fact requirement).pastEnd = false) ∧
    (∀ condition, (∃ b, pathConditionSatisfied platform fact condition = .ok b) ↔
      (conditionReading platform fact condition).pastEnd = false) ∧
    ∀ (current : Json N) (path : Str), (∃ value, pathValueOwned current path = .ok value) ↔
      (pathParts path).any (indexesPastEnd current) = false :=
  ⟨fun requirement => (factSatisfiesRequirement_reads platform fact requirement).exists_ok_iff,
    fun condition => (pathConditionSatisfied_reads platform fact condition).exists_ok_iff,
    fun current path => (pathValueOwned_returns current path).exists_ok_iff⟩

/-- The second score of a fact that has none. -/
theorem evaluation_panics_on_emptyScores :
    factSatisfiesRequirement samplePlatform (scoresFact 'a' 0 []) secondScore =
      .error (.panic "removal index (is 1) should be < len (is 0)") := by
  decide

end MartyCore.Evidence
