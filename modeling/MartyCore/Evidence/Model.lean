import Mathlib.Data.Prod.Lex
import MartyCore.Lib.Json
import MartyCore.Lib.KeyedMax

/-!
# `Evidence.Model` — evidence policy decisions

The embedding of `marty-verification/src/evidence_policy.rs`: the selection of the current revision of each fact
(`current_heads`), the matching of facts against requirements with their pass rules, and the approval decision
(`evaluate`), which a Cedar policy makes from a summary of the evidence.

A pass rule may follow a path into a fact. Objects along it are left with `?` when a key is missing, arrays with
`Vec::remove`, which panics when the index is past the end; everything on the way up returns an `Exec`, and the
scans over facts and conditions stop where the source's do.

Foreign code comes in as a `Platform`: floats and their text, the Unicode case tables, the JSON parser, and what
Cedar does outside its decision. The decision itself is Cedar's documented rule (`isAuthorized`) over policies
written as in the source. Instants are nanoseconds. A `Map<String, Value>` is its list of members.
-/

namespace MartyCore.Evidence

/-- `DateTime<Utc>`, in nanoseconds. -/
abbrev DateTime := Int

abbrev Members (N : Type) := List (Str × Json N)

/-! ## Requests -/

structure ApplicationInput where
  id : Str
  organizationId : Str
  status : Str

structure TemplateInput where
  approvalPolicySetId : Option Str

structure BindingInput where
  approvalPolicySetId : Option Str
  autoApproveOnEvidence : Bool

structure EvidenceFact (N : Type) where
  id : Str
  logicalKey : Str
  provider : Str
  factType : Str
  subjectId : Str
  requirementId : Str
  scope : Members N
  assertion : Members N
  verification : Members N
  source : Members N
  effectiveAt : Option DateTime
  observedAt : DateTime
  createdAt : DateTime

structure ApprovalPolicySetInput (N : Type) where
  status : Str
  policyType : Str
  cedarPolicies : Json N

structure EvaluationRequest (N : Type) where
  app : ApplicationInput
  template : Option TemplateInput
  binding : Option BindingInput
  requirements : List (Json N)
  facts : List (EvidenceFact N)
  policySet : Option (ApprovalPolicySetInput N)

variable {N : Type}

/-! ## Current revisions -/

/-- The key under which revisions of a fact replace each other. -/
def effectiveKey (fact : EvidenceFact N) : Str := if fact.logicalKey = [] then fact.id else fact.logicalKey

def factOrder (fact : EvidenceFact N) : DateTime ×ₗ DateTime ×ₗ DateTime ×ₗ Str :=
  toLex (fact.effectiveAt.getD fact.observedAt, toLex (fact.observedAt, toLex (fact.createdAt, fact.id)))

/-- The key of the final `sort_by_key`. -/
def outputOrder (fact : EvidenceFact N) : DateTime ×ₗ DateTime ×ₗ Str :=
  toLex (fact.observedAt, toLex (fact.createdAt, fact.id))

/-- The map from effective keys to heads, then its values in output order. -/
def currentHeads (facts : List (EvidenceFact N)) : List (EvidenceFact N) :=
  let heads := KeyedMax.maxima effectiveKey factOrder facts
  (heads.entries.map Prod.snd).insertionSort (fun a b => outputOrder a ≤ outputOrder b)

/-! ## Cedar -/

structure EntityUid where
  type : Str
  id : Str
deriving DecidableEq

inductive AttributeValue where
  | text (s : Str)
  | long (n : Nat)
  | bool (b : Bool)
deriving DecidableEq

structure Entity where
  uid : EntityUid
  attrs : List (Str × AttributeValue)
  parents : List EntityUid

/-- The object that `build_context` writes. -/
structure EvidenceContext where
  riskScore : Nat
  documentVerificationPassed : Bool
  biometricMatchScore : Nat
  evidenceCount : Nat
  applicantCountry : Str
  evidenceProvider : Str
  evidenceFactType : Str
  evidenceVerificationStatus : Str
  evidenceScopeMatched : Bool
  verifiedEvidenceCount : Nat
  requiredEvidenceCount : Nat
  satisfiedRequirementCount : Nat
  allRequiredEvidenceSatisfied : Bool
  autoIssueEligible : Bool
deriving DecidableEq

/-- The context's members, by name. -/
def EvidenceContext.attributes (context : EvidenceContext) : List (Str × AttributeValue) :=
  [("risk_score".toList, .long context.riskScore),
   ("document_verification_passed".toList, .bool context.documentVerificationPassed),
   ("biometric_match_score".toList, .long context.biometricMatchScore),
   ("evidence_count".toList, .long context.evidenceCount),
   ("applicant_country".toList, .text context.applicantCountry),
   ("evidence_provider".toList, .text context.evidenceProvider),
   ("evidence_fact_type".toList, .text context.evidenceFactType),
   ("evidence_verification_status".toList, .text context.evidenceVerificationStatus),
   ("evidence_scope_matched".toList, .bool context.evidenceScopeMatched),
   ("verified_evidence_count".toList, .long context.verifiedEvidenceCount),
   ("required_evidence_count".toList, .long context.requiredEvidenceCount),
   ("satisfied_requirement_count".toList, .long context.satisfiedRequirementCount),
   ("all_required_evidence_satisfied".toList, .bool context.allRequiredEvidenceSatisfied),
   ("auto_issue_eligible".toList, .bool context.autoIssueEligible)]

structure CedarRequest where
  principal : EntityUid
  action : EntityUid
  resource : EntityUid
  context : EvidenceContext
  entities : List Entity

/-- The conditions the bundled policies are conjunctions of. -/
inductive Condition where
  /-- `principal.service_name == value` -/
  | serviceName (value : Str)
  /-- `context has name` -/
  | has (name : Str)
  /-- `context.name == value` -/
  | equals (name value : Str)
  /-- `context.name != value` -/
  | differs (name value : Str)
  /-- `context.name` -/
  | holds (name : Str)
  /-- `!context.name` -/
  | fails (name : Str)
  /-- `context.name >= context.other` -/
  | atLeast (name other : Str)

/-- Whether a condition is true; an evaluation error is not. -/
def Condition.isTrue (request : CedarRequest) : Condition → Bool
  | .serviceName value =>
    (request.entities.find? (fun entity => entity.uid = request.principal)).any
      (fun entity => entity.attrs.lookup "service_name".toList = some (.text value))
  | .has name => (request.context.attributes.lookup name).isSome
  | .equals name value => request.context.attributes.lookup name = some (.text value)
  | .differs name value =>
    match request.context.attributes.lookup name with
    | some actual => actual ≠ .text value
    | none => false
  | .holds name => request.context.attributes.lookup name = some (.bool true)
  | .fails name => request.context.attributes.lookup name = some (.bool false)
  | .atLeast name other =>
    match request.context.attributes.lookup name, request.context.attributes.lookup other with
    | some (.long n), some (.long m) => m ≤ n
    | _, _ => false

inductive Effect where
  | permit | forbid
deriving DecidableEq

/-- A policy with the scope `principal is …, action == …, resource` and a `when` clause. -/
structure CedarPolicy where
  effect : Effect
  principalType : Str
  action : EntityUid
  conditions : List Condition

def CedarPolicy.isSatisfied (policy : CedarPolicy) (request : CedarRequest) : Bool :=
  (request.principal.type = policy.principalType) && (request.action = policy.action) &&
    policy.conditions.all (fun condition => condition.isTrue request)

/-- Cedar's decision: allow iff some permit policy matches and no forbid policy does. -/
def isAuthorized (policies : List CedarPolicy) (request : CedarRequest) : Bool :=
  policies.any (fun policy => policy.effect = .permit && policy.isSatisfied request) &&
    !policies.any (fun policy => policy.effect = .forbid && policy.isSatisfied request)

def serviceAccountType : Str := "MIP::ServiceAccount".toList

def approveAction : EntityUid := ⟨"MIP::Action".toList, "applications:approve".toList⟩

def serviceAccountId : Str := "canvas-evidence-policy".toList

/-- `BUNDLED_APPROVAL_POLICY`, parsed: auto-approve-verified-external-evidence, deny-unverified-external-evidence and
    deny-wrong-scope-external-evidence. -/
def bundledPolicies : List CedarPolicy :=
  [⟨.permit, serviceAccountType, approveAction,
    [.serviceName serviceAccountId, .has "evidence_provider".toList,
     .has "evidence_verification_status".toList, .has "evidence_scope_matched".toList,
     .has "all_required_evidence_satisfied".toList, .has "satisfied_requirement_count".toList,
     .has "required_evidence_count".toList,
     .equals "evidence_verification_status".toList "VERIFIED".toList, .holds "evidence_scope_matched".toList,
     .holds "all_required_evidence_satisfied".toList,
     .atLeast "satisfied_requirement_count".toList "required_evidence_count".toList]⟩,
   ⟨.forbid, serviceAccountType, approveAction,
    [.serviceName serviceAccountId, .has "evidence_provider".toList,
     .has "evidence_verification_status".toList,
     .differs "evidence_verification_status".toList "VERIFIED".toList]⟩,
   ⟨.forbid, serviceAccountType, approveAction,
    [.serviceName serviceAccountId, .has "evidence_provider".toList, .has "evidence_scope_matched".toList,
     .fails "evidence_scope_matched".toList]⟩]

/-- The policies a request is decided by: the constant of the source, or the text of a policy set. -/
inductive PolicyText where
  | bundled
  | custom (text : Str)

/-- The foreign code. -/
structure Platform (N : Type) where
  /-- `f64`. -/
  F : Type
  asF64 : N → Option F
  parseF64 : Str → Option F
  /-- `a <= b`, `a < b` and `a == b` on floats. -/
  le : F → F → Bool
  lt : F → F → Bool
  eq : F → F → Bool
  zero : F
  one : F
  /-- `Number::eq` and `Number::to_string`. -/
  numberEq : N → N → Bool
  numberText : N → Str
  unicode : Str.CaseMapping
  toLowercase : Str → Str
  /-- `{:?}` of a text. -/
  debugText : Str → Str
  /-- `serde_json::from_str::<Value>`. -/
  fromStr : Str → Option (Json N)
  policySetFromStr : PolicyText → Except Str (List CedarPolicy)
  entitiesFromJsonValue : List Entity → Except Str Unit
  /-- The context, the uid of the application and the request. -/
  requestNew : Str → EvidenceContext → Except Str Unit
  /-- Reasons and errors of a decision. -/
  diagnostics : List CedarPolicy → CedarRequest → List Str × List Str

variable (platform : Platform N)

/-! ## Values -/

def asObject : Json N → Option (Members N)
  | .obj members => some members
  | _ => none

def asStr : Json N → Option Str
  | .str s => some s
  | _ => none

def asArray : Json N → Option (List (Json N))
  | .arr values => some values
  | _ => none

def isNull : Json N → Bool
  | .null => true
  | _ => false

def isFalse : Json N → Bool
  | .bool false => true
  | _ => false

def truthy : Json N → Bool
  | .null => false
  | .bool b => b
  | .num n => (platform.asF64 n).any (fun value => !platform.eq value platform.zero)
  | .str s => s ≠ []
  | .arr values => !values.isEmpty
  | .obj members => !members.isEmpty

/-- `==` on `Option<f64>`. -/
def optionEq (a b : Option platform.F) : Bool :=
  match a, b with
  | some a, some b => platform.eq a b
  | none, none => true
  | _, _ => false

def pyEqual (left right : Json N) : Bool :=
  match left, right with
  | .bool b, .num n => optionEq platform (platform.asF64 n) (some (if b then platform.one else platform.zero))
  | .num n, .bool b => optionEq platform (platform.asF64 n) (some (if b then platform.one else platform.zero))
  | .num m, .num n => optionEq platform (platform.asF64 m) (platform.asF64 n)
  | left, right => Json.same platform.numberEq left right

def pyString : Json N → Str
  | .null => "None".toList
  | .bool true => "True".toList
  | .bool false => "False".toList
  | .str s => s
  | .num n => platform.numberText n
  | value => Json.text platform.numberText value

def pyStringOrEmpty (value : Option (Json N)) : Str :=
  match value with
  | none => []
  | some value => if isNull value ∨ ¬ truthy platform value then [] else pyString platform value

def stringField (values : Members N) (key : Str) : Str := ((values.lookup key).bind asStr).getD []

def factVerified (fact : EvidenceFact N) : Bool :=
  Str.toUppercase platform.unicode (stringField fact.verification "status".toList) = "VERIFIED".toList

/-! ## Requirements -/

def requirementString (requirement : Json N) (key : Str) : Option Str :=
  ((asObject requirement).bind (fun mapping => mapping.lookup key)).bind asStr

def requirementType (requirement : Json N) : Str :=
  match asStr requirement with
  | some value => value
  | none =>
    (["fact_type".toList, "evidence_type".toList, "type".toList].findSome?
      (fun key => (requirementString requirement key).filter (fun value => value ≠ []))).getD []

def requirementScope (requirement : Json N) : Members N :=
  (((asObject requirement).bind (fun mapping =>
    (mapping.lookup "scope".toList).or (mapping.lookup "canvas_scope".toList))).bind asObject).getD []

def scopeMatches (actual expected : Members N) : Bool :=
  expected.all (fun entry => isNull entry.2 ||
    pyStringOrEmpty platform (actual.lookup entry.1) = pyStringOrEmpty platform (some entry.2))

def requirementIdentityMatches (fact : EvidenceFact N) (requirement : Json N) (includeScope : Bool) : Bool :=
  let provider := (requirementString requirement "provider".toList).getD []
  let source := (requirementString requirement "source".toList).getD []
  let factType := requirementType requirement
  (provider = [] || fact.provider = provider) &&
    (source = [] || stringField fact.source "source".toList = source) &&
    (factType = [] || fact.factType = factType) &&
    (!includeScope || scopeMatches platform fact.scope (requirementScope requirement))

/-! ## Pass rules -/

/-- Clauses in order: an absent one is skipped, a failing one ends the rule, and at least one must be there. -/
def clausesHold : Bool → List (Option Bool) → Bool
  | evaluated, [] => evaluated
  | evaluated, none :: rest => clausesHold evaluated rest
  | _, some false :: _ => false
  | _, some true :: rest => clausesHold true rest

def numericValue : Json N → Option platform.F
  | .num n => platform.asF64 n
  | .str s => platform.parseF64 s
  | _ => none

/-- The comparisons a rule can name. -/
inductive Comparison where
  | ge | gt | le | lt | eq

def Comparison.holds (actual expected : platform.F) : Comparison → Bool
  | .ge => platform.le expected actual
  | .gt => platform.lt expected actual
  | .le => platform.le actual expected
  | .lt => platform.lt actual expected
  | .eq => platform.eq actual expected

def comparisonSatisfied (actual : Option (Json N)) (rule : Json N) : Bool :=
  match actual.bind (numericValue platform) with
  | none => false
  | some actual =>
    match asObject rule with
    | some rule =>
      clausesHold false
        ([(">=".toList, .ge), ("min".toList, .ge), (">".toList, .gt), ("<=".toList, .le), ("max".toList, .le),
          ("<".toList, .lt), ("==".toList, .eq), ("equals".toList, .eq)].map (fun entry : Str × Comparison =>
            (rule.lookup entry.1).map (fun expected =>
              (numericValue platform expected).any (fun expected => entry.2.holds platform actual expected))))
    | none => (numericValue platform rule).any (fun expected => Comparison.ge.holds platform actual expected)

def compareNumbers (actual : Option (Json N)) (expected : Json N) (comparison : Comparison) : Bool :=
  match actual.bind (numericValue platform), numericValue platform expected with
  | some actual, some expected => comparison.holds platform actual expected
  | _, _ => false

/-- `eq_ignore_ascii_case`. -/
def eqIgnoreAsciiCase (s t : Str) : Bool := s.map Char.toLower = t.map Char.toLower

/-- A rule that is not a list. -/
def stringRuleAtom (actual : Option (Json N)) (expected : Json N) : Bool :=
  match actual.bind asArray with
  | some values => values.any (fun value => eqIgnoreAsciiCase (pyString platform value) (pyString platform expected))
  | none => eqIgnoreAsciiCase (pyStringOrEmpty platform actual) (pyStringOrEmpty platform (some expected))

mutual

def stringRuleSatisfied (actual : Option (Json N)) : Json N → Bool
  | .arr expected => stringRuleAny actual expected
  | .null => stringRuleAtom platform actual .null
  | .bool b => stringRuleAtom platform actual (.bool b)
  | .num n => stringRuleAtom platform actual (.num n)
  | .str s => stringRuleAtom platform actual (.str s)
  | .obj members => stringRuleAtom platform actual (.obj members)

def stringRuleAny (actual : Option (Json N)) : List (Json N) → Bool
  | [] => false
  | expected :: rest => stringRuleSatisfied actual expected || stringRuleAny actual rest

end

/-! ## Paths -/

/-- `parse::<usize>()`. -/
def parseUsize (part : Str) : Option Nat :=
  let digits := if part.head? = some '+' then part.drop 1 else part
  if digits ≠ [] ∧ digits.all Char.isDigit ∧ Nat.ofDigitChars 10 digits 0 < 2 ^ 64 then
    some (Nat.ofDigitChars 10 digits 0)
  else none

/-- The loop over the parts of a path. -/
def pathSteps : Json N → List Str → Exec Str (Option (Json N))
  | current, [] => .ok (some current)
  | .obj members, part :: rest =>
    match members.lookup part with
    | some value => pathSteps value rest
    | none => .ok none
  | .arr values, part :: rest =>
    match parseUsize part with
    | none => .ok none
    | some index =>
      -- `values.remove(index)`
      match values[index]? with
      | some value => pathSteps value rest
      | none => .error (.panic ("removal index (is " ++ toString index ++ ") should be < len (is " ++
          toString values.length ++ ")"))
  | _, _ :: _ => .ok none

def stripRoot (path : Str) : Str :=
  if "$.".toList.isPrefixOf path then path.drop 2
  else if path.head? = some '$' then (path.drop 1).dropWhile (fun c => c = '.')
  else path

def pathValueOwned (current : Json N) (path : Str) : Exec Str (Option (Json N)) :=
  let path := stripRoot path.trim
  if path = [] then .ok none
  else pathSteps current ((path.splitOn '.').filter (fun part => part ≠ []))

def factPathValue (fact : EvidenceFact N) (path : Str) : Exec Str (Option (Json N)) :=
  let normalized := path.trim
  let root : Json N := .obj
    [("assertion".toList, .obj fact.assertion), ("scope".toList, .obj fact.scope),
     ("verification".toList, .obj fact.verification), ("source".toList, .obj fact.source),
     ("provider".toList, .str fact.provider), ("fact_type".toList, .str fact.factType),
     ("subject_id".toList, .str fact.subjectId)]
  let usesRoot := ["assertion.".toList, "scope.".toList, "verification.".toList, "source.".toList,
    "$.".toList].any (fun start => start.isPrefixOf normalized)
  pathValueOwned (if usesRoot then root else .obj fact.assertion) normalized

/-- `str::contains`. -/
def containsText (s sub : Str) : Bool := s.tails.any (fun tail => sub.isPrefixOf tail)

/-- The operator of a condition, applied to the value at its path. -/
def operatorHolds (operator : Str) (actual : Option (Json N)) (expected : Json N) : Bool :=
  let value := actual.getD .null
  if operator = "exists".toList ∨ operator = "present".toList then actual.any (fun value => !isNull value)
  else if operator = "truthy".toList ∨ operator = "true".toList then actual.any (truthy platform)
  else if operator = "falsy".toList ∨ operator = "false".toList then !actual.any (truthy platform)
  else if operator = "eq".toList ∨ operator = "equals".toList ∨ operator = "==".toList then
    pyEqual platform value expected
  else if operator = "neq".toList ∨ operator = "not_equals".toList ∨ operator = "!=".toList then
    !pyEqual platform value expected
  else if operator = ">=".toList ∨ operator = "gt_eq".toList ∨ operator = "gte".toList ∨ operator = "min".toList then
    compareNumbers platform actual expected .ge
  else if operator = ">".toList ∨ operator = "gt".toList then compareNumbers platform actual expected .gt
  else if operator = "<=".toList ∨ operator = "lt_eq".toList ∨ operator = "lte".toList ∨ operator = "max".toList then
    compareNumbers platform actual expected .le
  else if operator = "<".toList ∨ operator = "lt".toList then compareNumbers platform actual expected .lt
  else if operator = "in".toList then
    (asArray expected).any (fun values => values.any (fun candidate => pyEqual platform value candidate))
  else if operator = "contains".toList then
    match actual with
    | some (.arr values) => values.any (fun element => pyEqual platform element expected)
    | some (.str s) => containsText s (pyString platform expected)
    | _ => false
  else false

/-- A condition without `all`, `any` and `not`: a path, an operator and a value. -/
def pathOperator (fact : EvidenceFact N) (condition : Members N) : Exec Str Bool :=
  match (condition.lookup "path".toList).bind asStr with
  | none => .ok false
  | some path =>
    if path = [] then .ok false
    else do
      let actual ← factPathValue fact path
      let operator := (((condition.lookup "op".toList).or (condition.lookup "operator".toList)).bind asStr).getD
        (if (condition.lookup "value".toList).isSome then "eq".toList else "exists".toList)
      return operatorHolds platform (platform.toLowercase operator) actual
        ((condition.lookup "value".toList).getD .null)

/-- The members of a condition that combine others. -/
inductive Combinator where
  | all | any | not
deriving DecidableEq

def Combinator.name : Combinator → Str
  | .all => "all".toList
  | .any => "any".toList
  | .not => "not".toList

mutual

def pathConditionSatisfied (fact : EvidenceFact N) : Json N → Exec Str Bool
  | .obj condition =>
    match combined fact .all condition with
    | some result => result
    | none =>
      match combined fact .any condition with
      | some result => result
      | none =>
        match combined fact .not condition with
        | some result => result
        | none => pathOperator platform fact condition
  | .null => .ok false
  | .bool b => .ok b
  | .num n => .ok (truthy platform (.num n))
  | .str s => .ok (truthy platform (.str s))
  | .arr values => .ok (truthy platform (.arr values))

/-- The result under a combinator, where the condition has one. -/
def combined (fact : EvidenceFact N) (combinator : Combinator) : Members N → Option (Exec Str Bool)
  | [] => none
  | (key, value) :: rest =>
    if key = combinator.name then
      some (match combinator with
        | .all => allItems fact value
        | .any => anyItem fact value
        | .not => (pathConditionSatisfied fact value).map (fun b => !b))
    else combined fact combinator rest

/-- `items.as_array().is_some_and(|items| items.iter().all(…))`. -/
def allItems (fact : EvidenceFact N) : Json N → Exec Str Bool
  | .arr items => allSatisfied fact items
  | _ => .ok false

def anyItem (fact : EvidenceFact N) : Json N → Exec Str Bool
  | .arr items => anySatisfied fact items
  | _ => .ok false

def allSatisfied (fact : EvidenceFact N) : List (Json N) → Exec Str Bool
  | [] => .ok true
  | item :: rest => do
    if ← pathConditionSatisfied fact item then allSatisfied fact rest else return false

def anySatisfied (fact : EvidenceFact N) : List (Json N) → Exec Str Bool
  | [] => .ok false
  | item :: rest => do
    if ← pathConditionSatisfied fact item then return true else anySatisfied fact rest

end

/-- The clauses of a rule without paths, in the order they are tried. -/
def ruleClauses (fact : EvidenceFact N) (rule : Members N) : List (Option Bool) :=
  ["completed".toList, "submitted".toList, "passed".toList, "eligible".toList].map (fun key =>
    (rule.lookup key).map (fun expected =>
      truthy platform ((fact.assertion.lookup key).getD .null) == truthy platform expected)) ++
  [("score".toList, "score".toList), ("score".toList, "min_score".toList),
   ("score_percent".toList, "score_percent".toList),
   ("score_percent".toList, "min_score_percent".toList)].map (fun entry =>
    (rule.lookup entry.2).map (fun expected =>
      comparisonSatisfied platform (fact.assertion.lookup entry.1) expected)) ++
  [("membership_status".toList, "membership_status".toList), ("membership_status".toList, "status".toList),
   ("roles".toList, "roles_include".toList), ("roles".toList, "role".toList),
   ("roles".toList, "role_includes".toList)].map (fun entry =>
    (rule.lookup entry.2).map (fun expected =>
      stringRuleSatisfied platform (fact.assertion.lookup entry.1) expected))

def passRuleSatisfied (fact : EvidenceFact N) (requirement : Json N) : Exec Str Bool :=
  match ((asObject requirement).bind (fun mapping => mapping.lookup "pass_rule".toList)).bind asObject with
  | none => .ok true
  | some rule =>
    if rule = [] then .ok true
    else if ["all".toList, "any".toList, "not".toList, "path".toList].any (fun key => (rule.lookup key).isSome) then
      pathConditionSatisfied platform fact (.obj rule)
    else .ok (clausesHold false (ruleClauses platform fact rule))

def factSatisfiesRequirement (fact : EvidenceFact N) (requirement : Json N) : Exec Str Bool :=
  let requirementId := (requirementString requirement "requirement_id".toList).getD []
  let method := (requirementString requirement "verification_method".toList).getD []
  if requirementId ≠ [] ∧ fact.requirementId ≠ [] ∧ fact.requirementId ≠ requirementId then .ok false
  else if ¬ requirementIdentityMatches platform fact requirement true then .ok false
  else if method ≠ [] ∧ stringField fact.verification "method".toList ≠ method then .ok false
  else if ¬ scopeMatches platform fact.scope (requirementScope requirement) then .ok false
  else if factVerified platform fact then passRuleSatisfied platform fact requirement
  else .ok false

/-! ## The summary -/

/-- The built-in requirement. -/
def defaultRequirement : Json N := .str "canvas.course_completion".toList

/-- Not marked `"required": false`. -/
def isRequired (requirement : Json N) : Bool :=
  !((asObject requirement).bind (fun mapping => mapping.lookup "required".toList)).any isFalse

/-- The requirements that count: the non-optional ones, or the default when none are given at all. -/
def effectiveRequirements (requirements : List (Json N)) : List (Json N) :=
  if requirements.isEmpty then [defaultRequirement] else requirements.filter isRequired

/-- The scan over the facts for one requirement, up to the first that satisfies it. -/
def someSatisfies (requirement : Json N) : List (EvidenceFact N) → Exec Str Bool
  | [] => .ok false
  | fact :: rest => do
    if ← factSatisfiesRequirement platform fact requirement then return true else someSatisfies requirement rest

/-- A requirement with a scope that no fact of its identity is in. -/
def scopeMissed (facts : List (EvidenceFact N)) (requirement : Json N) : Bool :=
  let scope := requirementScope requirement
  !scope.isEmpty &&
    !(facts.filter (fun fact => requirementIdentityMatches platform fact requirement false)).any
      (fun fact => scopeMatches platform fact.scope scope)

/-- The loop over the requirements: the number satisfied and the scope flag. -/
def summaryLoop (facts : List (EvidenceFact N)) : List (Json N) → Nat × Bool → Exec Str (Nat × Bool)
  | [], summary => .ok summary
  | requirement :: rest, (satisfied, scopeMatched) => do
    let scopeMatched := scopeMatched && !scopeMissed platform facts requirement
    let found ← someSatisfies platform requirement facts
    summaryLoop facts rest (if found then satisfied + 1 else satisfied, scopeMatched)

/-- Required, satisfied, all satisfied, scope matched. -/
def summarizeRequirements (requirements : List (Json N)) (facts : List (EvidenceFact N)) :
    Exec Str (Nat × Nat × Bool × Bool) :=
  let effective := effectiveRequirements requirements
  if effective.isEmpty then .ok (0, 0, false, true)
  else do
    let (satisfied, scopeMatched) ← summaryLoop platform facts effective (0, true)
    return (effective.length, satisfied, decide (effective.length ≤ satisfied), scopeMatched)

/-- The status of the latest head, in upper case. -/
def latestStatus (latest : Option (EvidenceFact N)) : Str :=
  match latest with
  | none => "UNVERIFIED".toList
  | some fact =>
    let status := stringField fact.verification "status".toList
    if status = [] then "UNVERIFIED".toList else Str.toUppercase platform.unicode status

def buildContext (binding : Option BindingInput) (requirements : List (Json N))
    (facts : List (EvidenceFact N)) : Exec Str EvidenceContext := do
  let (required, satisfied, allSatisfied, scopeMatched) ← summarizeRequirements platform requirements facts
  let latest := facts.getLast?
  let requirementAutoIssue := requirements.any (fun requirement =>
    ((asObject requirement).bind (fun mapping => mapping.lookup "auto_issue_on_permit".toList)).any (truthy platform))
  return {
    riskScore := 0
    documentVerificationPassed := true
    biometricMatchScore := 100
    evidenceCount := facts.length
    applicantCountry := "US".toList
    evidenceProvider := latest.elim "canvas".toList EvidenceFact.provider
    evidenceFactType := latest.elim [] EvidenceFact.factType
    evidenceVerificationStatus := latestStatus platform latest
    evidenceScopeMatched := scopeMatched
    verifiedEvidenceCount := facts.countP (factVerified platform)
    requiredEvidenceCount := required
    satisfiedRequirementCount := satisfied
    allRequiredEvidenceSatisfied := allSatisfied
    autoIssueEligible := allSatisfied && (requirementAutoIssue || binding.any BindingInput.autoApproveOnEvidence) }

/-! ## The decision -/

structure EvidencePolicyDecision where
  allowed : Bool
  engine : Str
  policySource : Str
  policySetId : Option Str
  reasons : List Str
  errors : List Str
  context : EvidenceContext
deriving DecidableEq

def policyError (engine policySource : Str) (policySetId : Option Str) (error : Str)
    (context : EvidenceContext) : EvidencePolicyDecision :=
  ⟨false, engine, policySource, policySetId, [], [error], context⟩

def buildEntities (app : ApplicationInput) (facts : List (EvidenceFact N)) : List Entity :=
  let appUid : EntityUid := ⟨"MIP::Application".toList, app.id⟩
  let organization : EntityUid := ⟨"MIP::Organization".toList, app.organizationId⟩
  [⟨⟨serviceAccountType, serviceAccountId⟩, [("service_name".toList, .text serviceAccountId)], [organization]⟩,
   ⟨organization, [], []⟩,
   ⟨appUid, [("risk_score".toList, .long 0), ("status".toList, .text app.status)], [organization]⟩] ++
  facts.map (fun fact =>
    ⟨⟨"MIP::EvidenceFact".toList, fact.id⟩,
     [("provider".toList, .text fact.provider), ("fact_type".toList, .text fact.factType),
      ("subject_id".toList, .text fact.subjectId),
      ("verification_status".toList, .text (stringField fact.verification "status".toList))],
     [appUid, organization]⟩)

/-- The request put to Cedar. -/
def cedarRequest (app : ApplicationInput) (facts : List (EvidenceFact N)) (context : EvidenceContext) :
    CedarRequest where
  principal := ⟨serviceAccountType, serviceAccountId⟩
  action := approveAction
  resource := ⟨"MIP::Application".toList, app.id⟩
  context := context
  entities := buildEntities app facts

def authorize (app : ApplicationInput) (facts : List (EvidenceFact N)) (context : EvidenceContext)
    (policyText : PolicyText) : Except Str (Bool × List Str × List Str) := do
  let policies ← platform.policySetFromStr policyText
  platform.entitiesFromJsonValue (buildEntities app facts)
  platform.requestNew app.id context
  let request := cedarRequest app facts context
  let (reasons, errors) := platform.diagnostics policies request
  return (isAuthorized policies request, reasons.insertionSort (· ≤ ·), errors.insertionSort (· ≤ ·))

def normalizePolicyValue (value : Str) : Str := Str.toUppercase platform.unicode value.trim

/-- `fuel` bounds the nesting of JSON texts inside JSON texts. -/
def normalizeCedarPolicyText : Nat → Json N → Exec Str Str
  | 0, _ => .error .fuel
  | fuel + 1, .str value =>
    let stripped := value.trim
    if stripped = [] then .ok []
    else
      match platform.fromStr stripped with
      | some parsed => normalizeCedarPolicyText fuel parsed
      | none => .ok stripped
  | _ + 1, .arr values =>
    let texts := (values.filterMap asObject).filterMap (fun policy =>
      if (policy.lookup "enabled".toList).any isFalse then none
      else (((policy.lookup "cedar_text".toList).bind asStr).map Str.trim).filter (fun text => text ≠ []))
    .ok (List.intercalate "\n\n".toList texts)
  | fuel + 1, .obj value =>
    match value.lookup "cedar_policies".toList with
    | some policies => normalizeCedarPolicyText fuel policies
    | none =>
      if (value.lookup "enabled".toList).any isFalse then .ok []
      else .ok ((((value.lookup "cedar_text".toList).bind asStr).map Str.trim).getD [])
  | _ + 1, _ => .ok []

variable (request : EvaluationRequest N)

/-- The decision by a policy text; an error of Cedar is a refusal. -/
def decideBy (facts : List (EvidenceFact N)) (context : EvidenceContext)
    (policySource : Str) (policySetId : Option Str) (policyText : PolicyText) : EvidencePolicyDecision :=
  match authorize platform request.app facts context policyText with
  | .ok (allowed, reasons, errors) =>
    ⟨allowed, "cedar".toList, policySource, policySetId, reasons, errors, context⟩
  | .error error => ⟨false, "cedar".toList, policySource, policySetId, [], [error], context⟩

/-- The decision by the policy set with the given id. -/
def decideByPolicySet (facts : List (EvidenceFact N)) (context : EvidenceContext)
    (id : Str) : Exec Str EvidencePolicyDecision :=
  let refuse (engine error : Str) := policyError engine "policy_set".toList (some id) error context
  match request.policySet with
  | none => .ok (refuse "policy_set_unavailable".toList ("Approval PolicySet ".toList ++ id ++
      " was not found for organization ".toList ++ request.app.organizationId))
  | some policySet =>
    let policyType := normalizePolicyValue platform policySet.policyType
    if normalizePolicyValue platform policySet.status ≠ "ACTIVE".toList then
      .ok (refuse "policy_set_inactive".toList ("Approval PolicySet ".toList ++ id ++ " is not active".toList))
    else if policyType ≠ "APPROVAL_RULES".toList ∧ policyType ≠ "CUSTOM".toList then
      .ok (refuse "policy_set_wrong_type".toList ("PolicySet ".toList ++ id ++
        " has unsupported approval policy_type ".toList ++ platform.debugText policySet.policyType))
    else do
      let text ← normalizeCedarPolicyText platform
        ((Json.text platform.numberText policySet.cedarPolicies).length + 1) policySet.cedarPolicies
      if text = [] then
        return refuse "policy_set_empty".toList
          ("Approval PolicySet ".toList ++ id ++ " has no enabled Cedar policies".toList)
      else return decideBy platform request facts context "policy_set".toList (some id) (.custom text)

/-- The id on the binding, or else on the template. -/
def policySetId : Option Str :=
  (request.binding.bind BindingInput.approvalPolicySetId).or
    (request.template.bind TemplateInput.approvalPolicySetId)

def evaluate : Exec Str EvidencePolicyDecision := do
  let facts := currentHeads request.facts
  let context ← buildContext platform request.binding request.requirements facts
  match policySetId request with
  | some id => decideByPolicySet platform request facts context id
  | none => return decideBy platform request facts context "bundled".toList none .bundled

end MartyCore.Evidence
