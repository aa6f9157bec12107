import MartyCore.Governance.Model

/-!
# `Governance.Document` — what an accepted document satisfies

`parse_governance` is a sequence of loops of checks. `Valid` collects what they establish: profiles with unique
keys whose digests match, clients with unique ids and key digests, and every purpose of every client resolved
inside the client's own organisation. The later modules use `Valid` and never the loops.

The same field checks run on documents and on snapshots, with other field names in their messages. Whether a
check passes does not depend on the name (`FieldFree`), so a check passed in the document is passed in the
snapshot.
-/

namespace MartyCore.Governance

open Result

/-! ## Field names only appear in messages -/

/-- The name of the field does not decide whether the check passes. -/
def FieldFree (check : String → Except String Unit) : Prop :=
  ∀ field field', check field = .ok () → check field' = .ok ()

theorem fieldFree_reject {c : Prop} [Decidable c] (message : String → String) :
    FieldFree (fun field => Result.reject c (message field)) := by
  intro field field' h
  rw [reject_ok_iff] at h ⊢
  exact h

theorem FieldFree.bind {check check' : String → Except String Unit} (h : FieldFree check)
    (h' : FieldFree check') : FieldFree (fun field => check field >>= fun _ => check' field) := by
  intro field field' hok
  obtain ⟨_, hfirst, hrest⟩ := of_bind hok
  exact bind_ok_iff.mpr ⟨(), h field field' hfirst, h' field field' hrest⟩

/-- A value computed first, whatever the field. -/
theorem FieldFree.orFail_bind {α : Type} {message : String → String} {o : Option α}
    {check : α → String → Except String Unit} (h : ∀ a, FieldFree (check a)) :
    FieldFree (fun field => Result.orFail (message field) o >>= fun a => check a field) := by
  intro field field' hok
  obtain ⟨a, ha, hrest⟩ := of_bind hok
  rw [orFail_ok_iff] at ha
  exact bind_ok_iff.mpr ⟨a, orFail_ok_iff.mpr ha, h a field field' hrest⟩

/-- The check of a part, named after the field it is in. -/
theorem FieldFree.at {check : String → Except String Unit} (h : FieldFree check) (name : String → String) :
    FieldFree (fun field => check (name field)) :=
  fun field field' hok => h (name field) (name field') hok

theorem boundedText_fieldFree (value : Str) : FieldFree (boundedText value) := fieldFree_reject _

theorem lowercaseSha256_fieldFree (value : Str) (prefixed : Bool) :
    FieldFree (fun field => lowercaseSha256 value field prefixed) := by
  cases prefixed with
  | false => exact fieldFree_reject (fun field => field ++ " must be lowercase SHA-256")
  | true =>
    exact FieldFree.orFail_bind
      (fun _ => fieldFree_reject (fun field => field ++ " must be lowercase SHA-256"))

theorem canonicalUuid_fieldFree (value : Str) : FieldFree (canonicalUuid value) :=
  FieldFree.orFail_bind (fun _ => fieldFree_reject _)

theorem validateComponent_fieldFree (component : ComponentReference) : FieldFree (validateComponent component) :=
  ((boundedText_fieldFree _).at _).bind <| ((boundedText_fieldFree _).at _).bind <|
    ((lowercaseSha256_fieldFree _ _).at _).bind <| ((boundedText_fieldFree _).at _).bind <|
    ((boundedText_fieldFree _).at _).bind <| (fieldFree_reject _).bind (fieldFree_reject _)

theorem validatePolicyContent_fieldFree (content : PolicyContent) : FieldFree (validatePolicyContent content) :=
  ((boundedText_fieldFree _).at _).bind <| ((lowercaseSha256_fieldFree _ _).at _).bind <|
    (fieldFree_reject _).bind <| (fieldFree_reject _).bind (fieldFree_reject _)

section

variable {N : Type} {platform : Platform N}

/-! ## Profiles -/

section

variable {C : Type} {validateContent : C → String → Except String Unit} {toValue : C → Json N}
  {profile : ProfileDocument C}

theorem validateProfile_fieldFree (h : ∀ content, FieldFree (validateContent content)) :
    FieldFree (validateProfile platform validateContent toValue profile) :=
  ((canonicalUuid_fieldFree _).at _).bind <| ((boundedText_fieldFree _).at _).bind <|
    ((boundedText_fieldFree _).at _).bind <| ((lowercaseSha256_fieldFree _ _).at _).bind <|
    (h _).bind (fieldFree_reject _)

/-- An accepted profile carries the digest of its content. -/
theorem validateProfile_digest {field : String}
    (h : validateProfile platform validateContent toValue profile field = .ok ()) :
    profile.contentDigest = canonicalDigest platform.format platform.sha256 (toValue profile.content) := by
  obtain ⟨_, -, h⟩ := of_bind h
  obtain ⟨_, -, h⟩ := of_bind h
  obtain ⟨_, -, h⟩ := of_bind h
  obtain ⟨_, -, h⟩ := of_bind h
  obtain ⟨_, -, h⟩ := of_bind h
  exact (not_not.mp (reject_ok_iff.mp h)).symm

end

theorem validatePolicy_fieldFree (policy : PolicyDocument) : FieldFree (validatePolicy platform policy) :=
  validateProfile_fieldFree validatePolicyContent_fieldFree

theorem validateTrust_fieldFree (trust : TrustDocument) : FieldFree (validateTrust platform trust) :=
  validateProfile_fieldFree (fun _ => (fieldFree_reject _).bind (fieldFree_reject _))

/-- The key of a profile inside a document. -/
def profileKey {C : Type} (profile : ProfileDocument C) : Str × Str := (profile.organizationId, profile.id)

/-- The profiles the loop accepts: each passes its check, under some name, and no key occurs twice. -/
theorem validateProfiles_ok {C : Type} {validate : ProfileDocument C → String → Except String Unit}
    {list duplicate : String} {index : Nat} {seen : List (Str × Str)} {profiles : List (ProfileDocument C)}
    (h : validateProfiles validate list duplicate index seen profiles = .ok ()) :
    (∀ profile ∈ profiles, ∃ field, validate profile field = .ok ()) ∧ (profiles.map profileKey).Nodup ∧
      ∀ key ∈ profiles.map profileKey, key ∉ seen := by
  induction profiles generalizing index seen with
  | nil => simp
  | cons profile rest ih =>
    obtain ⟨_, hvalid, h⟩ := of_bind h
    obtain ⟨hnew, h⟩ := of_reject h
    obtain ⟨hrest, hkeys⟩ := ih h
    exact ⟨List.forall_mem_cons.mpr ⟨⟨_, hvalid⟩, hrest⟩, nodup_fresh_cons_iff.mpr ⟨hnew, hkeys⟩⟩

/-- Looking a profile up by its key, where keys are unique. -/
theorem findProfile_eq_some_iff {C : Type} {profiles : List (ProfileDocument C)}
    (hnodup : (profiles.map profileKey).Nodup) {organizationId id : Str} {profile : ProfileDocument C} :
    findProfile profiles organizationId id = some profile ↔
      profile ∈ profiles ∧ profile.organizationId = organizationId ∧ profile.id = id := by
  constructor
  · intro h
    exact ⟨List.mem_of_find?_eq_some h, by simpa using List.find?_some h⟩
  · rintro ⟨hmem, horg, hid⟩
    refine find?_eq_some_of_mem ?_ hmem (decide_eq_true ⟨horg, hid⟩)
    intro a ha b hb hpa hpb
    obtain ⟨ha', ha''⟩ := of_decide_eq_true hpa
    obtain ⟨hb', hb''⟩ := of_decide_eq_true hpb
    refine List.inj_on_of_nodup_map hnodup ha hb ?_
    rw [profileKey, profileKey, ha', ha'', hb', hb'']

/-! ## Clients -/

/-- A purpose of a client resolves inside the client's organisation, and its policy makes the checks the purpose
    calls for. -/
structure PurposeOk (governance : GovernanceDocument) (client : ClientAuthorization) (purpose : Str)
    (authorization : PurposeAuthorization) : Prop where
  supported : ∃ checks, requiredChecks purpose = .ok checks
  policy : ∃ policy, findProfile governance.policies client.organizationId authorization.policyId = some policy ∧
    requirePurposeChecks purpose policy.content.requiredChecks = .ok ()
  trust : ∃ trust, findProfile governance.trustProfiles client.organizationId authorization.trustProfileId = some trust

structure ClientOk (governance : GovernanceDocument) (client : ClientAuthorization) : Prop where
  clientId : boundedText client.clientId "" = .ok ()
  organizationId : canonicalUuid client.organizationId "" = .ok ()
  keyDigest : client.apiKeySha256.length = 64 ∧ client.apiKeySha256.all isLowercaseHex = true
  purposes : ∀ purpose authorization, client.purposes.get? purpose = some authorization →
    PurposeOk governance client purpose authorization

variable {governance : GovernanceDocument}

variable {client : ClientAuthorization} {field : String}

theorem validatePurpose_ok {purpose : Str} {authorization : PurposeAuthorization}
    (h : validatePurpose governance client field purpose authorization = .ok ()) :
    PurposeOk governance client purpose authorization := by
  obtain ⟨checks, hchecks, h⟩ := of_bind h
  obtain ⟨_, -, h⟩ := of_bind h
  obtain ⟨_, -, h⟩ := of_bind h
  obtain ⟨policy, hpolicy, h⟩ := of_bind h
  obtain ⟨htrust, h⟩ := of_reject h
  rw [orFail_ok_iff] at hpolicy
  refine ⟨⟨checks, hchecks⟩, ⟨policy, hpolicy, mapError_ok_iff.mp h⟩, ?_⟩
  rw [Option.isNone_iff_eq_none] at htrust
  exact Option.ne_none_iff_exists'.mp htrust

theorem validatePurposes_ok {purposes : List (Str × PurposeAuthorization)}
    (h : validatePurposes governance client field purposes = .ok ()) :
    ∀ entry ∈ purposes, PurposeOk governance client entry.1 entry.2 := by
  induction purposes with
  | nil => simp
  | cons entry rest ih =>
    obtain ⟨_, hone, hrest⟩ := of_bind h
    exact List.forall_mem_cons.mpr ⟨validatePurpose_ok hone, ih hrest⟩

theorem validateClient_ok {clientIds keyDigests : List Str}
    (h : validateClient governance field clientIds keyDigests client = .ok ()) :
    ClientOk governance client ∧ client.clientId ∉ clientIds ∧ client.apiKeySha256 ∉ keyDigests := by
  obtain ⟨_, hid, h⟩ := of_bind h
  obtain ⟨_, horg, h⟩ := of_bind h
  obtain ⟨_, hkey, h⟩ := of_bind h
  obtain ⟨-, h⟩ := of_reject h
  obtain ⟨hnewId, h⟩ := of_reject h
  obtain ⟨hnewKey, h⟩ := of_reject h
  refine ⟨⟨boundedText_fieldFree _ _ _ hid, canonicalUuid_fieldFree _ _ _ horg, ?_, ?_⟩, hnewId, hnewKey⟩
  · exact not_not.mp (reject_ok_iff.mp hkey)
  · intro purpose authorization hget
    exact validatePurposes_ok h (purpose, authorization) (SortedMap.mem_iff_get?.mpr hget)

/-- The clients the loop accepts. -/
theorem validateClients_ok {index : Nat} {clientIds keyDigests : List Str} {clients : List ClientAuthorization}
    (h : validateClients governance index clientIds keyDigests clients = .ok ()) :
    (∀ client ∈ clients, ClientOk governance client) ∧
    ((clients.map ClientAuthorization.clientId).Nodup ∧
      ∀ id ∈ clients.map ClientAuthorization.clientId, id ∉ clientIds) ∧
    (clients.map ClientAuthorization.apiKeySha256).Nodup ∧
      ∀ digest ∈ clients.map ClientAuthorization.apiKeySha256, digest ∉ keyDigests := by
  induction clients generalizing index clientIds keyDigests with
  | nil => simp
  | cons client rest ih =>
    obtain ⟨_, hone, hrest⟩ := of_bind h
    obtain ⟨hok, hnewId, hnewKey⟩ := validateClient_ok hone
    obtain ⟨hall, hids, hkeys⟩ := ih hrest
    exact ⟨List.forall_mem_cons.mpr ⟨hok, hall⟩, nodup_fresh_cons_iff.mpr ⟨hnewId, hids⟩,
      nodup_fresh_cons_iff.mpr ⟨hnewKey, hkeys⟩⟩

/-! ## The document -/

/-- **What `parse_governance` establishes.** -/
structure Valid (platform : Platform N) (governance : GovernanceDocument) : Prop where
  component : validateComponent governance.component "" = .ok ()
  policies : ∀ policy ∈ governance.policies, validatePolicy platform policy "" = .ok ()
  policyKeys : (governance.policies.map profileKey).Nodup
  trustProfiles : ∀ trust ∈ governance.trustProfiles, validateTrust platform trust "" = .ok ()
  trustKeys : (governance.trustProfiles.map profileKey).Nodup
  clients : ∀ client ∈ governance.clients, ClientOk governance client
  clientIds : (governance.clients.map ClientAuthorization.clientId).Nodup
  keyDigests : (governance.clients.map ClientAuthorization.apiKeySha256).Nodup

theorem valid_of_parse {raw : Str} (h : parseGovernance platform raw = .ok governance) : Valid platform governance := by
  obtain ⟨document, -, h⟩ := of_bind h
  obtain ⟨_, hvalid, h⟩ := of_bind h
  cases h
  obtain ⟨_, hcomponent, h⟩ := of_bind hvalid
  obtain ⟨-, h⟩ := of_reject h
  obtain ⟨_, hpolicies, h⟩ := of_bind h
  obtain ⟨_, htrust, hclients⟩ := of_bind h
  obtain ⟨hpolicies, hpolicyKeys, -⟩ := validateProfiles_ok hpolicies
  obtain ⟨htrust, htrustKeys, -⟩ := validateProfiles_ok htrust
  obtain ⟨hclients, ⟨hids, -⟩, hkeys, -⟩ := validateClients_ok hclients
  refine ⟨validateComponent_fieldFree _ _ _ hcomponent, ?_, hpolicyKeys, ?_, htrustKeys, hclients, hids, hkeys⟩
  · intro policy hpolicy
    obtain ⟨field, hok⟩ := hpolicies policy hpolicy
    exact validatePolicy_fieldFree policy field "" hok
  · intro trust hmem
    obtain ⟨field, hok⟩ := htrust trust hmem
    exact validateTrust_fieldFree trust field "" hok

end
end MartyCore.Governance
