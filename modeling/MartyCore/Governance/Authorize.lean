import Mathlib.Data.Nat.Bitwise
import MartyCore.Governance.Document

/-!
# `Governance.Authorize` — who is granted what

A valid document grants a client, for a purpose, one snapshot (`Grants`): the client's authorization for the
purpose and the two profiles it names in the client's own organisation. Both resolvers are specified by it.
`authorize` finds the client by the digest of the API key, scanning all of them and keeping the last match;
digests are unique, so there is at most one. `resume` finds it by its id, which is unique too.

From there: what an organisation is granted depends on that organisation's part of the document only
(`tenant_isolation`), and the two resolvers agree (`authorize_resume_agree`).
-/

namespace MartyCore.Governance

open List

/-! ## Digests -/

/-- Comparing in constant time is comparing. -/
theorem constantTimeEqual_iff (left right : Bytes) : constantTimeEqual left right = true ↔ left = right := by
  unfold constantTimeEqual
  rw [decide_eq_true_iff,
    foldl_eq_zero_iff _ (fun index => (left.getD index 0 ^^^ right.getD index 0).toNat) (fun _ _ => Nat.or_eq_zero_iff),
    Nat.xor_eq_zero_iff]
  constructor
  · rintro ⟨hlen, hbytes⟩
    refine ext_getElem hlen (fun i hi hi' => ?_)
    have hxor := hbytes i (mem_range.mpr (lt_of_lt_of_le hi (le_max_left _ _)))
    rw [getD_eq_getElem?_getD, getD_eq_getElem?_getD, getElem?_eq_getElem hi, getElem?_eq_getElem hi'] at hxor
    exact UInt8.xor_eq_zero_iff.mp (UInt8.toNat_inj.mp hxor)
  · rintro rfl
    exact ⟨rfl, fun i _ => by simp⟩

theorem hexDigitValue_hexDigit {d : Nat} (h : d < 16) : hexDigitValue (Json.hexDigit d) = some d := by
  have hall : ∀ n : Fin 16, hexDigitValue (Json.hexDigit n) = some n.val := by decide
  exact hall ⟨d, h⟩

theorem isLowercaseHex_spec {c : Char} (h : isLowercaseHex c = true) :
    ∃ d, d < 16 ∧ hexDigitValue c = some d ∧ Json.hexDigit d = c := by
  have hall : ∀ n : Fin 128, isLowercaseHex (Char.ofNat n) = true →
      ∃ d : Fin 16, hexDigitValue (Char.ofNat n) = some d.val ∧ Json.hexDigit d = Char.ofNat n := by
    decide
  have hascii : Text.isAscii c = true := by
    rw [isLowercaseHex, Bool.or_eq_true, Bool.and_eq_true, decide_eq_true_eq, decide_eq_true_eq] at h
    rcases h with hdigit | hletter
    · exact Text.isAscii_of_isAlphanum (by simp [Char.isAlphanum, hdigit])
    · exact Text.isAscii_of_le (by decide) hletter.2
  refine Text.forall_isAscii (P := fun c => isLowercaseHex c = true →
    ∃ d, d < 16 ∧ hexDigitValue c = some d ∧ Json.hexDigit d = c) ?_ hascii h
  intro n hn
  obtain ⟨d, hvalue, hdigit⟩ := hall n hn
  exact ⟨d, d.isLt, hvalue, hdigit⟩

theorem toNat_nibbles {high low : Nat} (hhigh : high < 16) (hlow : low < 16) :
    (UInt8.ofNat ((high <<< 4) ||| low)).toNat = 16 * high + low := by
  have hall : ∀ h l : Fin 16, (UInt8.ofNat ((h.val <<< 4) ||| l.val)).toNat = 16 * h.val + l.val := by
    decide
  exact hall ⟨high, hhigh⟩ ⟨low, hlow⟩

theorem decodeHex_hexText (bytes : Bytes) : decodeHex (hexText bytes) = some bytes := by
  induction bytes with
  | nil => rfl
  | cons b rest ih =>
    have hlt := b.toNat_lt
    have hhigh : b.toNat / 16 < 16 := by omega
    have hlow : b.toNat % 16 < 16 := by omega
    have hbyte : UInt8.ofNat ((b.toNat / 16) <<< 4 ||| b.toNat % 16) = b := by
      apply UInt8.toNat_inj.mp
      rw [toNat_nibbles hhigh hlow]
      omega
    show decodeHex (_ :: _ :: hexText rest) = _
    simp only [decodeHex, hexDigitValue_hexDigit hhigh, hexDigitValue_hexDigit hlow, ih, hbyte,
      Option.bind_eq_bind, Option.bind_some]
    rfl

/-- A lower-case text is the only one of its kind for its bytes. -/
theorem eq_hexText_of_decodeHex {text : Str} {bytes : Bytes} (hlower : ∀ c ∈ text, isLowercaseHex c = true)
    (h : decodeHex text = some bytes) : text = hexText bytes := by
  induction text using decodeHex.induct generalizing bytes with
  | case1 =>
    cases h
    rfl
  | case2 c => cases h
  | case3 high low rest ih =>
    rw [forall_mem_cons, forall_mem_cons] at hlower
    obtain ⟨d, hd, hvalue, hdigit⟩ := isLowercaseHex_spec hlower.1
    obtain ⟨e, he, hvalue', hdigit'⟩ := isLowercaseHex_spec hlower.2.1
    simp only [decodeHex, hvalue, hvalue', Option.bind_eq_bind, Option.bind_some] at h
    obtain ⟨tail, htail, h⟩ := Option.bind_eq_some_iff.mp h
    cases h
    have htail := ih hlower.2.2 htail
    show high :: low :: rest = [_, _] ++ hexText tail
    rw [toNat_nibbles hd he, ← htail, show (16 * d + e) / 16 = d by omega, show (16 * d + e) % 16 = e by omega,
      hdigit, hdigit']
    rfl

section

variable {N : Type} {platform : Platform N} {governance : GovernanceDocument}

/-- The digest of an API key, as clients are registered with it. -/
def keyDigest (platform : Platform N) (apiKey : Str) : Str :=
  hexText (platform.sha256 (Str.bytes apiKey)).bytes

variable {client : ClientAuthorization}

/-- The scan finds the client registered with the digest, and no other. -/
theorem matchClient_eq_some_iff (hv : Valid platform governance) {supplied : Bytes} (hne : supplied ≠ []) :
    matchClient supplied governance.clients = some client ↔
      client ∈ governance.clients ∧ client.apiKeySha256 = hexText supplied := by
  have hmatch : ∀ c ∈ governance.clients,
      constantTimeEqual supplied ((decodeHex c.apiKeySha256).getD []) = true ↔ c.apiKeySha256 = hexText supplied := by
    intro c hc
    rw [constantTimeEqual_iff]
    constructor
    · intro heq
      cases hdecode : decodeHex c.apiKeySha256 with
      | none =>
        rw [hdecode] at heq
        exact absurd heq hne
      | some bytes =>
        rw [hdecode] at heq
        have hlower := all_eq_true.mp (hv.clients c hc).keyDigest.2
        exact eq_hexText_of_decodeHex hlower (heq ▸ hdecode)
    · intro heq
      rw [heq, decodeHex_hexText]
      rfl
  have hone : AtMostOne (fun c => constantTimeEqual supplied ((decodeHex c.apiKeySha256).getD []))
      governance.clients := by
    intro a ha b hb hpa hpb
    refine inj_on_of_nodup_map hv.keyDigests ha hb ?_
    rw [(hmatch a ha).mp hpa, (hmatch b hb).mp hpb]
  unfold matchClient
  rw [foldl_last_eq_find? hone]
  constructor
  · intro hfind
    have hmem := mem_of_find?_eq_some hfind
    have hp := find?_some hfind
    exact ⟨hmem, (hmatch client hmem).mp hp⟩
  · rintro ⟨hmem, hdigest⟩
    exact find?_eq_some_of_mem hone hmem ((hmatch client hmem).mpr hdigest)

/-! ## Grants -/

/-- **What a document grants** a client for a purpose: the snapshot of the two profiles that the client's
    authorization names in its own organisation. -/
def Grants (governance : GovernanceDocument) (client : ClientAuthorization) (purpose : Str)
    (issued : GovernanceSnapshot) : Prop :=
  ∃ authorization policy trust, client.purposes.get? purpose = some authorization ∧
    (policy ∈ governance.policies ∧ policy.organizationId = client.organizationId ∧
      policy.id = authorization.policyId) ∧
    (trust ∈ governance.trustProfiles ∧ trust.organizationId = client.organizationId ∧
      trust.id = authorization.trustProfileId) ∧
    issued = snapshot governance client purpose policy trust

variable {purpose : Str}

/-- A valid document grants something for every purpose of a client: the references resolve. -/
theorem Valid.profiles (hv : Valid platform governance) (hclient : client ∈ governance.clients)
    {authorization : PurposeAuthorization} (hauth : client.purposes.get? purpose = some authorization) :
    ∃ policy trust,
      findProfile governance.policies client.organizationId authorization.policyId = some policy ∧
      findProfile governance.trustProfiles client.organizationId authorization.trustProfileId = some trust ∧
      Grants governance client purpose (snapshot governance client purpose policy trust) := by
  have hpurpose := (hv.clients client hclient).purposes purpose authorization hauth
  obtain ⟨policy, hpolicy, -⟩ := hpurpose.policy
  obtain ⟨trust, htrust⟩ := hpurpose.trust
  exact ⟨policy, trust, hpolicy, htrust, authorization, policy, trust, hauth,
    (findProfile_eq_some_iff hv.policyKeys).mp hpolicy, (findProfile_eq_some_iff hv.trustKeys).mp htrust, rfl⟩

/-- A client is granted one snapshot for a purpose. -/
theorem Grants.unique (hv : Valid platform governance) {s s' : GovernanceSnapshot}
    (h : Grants governance client purpose s) (h' : Grants governance client purpose s') : s = s' := by
  obtain ⟨authorization, policy, trust, hauth, hpolicy, htrust, rfl⟩ := h
  obtain ⟨authorization', policy', trust', hauth', hpolicy', htrust', rfl⟩ := h'
  obtain rfl : authorization = authorization' := Option.some.inj (hauth.symm.trans hauth')
  rw [← findProfile_eq_some_iff hv.policyKeys] at hpolicy hpolicy'
  rw [← findProfile_eq_some_iff hv.trustKeys] at htrust htrust'
  obtain rfl : policy = policy' := Option.some.inj (hpolicy.symm.trans hpolicy')
  obtain rfl : trust = trust' := Option.some.inj (htrust.symm.trans htrust')
  rfl

/-- A key digest belongs to one client. -/
theorem Valid.client_eq (hv : Valid platform governance) {client other : ClientAuthorization} {digest : Str}
    (hclient : client ∈ governance.clients) (hother : other ∈ governance.clients)
    (hdigest : client.apiKeySha256 = digest) (hdigest' : other.apiKeySha256 = digest) : other = client :=
  inj_on_of_nodup_map hv.keyDigests hother hclient (hdigest'.trans hdigest.symm)

/-! ## Authorization -/

/-- An API key of acceptable length. -/
def KeyOk (apiKey : Str) : Prop := ¬ (apiKey = [] ∨ 4096 < apiKey.len)

/-- The one message an unauthorized call gets. -/
def refusal (purpose : Str) : String :=
  match requiredChecks purpose with
  | .ok _ => "Invalid or unauthorized API key"
  | .error _ => "Unsupported verification purpose"

theorem sha256_ne_nil (platform : Platform N) (apiKey : Str) : (platform.sha256 (Str.bytes apiKey)).bytes ≠ [] := by
  intro hnil
  have hlen := (platform.sha256 (Str.bytes apiKey)).length_eq
  rw [hnil] at hlen
  cases hlen

/-- **`authorize` on a valid document**: it issues the grant of the client registered with the key's digest, or
    refuses with the message for the purpose. It never panics. -/
theorem authorize_cases (hv : Valid platform governance) (apiKey purpose : Str) :
    (∃ client ∈ governance.clients, client.apiKeySha256 = keyDigest platform apiKey ∧ KeyOk apiKey ∧
      ∃ issued, Grants governance client purpose issued ∧ authorize platform governance apiKey purpose = .ok issued) ∨
    (authorize platform governance apiKey purpose = Exec.fail (refusal purpose) ∧
      ¬ ∃ client ∈ governance.clients, client.apiKeySha256 = keyDigest platform apiKey ∧ KeyOk apiKey ∧
        ∃ issued, Grants governance client purpose issued) := by
  unfold authorize refusal
  cases hchecks : requiredChecks purpose with
  | error e =>
    -- a purpose of a registered client is supported, so nothing is granted for this one
    refine .inr ⟨rfl, ?_⟩
    rintro ⟨client, hclient, -, -, issued, authorization, _, _, hauth, -⟩
    obtain ⟨checks, hsupported⟩ := ((hv.clients client hclient).purposes purpose authorization hauth).supported
    rw [hchecks] at hsupported
    cases hsupported
  | ok checks =>
    simp only [show Except.mapError (fun _ => Fault.err "Unsupported verification purpose") (.ok checks) =
      (.ok checks : Exec String (List Str)) from rfl, Result.ok_bind]
    by_cases hlen : apiKey = [] ∨ 4096 < apiKey.len
    · exact .inr ⟨Exec.reject_pos_bind hlen, fun ⟨_, _, _, hok, _⟩ => hok hlen⟩
    · rw [Exec.reject_neg_bind hlen]
      cases hmatch : matchClient (platform.sha256 (Str.bytes apiKey)).bytes governance.clients with
      | none =>
        refine .inr ⟨Exec.orFail_none_bind, ?_⟩
        rintro ⟨client, hclient, hdigest, -⟩
        rw [(matchClient_eq_some_iff hv (sha256_ne_nil platform apiKey)).mpr ⟨hclient, hdigest⟩] at hmatch
        cases hmatch
      | some client =>
        obtain ⟨hclient, hdigest⟩ := (matchClient_eq_some_iff hv (sha256_ne_nil platform apiKey)).mp hmatch
        rw [Exec.orFail_some_bind]
        cases hauth : client.purposes.get? purpose with
        | none =>
          refine .inr ⟨Exec.orFail_none_bind, ?_⟩
          rintro ⟨other, hother, hdigest', -, issued, authorization, _, _, hauth', -⟩
          rw [hv.client_eq hclient hother hdigest hdigest', hauth] at hauth'
          cases hauth'
        | some authorization =>
          obtain ⟨policy, trust, hpolicy, htrust, hgrants⟩ := hv.profiles hclient hauth
          refine .inl ⟨client, hclient, hdigest, hlen, _, hgrants, ?_⟩
          rw [Exec.orFail_some_bind, hpolicy, Exec.expect_some_bind, htrust, Exec.expect_some_bind]
          rfl

variable {issued : GovernanceSnapshot} {apiKey : Str}

/-- The successful calls: a key of acceptable length, registered for a client that is granted the snapshot. -/
theorem authorize_ok_iff (hv : Valid platform governance) :
    authorize platform governance apiKey purpose = .ok issued ↔
      ∃ client ∈ governance.clients, client.apiKeySha256 = keyDigest platform apiKey ∧ KeyOk apiKey ∧
        Grants governance client purpose issued := by
  rcases authorize_cases hv apiKey purpose with
    ⟨client, hclient, hdigest, hkey, issued', hgrants, heq⟩ | ⟨heq, hnone⟩
  · rw [heq]
    constructor
    · intro h
      injection h with h
      exact ⟨client, hclient, hdigest, hkey, h ▸ hgrants⟩
    · rintro ⟨other, hother, hdigest', -, hgrants'⟩
      obtain rfl := hv.client_eq hclient hother hdigest hdigest'
      rw [hgrants.unique hv hgrants']
  · rw [heq]
    constructor
    · intro h
      cases h
    · rintro ⟨client, hclient, hdigest, hkey, hgrants⟩
      exact absurd ⟨client, hclient, hdigest, hkey, issued, hgrants⟩ hnone

/-! ## Isolation -/

/-- Two documents agree on an organisation: on the component, and on its policies, trust profiles and clients as
    sets. Nothing is said about other organisations or about the order of the lists. -/
structure AgreeOn (organizationId : Str) (governance governance' : GovernanceDocument) : Prop where
  component : governance.component = governance'.component
  policies : ∀ policy : PolicyDocument, policy.organizationId = organizationId →
    (policy ∈ governance.policies ↔ policy ∈ governance'.policies)
  trustProfiles : ∀ trust : TrustDocument, trust.organizationId = organizationId →
    (trust ∈ governance.trustProfiles ↔ trust ∈ governance'.trustProfiles)
  clients : ∀ client : ClientAuthorization, client.organizationId = organizationId →
    (client ∈ governance.clients ↔ client ∈ governance'.clients)

variable {governance governance' : GovernanceDocument} {organizationId : Str}

theorem AgreeOn.symm
    (h : AgreeOn organizationId governance governance') : AgreeOn organizationId governance' governance where
  component := h.component.symm
  policies := fun policy horg => (h.policies policy horg).symm
  trustProfiles := fun trust horg => (h.trustProfiles trust horg).symm
  clients := fun client horg => (h.clients client horg).symm

/-- What a client is granted depends on its organisation's part of the document. -/
theorem AgreeOn.grants
    (h : AgreeOn organizationId governance governance') (hclient : client.organizationId = organizationId)
    (hgrants : Grants governance client purpose issued) :
    Grants governance' client purpose issued := by
  obtain ⟨authorization, policy, trust, hauth, ⟨hpolicy, hporg, hpid⟩, ⟨htrust, htorg, htid⟩, rfl⟩ := hgrants
  refine ⟨authorization, policy, trust, hauth, ⟨?_, hporg, hpid⟩, ⟨?_, htorg, htid⟩, ?_⟩
  · exact (h.policies policy (hporg.trans hclient)).mp hpolicy
  · exact (h.trustProfiles trust (htorg.trans hclient)).mp htrust
  · rw [snapshot, snapshot, h.component]

/-- A key of the organisation is authorized in one document as in the other. -/
theorem AgreeOn.authorize_ok
    (h : AgreeOn organizationId governance governance') (hv : Valid platform governance)
    (hv' : Valid platform governance') (hclient : client ∈ governance.clients)
    (horg : client.organizationId = organizationId)
    (hdigest : client.apiKeySha256 = keyDigest platform apiKey)
    (hok : authorize platform governance apiKey purpose = .ok issued) :
    authorize platform governance' apiKey purpose = .ok issued := by
  obtain ⟨other, hother, hdigest', hkey, hgrants⟩ := (authorize_ok_iff hv).mp hok
  obtain rfl := hv.client_eq hclient hother hdigest hdigest'
  exact (authorize_ok_iff hv').mpr
    ⟨other, (h.clients other horg).mp hclient, hdigest, hkey, h.grants horg hgrants⟩

/-- **Tenant isolation.** On two accepted documents that agree on an organisation, every API key of a client of
    that organisation gets the same answer for every purpose. An issued snapshot carries profiles of the
    matched client's own organisation with the digests of their contents, and no call panics. -/
theorem tenant_isolation (platform : Platform N) :
    (∀ raw raw' governance governance' organizationId, parseGovernance platform raw = .ok governance →
      parseGovernance platform raw' = .ok governance' → AgreeOn organizationId governance governance' →
      ∀ client ∈ governance.clients, client.organizationId = organizationId →
      ∀ apiKey, client.apiKeySha256 = keyDigest platform apiKey →
      ∀ purpose, authorize platform governance apiKey purpose = authorize platform governance' apiKey purpose) ∧
    (∀ raw governance, parseGovernance platform raw = .ok governance → ∀ apiKey purpose,
      (∀ message, authorize platform governance apiKey purpose ≠ .error (.panic message)) ∧
      ∀ issued, authorize platform governance apiKey purpose = .ok issued →
        ∃ client ∈ governance.clients, client.apiKeySha256 = keyDigest platform apiKey ∧
          issued.clientId = client.clientId ∧ issued.organizationId = client.organizationId ∧
          (∃ policy ∈ governance.policies, policy.organizationId = client.organizationId ∧
            issued.policy = freeze policy) ∧
          (∃ trust ∈ governance.trustProfiles, trust.organizationId = client.organizationId ∧
            issued.trustProfile = freeze trust) ∧
          issued.policy.reference.contentDigest =
            canonicalDigest platform.format platform.sha256 issued.policy.content.toValue ∧
          issued.trustProfile.reference.contentDigest =
            canonicalDigest platform.format platform.sha256 issued.trustProfile.content.toValue) := by
  constructor
  · intro raw raw' governance governance' organizationId hg hg' hagree client hclient horg apiKey hdigest purpose
    have hv := valid_of_parse hg
    have hv' := valid_of_parse hg'
    have hclient' := (hagree.clients client horg).mp hclient
    -- one of the two issues a snapshot exactly when the other does, and a refusal has one message
    rcases authorize_cases hv apiKey purpose with ⟨_, _, _, _, issued, _, heq⟩ | ⟨heq, hnone⟩
    · rw [heq, hagree.authorize_ok hv hv' hclient horg hdigest heq]
    · rcases authorize_cases hv' apiKey purpose with ⟨_, _, _, _, issued, _, heq'⟩ | ⟨heq', -⟩
      · rw [hagree.symm.authorize_ok hv' hv hclient' horg hdigest heq'] at heq
        cases heq
      · rw [heq, heq']
  · intro raw governance hg apiKey purpose
    have hv := valid_of_parse hg
    constructor
    · intro message hpanic
      rcases authorize_cases hv apiKey purpose with ⟨_, _, _, _, issued, _, heq⟩ | ⟨heq, -⟩
      · rw [hpanic] at heq
        cases heq
      · rw [hpanic] at heq
        cases heq
    · intro issued hok
      obtain ⟨client, hclient, hdigest, -, authorization, policy, trust, -, ⟨hpolicy, hporg, -⟩,
        ⟨htrust, htorg, -⟩, rfl⟩ := (authorize_ok_iff hv).mp hok
      exact ⟨client, hclient, hdigest, rfl, rfl, ⟨policy, hpolicy, hporg, rfl⟩, ⟨trust, htrust, htorg, rfl⟩,
        validateProfile_digest (hv.policies policy hpolicy),
        validateProfile_digest (hv.trustProfiles trust htrust)⟩

end

/-! ## A document with two tenants -/

def zeroDigest : Str := hexText (List.replicate 32 0)

def sampleComponent : ComponentReference :=
  ⟨credentialsComponentId, ['1'], "sha256:".toList ++ zeroDigest, verificationAdapterId, ['1']⟩

def samplePolicy (organization : Nat) : PolicyDocument :=
  ⟨uuidText organization, ['p'], ['1'], "sha256:".toList ++ zeroDigest,
    ⟨['v'], "sha256:".toList ++ zeroDigest, vdsChecks⟩⟩

def sampleTrust : TrustDocument :=
  ⟨uuidText 0, ['t'], ['1'], "sha256:".toList ++ zeroDigest, ⟨["did:web:issuer".toList], false⟩⟩

def sampleClient : ClientAuthorization :=
  ⟨['c'], zeroDigest, uuidText 0, SortedMap.empty.insert vdsNcVerifyPurpose ⟨['p'], ['t']⟩⟩

/-- One tenant; the other document has a second one in front. -/
def sampleGovernance : GovernanceDocument := ⟨sampleComponent, [samplePolicy 0], [sampleTrust], [sampleClient]⟩

def sharedGovernance : GovernanceDocument :=
  { sampleGovernance with policies := [samplePolicy 1, samplePolicy 0] }

def sampleSnapshot : GovernanceSnapshot :=
  snapshot sampleGovernance sampleClient vdsNcVerifyPurpose (samplePolicy 0) sampleTrust

/-- A platform with one digest. -/
def samplePlatform : Platform Nat where
  sha256 := fun _ => .zero
  format := Json.decimal
  documentFromStr := fun raw => .ok (if raw = [] then sampleGovernance else sharedGovernance)
  snapshotFromValue := fun _ => .ok sampleSnapshot

theorem parse_sampleGovernance : parseGovernance samplePlatform [] = .ok sampleGovernance := by
  have hvalid : validateGovernance samplePlatform sampleGovernance = .ok () := by decide
  exact Result.bind_ok_iff.mpr ⟨sampleGovernance, rfl, Result.bind_ok_iff.mpr ⟨(), hvalid, rfl⟩⟩

theorem parse_sharedGovernance : parseGovernance samplePlatform ['s'] = .ok sharedGovernance := by
  have hvalid : validateGovernance samplePlatform sharedGovernance = .ok () := by decide
  exact Result.bind_ok_iff.mpr ⟨sharedGovernance, rfl, Result.bind_ok_iff.mpr ⟨(), hvalid, rfl⟩⟩

theorem authorize_sampleGovernance :
    authorize samplePlatform sampleGovernance ['k'] vdsNcVerifyPurpose = .ok sampleSnapshot := by decide

/-- The two documents differ in another tenant's policy only. -/
theorem agreeOn_sharedGovernance : AgreeOn (uuidText 0) sampleGovernance sharedGovernance where
  component := rfl
  policies := by
    intro policy horg
    have hother : policy ≠ samplePolicy 1 := by
      rintro rfl
      exact absurd horg (by decide)
    show policy ∈ [samplePolicy 0] ↔ policy ∈ [samplePolicy 1, samplePolicy 0]
    simp [hother]
  trustProfiles := fun _ _ => Iff.rfl
  clients := fun _ _ => Iff.rfl

theorem tenant_isolation_sharedGovernance :
    authorize samplePlatform sharedGovernance ['k'] vdsNcVerifyPurpose = .ok sampleSnapshot ∧
    ∃ client ∈ sampleGovernance.clients, sampleSnapshot.organizationId = client.organizationId := by
  obtain ⟨hsame, hissued⟩ := tenant_isolation samplePlatform
  have hagree := hsame [] ['s'] _ _ (uuidText 0) parse_sampleGovernance parse_sharedGovernance
    agreeOn_sharedGovernance sampleClient mem_cons_self rfl ['k'] rfl vdsNcVerifyPurpose
  obtain ⟨client, hclient, -, -, horg, -⟩ :=
    (hissued [] _ parse_sampleGovernance ['k'] vdsNcVerifyPurpose).2 _ authorize_sampleGovernance
  exact ⟨hagree ▸ authorize_sampleGovernance, client, hclient, horg⟩

end MartyCore.Governance
