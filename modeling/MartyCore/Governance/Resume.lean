import MartyCore.Governance.Authorize

/-!
# `Governance.Resume` — persisted snapshots against the current document

A snapshot is issued by key digest and revalidated by client id, with two sets of checks: those of the document
and those of `parse_snapshot`. On a valid document both resolvers are the grant relation, so an issued snapshot
passes its checks and resumes to itself, and whatever is resumed is what the client named in the snapshot would be
issued now.
-/

namespace MartyCore.Governance

variable {N : Type} {platform : Platform N} {governance : GovernanceDocument}

/-! ## The resolver by client id -/

variable {client : ClientAuthorization}

theorem find_client_eq_some_iff (hv : Valid platform governance) {clientId organizationId : Str} :
    (governance.clients.find? (fun client => client.clientId = clientId)).filter
        (fun client => client.organizationId = organizationId) = some client ↔
      client ∈ governance.clients ∧ client.clientId = clientId ∧ client.organizationId = organizationId := by
  rw [Option.filter_eq_some_iff]
  constructor
  · rintro ⟨hfind, horg⟩
    have hid := List.find?_some hfind
    simp only [decide_eq_true_eq] at hid horg
    exact ⟨List.mem_of_find?_eq_some hfind, hid, horg⟩
  · rintro ⟨hmem, hid, horg⟩
    exact ⟨find?_eq_some_of_mem (atMostOne_of_nodup_map hv.clientIds clientId) hmem (decide_eq_true hid),
      decide_eq_true horg⟩

/-- **`resume` on a valid document** returns the grant of the named client, if the frozen profiles are still the
    granted ones. -/
theorem resume_ok_iff (hv : Valid platform governance) {frozen resumed : GovernanceSnapshot} :
    resume governance frozen = .ok resumed ↔
      ∃ client ∈ governance.clients, client.clientId = frozen.clientId ∧
        client.organizationId = frozen.organizationId ∧ Grants governance client frozen.purpose resumed ∧
        frozen.policy = resumed.policy ∧ frozen.trustProfile = resumed.trustProfile := by
  unfold resume
  simp only [Result.bind_ok_iff, Result.reject_ok_iff, Result.orFail_ok_iff, find_client_eq_some_iff hv,
    findProfile_eq_some_iff hv.policyKeys, findProfile_eq_some_iff hv.trustKeys, exists_const, not_or, ne_eq,
    not_not]
  constructor
  · rintro ⟨client, ⟨hclient, hid, horg⟩, authorization, hauth, -, policy, ⟨hpolicy, hporg, hpid⟩, trust,
      ⟨htrust, htorg, htid⟩, ⟨hsame, hsame'⟩, hresumed⟩
    cases hresumed
    exact ⟨client, hclient, hid, horg, ⟨authorization, policy, trust, hauth,
      ⟨hpolicy, hporg.trans horg.symm, hpid⟩, ⟨htrust, htorg.trans horg.symm, htid⟩, rfl⟩, hsame, hsame'⟩
  · rintro ⟨client, hclient, hid, horg, ⟨authorization, policy, trust, hauth, ⟨hpolicy, hporg, hpid⟩,
      ⟨htrust, htorg, htid⟩, rfl⟩, hsame, hsame'⟩
    refine ⟨client, ⟨hclient, hid, horg⟩, authorization, hauth, ⟨?_, ?_⟩, policy,
      ⟨hpolicy, hporg.trans horg, hpid⟩, trust, ⟨htrust, htorg.trans horg, htid⟩, ⟨hsame, hsame'⟩, rfl⟩
    -- equal profiles have equal ids
    · rw [hsame]
      exact hpid.symm
    · rw [hsame']
      exact htid.symm

/-! ## The checks of a snapshot -/

/-- A granted snapshot passes every check of `parse_snapshot`. -/
theorem validateSnapshot_of_grants (hv : Valid platform governance)
    (hclient : client ∈ governance.clients) {purpose : Str} {issued : GovernanceSnapshot}
    (hgrants : Grants governance client purpose issued) : validateSnapshot platform issued = .ok () := by
  obtain ⟨authorization, policy, trust, hauth, ⟨hpolicy, hporg, hpid⟩, ⟨htrust, htorg, -⟩, rfl⟩ := hgrants
  have hok := hv.clients client hclient
  have hpurpose := hok.purposes purpose authorization hauth
  obtain ⟨checks, hchecks⟩ := hpurpose.supported
  -- the policy found when the document was parsed is the one in the snapshot
  obtain ⟨policy', hfound, hrequired⟩ := hpurpose.policy
  obtain rfl : policy = policy' := by
    rw [(findProfile_eq_some_iff hv.policyKeys).mpr ⟨hpolicy, hporg, hpid⟩] at hfound
    exact Option.some.inj hfound
  have hpolicyDocument : (freeze policy).document client.organizationId = policy := by
    rw [← hporg]
    rfl
  have htrustDocument : (freeze trust).document client.organizationId = trust := by
    rw [← htorg]
    rfl
  unfold validateSnapshot
  simp only [Result.bind_ok_iff]
  refine ⟨(), boundedText_fieldFree _ _ _ hok.clientId, checks, hchecks, (),
    canonicalUuid_fieldFree _ _ _ hok.organizationId, (), validateComponent_fieldFree _ _ _ hv.component,
    (), ?_, (), ?_, Result.mapError_ok_iff.mpr hrequired⟩
  · show validatePolicy platform ((freeze policy).document client.organizationId) _ = .ok ()
    rw [hpolicyDocument]
    exact validatePolicy_fieldFree policy _ _ (hv.policies policy hpolicy)
  · show validateTrust platform ((freeze trust).document client.organizationId) _ = .ok ()
    rw [htrustDocument]
    exact validateTrust_fieldFree trust _ _ (hv.trustProfiles trust htrust)

/-- **Authorization and resumption agree.** On an accepted document, an issued snapshot passes the checks of
    `parse_snapshot`, resumes to itself and is issued again to every key with the same digest; and what an
    accepted snapshot resumes to is what the document grants the named client for the named purpose: every key
    of that client is issued exactly that. -/
theorem authorize_resume_agree (platform : Platform N) (raw : Str) (governance : GovernanceDocument)
    (hg : parseGovernance platform raw = .ok governance) :
    (∀ apiKey purpose issued, authorize platform governance apiKey purpose = .ok issued →
      validateSnapshot platform issued = .ok () ∧
      (∀ value, platform.snapshotFromValue value = .ok issued → parseSnapshot platform value = .ok issued) ∧
      resume governance issued = .ok issued ∧
      ∀ apiKey', KeyOk apiKey' → keyDigest platform apiKey' = keyDigest platform apiKey →
        authorize platform governance apiKey' issued.purpose = .ok issued) ∧
    (∀ value frozen resumed, parseSnapshot platform value = .ok frozen →
      resume governance frozen = .ok resumed →
      ∃ client ∈ governance.clients, client.clientId = frozen.clientId ∧
        client.organizationId = frozen.organizationId ∧
        Grants governance client frozen.purpose resumed ∧
        ∀ apiKey, KeyOk apiKey → client.apiKeySha256 = keyDigest platform apiKey →
          authorize platform governance apiKey frozen.purpose = .ok resumed) := by
  have hv := valid_of_parse hg
  constructor
  · intro apiKey purpose issued hissued
    obtain ⟨client, hclient, hdigest, hkey, hgrants⟩ := (authorize_ok_iff hv).mp hissued
    have hvalid := validateSnapshot_of_grants hv hclient hgrants
    have hfields : issued.clientId = client.clientId ∧ issued.organizationId = client.organizationId ∧
        issued.purpose = purpose := by
      obtain ⟨_, _, _, _, _, _, rfl⟩ := hgrants
      exact ⟨rfl, rfl, rfl⟩
    refine ⟨hvalid, ?_, ?_, ?_⟩
    · intro value hvalue
      rw [parseSnapshot, hvalue, Except.mapError, Result.ok_bind, hvalid]
      rfl
    · rw [resume_ok_iff hv]
      exact ⟨client, hclient, hfields.1.symm, hfields.2.1.symm, hfields.2.2.symm ▸ hgrants, rfl, rfl⟩
    · intro apiKey' hkey' hsame
      rw [hfields.2.2]
      exact (authorize_ok_iff hv).mpr ⟨client, hclient, hdigest.trans hsame.symm, hkey', hgrants⟩
  · intro value frozen resumed _ hresumed
    obtain ⟨client, hclient, hid, horg, hgrants, -, -⟩ := (resume_ok_iff hv).mp hresumed
    exact ⟨client, hclient, hid, horg, hgrants, fun apiKey hkey hdigest =>
      (authorize_ok_iff hv).mpr ⟨client, hclient, hdigest, hkey, hgrants⟩⟩

theorem authorize_resume_agree_sampleGovernance :
    resume sampleGovernance sampleSnapshot = .ok sampleSnapshot ∧
    ∃ client ∈ sampleGovernance.clients, client.clientId = sampleSnapshot.clientId ∧
      Grants sampleGovernance client vdsNcVerifyPurpose sampleSnapshot := by
  obtain ⟨hissued, hresumed⟩ := authorize_resume_agree samplePlatform [] _ parse_sampleGovernance
  obtain ⟨-, hparse, hresume, -⟩ := hissued ['k'] vdsNcVerifyPurpose _ authorize_sampleGovernance
  obtain ⟨client, hclient, hid, -, hgrants, -⟩ :=
    hresumed .null sampleSnapshot sampleSnapshot (hparse .null rfl) hresume
  exact ⟨hresume, client, hclient, hid, hgrants⟩

end MartyCore.Governance
