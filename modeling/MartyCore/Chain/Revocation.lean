import MartyCore.Chain.Path

/-!
# `Chain.Revocation` — what becomes of a known revocation

The revocation check of one certificate searches evidence × issuers and stops at the first authenticated
"revoked", so a revocation that any supplied evidence authenticates under any available issuer is never
reported as "not revoked" (`checkEvidence_ne_ok_false`): the search ends in "revoked" or in an encoding error.

What the verdict makes of that depends on the mode alone. In `hard_fail` each finding clears `valid`. In every
other mode a finding of either kind is a warning, also a known revocation: the verdict is that of the same
validator without revocation checking, and the warning names the certificate.
-/

namespace MartyCore.Chain

open List

variable {platform : Platform} {validator : ChainValidator}

/-! ## The search for evidence -/

/-- A search that ends in "not revoked" has seen every pair and found none revoked. -/
theorem searchEvidence_ok_false {kind : EvidenceKind} {certDer : Bytes}
    {pairs : List (Bytes × Certificate)} {validEvidence : Bool} {failures : List String}
    (h : searchEvidence platform kind certDer pairs validEvidence failures = .ok false) :
    ∀ pair ∈ pairs, ∀ issuerDer, platform.toDer pair.2 = .ok issuerDer →
      kind.judge pair.1 certDer issuerDer ≠ .revoked := by
  induction pairs generalizing validEvidence failures with
  | nil => exact fun pair hmem => absurd hmem not_mem_nil
  | cons head rest ih =>
    obtain ⟨issuerDer, hder, h⟩ := Result.of_bind h
    rw [Result.mapError_ok_iff] at hder
    intro pair hmem der hpair hjudge
    rcases mem_cons.mp hmem with rfl | hmem
    · -- a revoked head would have ended the search with `true`
      rw [hder] at hpair
      cases hpair
      rw [hjudge] at h
      cases h
    · split at h
      · cases h
      · exact ih h pair hmem der hpair hjudge
      · exact ih h pair hmem der hpair hjudge

/-- Some evidence, under some available issuer, says that `cert` is revoked. -/
def RevokedUnder (platform : Platform) (kind : EvidenceKind) (evidence : List Bytes)
    (validator : ChainValidator) (chain : List Certificate) (cert : Certificate) : Prop :=
  ∃ item ∈ evidence, ∃ issuer ∈ validator.trustAnchors ++ validator.intermediates ++ chain,
    issuer.subject = cert.issuer ∧ ∃ certDer issuerDer, platform.toDer cert = .ok certDer ∧
      platform.toDer issuer = .ok issuerDer ∧ kind.judge item certDer issuerDer = .revoked

variable {evidence : List Bytes} {chain : List Certificate} {cert : Certificate}

theorem checkEvidence_ne_ok_false {kind : EvidenceKind}
    (h : RevokedUnder platform kind evidence validator chain cert) :
    checkEvidence platform kind evidence validator chain cert ≠ .ok false := by
  obtain ⟨item, hitem, issuer, hissuer, hname, certDer, issuerDer, hcert, hder, hjudge⟩ := h
  intro hfalse
  obtain ⟨der, hencode, hfalse⟩ := Result.of_bind hfalse
  rw [Result.mapError_ok_iff, hcert] at hencode
  cases hencode
  rw [Result.reject_bind_ok_iff] at hfalse
  have hcandidate : issuer ∈ candidateIssuers validator chain cert :=
    mem_filter.mpr ⟨hissuer, by simpa using hname⟩
  have hpair : (item, issuer) ∈ evidence.flatMap
      (fun item => (candidateIssuers validator chain cert).map (Prod.mk item)) :=
    mem_flatMap.mpr ⟨item, hitem, mem_map_of_mem hcandidate⟩
  exact searchEvidence_ok_false hfalse.2 (item, issuer) hpair issuerDer hder hjudge

/-- **A known revocation**: a supplied CRL or OCSP response of a kind that is checked authenticates against an
    available certificate with the issuer's name and reports `cert` revoked. -/
def KnownRevoked (platform : Platform) (validator : ChainValidator) (chain : List Certificate)
    (cert : Certificate) : Prop :=
  ∃ issuer ∈ validator.trustAnchors ++ validator.intermediates ++ chain,
    issuer.subject = cert.issuer ∧ ∃ certDer issuerDer, platform.toDer cert = .ok certDer ∧
      platform.toDer issuer = .ok issuerDer ∧
      ((validator.config.checkCrl = true ∧ ∃ crl ∈ validator.crls,
          platform.validateCrlForCertificate crl certDer issuerDer = .ok true) ∨
        (validator.config.checkOcsp = true ∧ ∃ response ∈ validator.ocspResponses,
          platform.validateOcspResponse response certDer issuerDer = .ok .revoked))

theorem KnownRevoked.cases
    (h : KnownRevoked platform validator chain cert) :
    (validator.config.checkCrl = true ∧ validator.crls ≠ [] ∧
      checkRevocation platform validator chain cert ≠ .ok false) ∨
    (validator.config.checkOcsp = true ∧ validator.ocspResponses ≠ [] ∧
      checkOcspStatus platform validator chain cert ≠ .ok false) := by
  obtain ⟨issuer, hissuer, hname, certDer, issuerDer, hcert, hder, hcrl | hocsp⟩ := h
  · obtain ⟨hcheck, crl, hmem, hrevoked⟩ := hcrl
    refine .inl ⟨hcheck, ne_nil_of_mem hmem, checkEvidence_ne_ok_false
      ⟨crl, hmem, issuer, hissuer, hname, certDer, issuerDer, hcert, hder, ?_⟩⟩
    simp only [crlEvidence, hrevoked]
  · obtain ⟨hcheck, response, hmem, hrevoked⟩ := hocsp
    refine .inr ⟨hcheck, ne_nil_of_mem hmem, checkEvidence_ne_ok_false
      ⟨response, hmem, issuer, hissuer, hname, certDer, issuerDer, hcert, hder, ?_⟩⟩
    simp only [ocspEvidence, hrevoked]

/-! ## Mode `hard_fail` -/

section

variable {texts : RevocationTexts} {mode : String} {isAnchor : Certificate → Bool}
  {check : Certificate → Except String Bool} {chain : List Certificate} {cert : Certificate}
  {result : ChainValidationResult}

/-- A message of the block about the certificate at index `i`. -/
def RevocationTexts.Names (texts : RevocationTexts) (i : Nat) (message : String) : Prop :=
  message = texts.revoked i ∨ ∃ e, message = texts.failed i e

/-- A finding other than "not revoked" is reported. -/
theorem reportFinding_eq {i : Nat} {finding : Except String Bool} (h : finding ≠ .ok false) :
    ∃ message, texts.Names i message ∧ reportFinding texts mode i finding result = result.report mode message := by
  unfold reportFinding
  split
  · exact absurd rfl h
  · exact ⟨_, .inl rfl, rfl⟩
  · exact ⟨_, .inr ⟨_, rfl⟩, rfl⟩

/-- In `hard_fail` a certificate outside the anchors that is not found "not revoked" makes the verdict invalid. -/
theorem findings_invalid {i : Nat} (hcert : cert ∈ chain) (hanchor : isAnchor cert = false)
    (hcheck : check cert ≠ .ok false) :
    (reportFindings texts "hard_fail" isAnchor check i chain result).valid = false := by
  induction chain generalizing i result with
  | nil => exact absurd hcert not_mem_nil
  | cons head rest ih =>
    rcases mem_cons.mp hcert with rfl | hmem
    · -- the rest of the loop keeps an invalid result invalid
      refine reportFindings_keeps (invalid_report _) ?_ (i + 1)
      obtain ⟨message, -, heq⟩ := reportFinding_eq hcheck
      rw [hanchor, if_neg Bool.false_ne_true, heq]
      rfl
    · exact ih hmem

theorem revocationBlock_hard_fail
    (hmode : validator.config.revocationMode = "hard_fail") (hcert : cert ∈ chain)
    (hanchor : isConfiguredTrustAnchor platform validator cert = false) (hcheck : check cert ≠ .ok false) :
    (revocationBlock platform texts validator evidence check chain result).valid = false := by
  unfold revocationBlock
  rw [hmode]
  split
  · rfl
  · exact findings_invalid hcert hanchor hcheck

/-! ## Every other mode -/

/-- The same verdict and errors. -/
def SameVerdict (a b : ChainValidationResult) : Prop := a.valid = b.valid ∧ a.errors = b.errors

theorem SameVerdict.record {a b : ChainValidationResult} (h : SameVerdict a b) {α : Type}
    (check : Except String α) (describe : String → String) :
    SameVerdict (a.record check describe) (b.record check describe) := by
  obtain ⟨hvalid, herrors⟩ := h
  cases check with
  | ok u => exact ⟨hvalid, herrors⟩
  | error e =>
    refine ⟨rfl, ?_⟩
    show a.errors ++ [describe e] = b.errors ++ [describe e]
    rw [herrors]

/-- A finding leaves the verdict and the warnings there are. -/
theorem report_soft (hmode : mode ≠ "hard_fail") (r : ChainValidationResult) (message : String)
    (h : SameVerdict r result ∧ result.warnings ⊆ r.warnings) :
    SameVerdict (r.report mode message) result ∧ result.warnings ⊆ (r.report mode message).warnings := by
  rw [ChainValidationResult.report, if_neg hmode]
  exact ⟨h.1, subset_append_of_subset_left _ h.2⟩

theorem soft_refl : SameVerdict result result ∧ result.warnings ⊆ result.warnings :=
  ⟨⟨rfl, rfl⟩, List.Subset.refl _⟩

/-! ## The warning -/

/-- A finding other than "not revoked" is warned about under the certificate's index. -/
theorem warning_of_reportFindings (hmode : mode ≠ "hard_fail") {i : Nat} (hcert : cert ∈ chain)
    (hanchor : isAnchor cert = false) (hcheck : check cert ≠ .ok false) :
    ∃ j message, chain[j]? = some cert ∧ texts.Names (i + j) message ∧
      message ∈ (reportFindings texts mode isAnchor check i chain result).warnings := by
  induction chain generalizing i result with
  | nil => exact absurd hcert not_mem_nil
  | cons head rest ih =>
    unfold reportFindings
    rcases mem_cons.mp hcert with rfl | hmem
    · obtain ⟨message, hnames, heq⟩ := reportFinding_eq hcheck
      have hwarn : message ∈ (reportFinding texts mode i (check cert) result).warnings := by
        rw [heq, ChainValidationResult.report, if_neg hmode]
        exact mem_append_right _ mem_cons_self
      rw [hanchor]
      -- the rest of the loop only adds warnings
      exact ⟨0, message, rfl, hnames, (reportFindings_keeps (report_soft hmode) soft_refl (i + 1)).2 hwarn⟩
    · obtain ⟨j, message, hj, hnames, hwarn⟩ := ih hmem
      refine ⟨j + 1, message, by simpa using hj, ?_, hwarn⟩
      rwa [show i + (j + 1) = i + 1 + j by omega]

/-- The same for a whole block, which only runs the loop when there is evidence. -/
theorem warning_of_revocationBlock (hmode : validator.config.revocationMode ≠ "hard_fail")
    (hevidence : evidence ≠ []) (hcert : cert ∈ chain)
    (hanchor : isConfiguredTrustAnchor platform validator cert = false) (hcheck : check cert ≠ .ok false) :
    ∃ i message, chain[i]? = some cert ∧ texts.Names i message ∧
      message ∈ (revocationBlock platform texts validator evidence check chain result).warnings := by
  unfold revocationBlock
  rw [if_neg hevidence]
  obtain ⟨i, message, hi, hnames, hwarn⟩ := warning_of_reportFindings hmode hcert hanchor hcheck
  exact ⟨i, message, hi, by rwa [Nat.zero_add] at hnames, hwarn⟩

end

/-! ## The verdict on a known revocation -/

/-- The same validator without revocation checking. -/
def ChainValidator.withoutRevocation (validator : ChainValidator) : ChainValidator :=
  { validator with config := { validator.config with checkCrl := false, checkOcsp := false } }

section

variable {utcNow : Int} {endEntity cert : Certificate} {rest : List Certificate}

theorem record_warnings {α : Type} {check : Except String α} {describe : String → String}
    {result : ChainValidationResult} : (result.record check describe).warnings = result.warnings := by
  cases check with
  | ok a | error e => rfl

variable (hcert : cert ∈ endEntity :: rest) (hanchor : isConfiguredTrustAnchor platform validator cert = false)
  (hrevoked : KnownRevoked platform validator (endEntity :: rest) cert) (result : ChainValidationResult)

include hcert hanchor hrevoked

theorem hard_fail_invalid (hmode : validator.config.revocationMode = "hard_fail") :
    (ocspBlock platform validator (endEntity :: rest)
      (crlBlock platform validator (endEntity :: rest) result)).valid = false := by
  rcases hrevoked.cases with ⟨hcheck, -, hfinding⟩ | ⟨hcheck, -, hfinding⟩
  · -- no later block makes an invalid result valid again
    refine ocspBlock_keeps (invalid_report _) ?_
    unfold crlBlock
    rw [if_pos hcheck]
    exact revocationBlock_hard_fail hmode hcert hanchor hfinding
  · unfold ocspBlock
    rw [if_pos hcheck]
    exact revocationBlock_hard_fail hmode hcert hanchor hfinding

theorem soft_warning (hmode : validator.config.revocationMode ≠ "hard_fail") :
    ∃ i message, (endEntity :: rest)[i]? = some cert ∧
      (crlTexts.Names i message ∨ ocspTexts.Names i message) ∧
      message ∈ (ocspBlock platform validator (endEntity :: rest)
        (crlBlock platform validator (endEntity :: rest) result)).warnings := by
  rcases hrevoked.cases with ⟨hcheck, hevidence, hfinding⟩ | ⟨hcheck, hevidence, hfinding⟩
  · -- the OCSP block comes later and keeps the CRL block's warnings
    have hkeep : (crlBlock platform validator (endEntity :: rest) result).warnings ⊆
        (ocspBlock platform validator (endEntity :: rest)
          (crlBlock platform validator (endEntity :: rest) result)).warnings :=
      (ocspBlock_keeps (report_soft hmode) soft_refl).2
    have hblock : crlBlock platform validator (endEntity :: rest) result = revocationBlock platform crlTexts
        validator validator.crls (checkRevocation platform validator (endEntity :: rest))
        (endEntity :: rest) result := if_pos hcheck
    obtain ⟨i, message, hi, hnames, hwarn⟩ :=
      warning_of_revocationBlock hmode hevidence hcert hanchor hfinding
    exact ⟨i, message, hi, .inl hnames, hkeep (hblock ▸ hwarn)⟩
  · unfold ocspBlock
    rw [if_pos hcheck]
    obtain ⟨i, message, hi, hnames, hwarn⟩ :=
      warning_of_revocationBlock hmode hevidence hcert hanchor hfinding
    exact ⟨i, message, hi, .inr hnames, hwarn⟩

end

/-- **The verdict on a known revocation.** In `hard_fail` the chain is rejected. In every other mode, `soft_fail`
    included, the verdict and the errors are those of the validator without revocation checking, and the known
    revocation is a warning that names the certificate by its index. -/
theorem known_revocation_verdict {platform : Platform} {validator : ChainValidator} {utcNow : Int}
    {chain : List Certificate} {cert : Certificate} (hcert : cert ∈ chain)
    (hanchor : isConfiguredTrustAnchor platform validator cert = false)
    (hrevoked : KnownRevoked platform validator chain cert) :
    ∃ result, validateParsedChain platform validator utcNow chain = .ok result ∧
      (validator.config.revocationMode = "hard_fail" → result.valid = false) ∧
      (validator.config.revocationMode ≠ "hard_fail" →
        (∃ plain, validateParsedChain platform validator.withoutRevocation utcNow chain = .ok plain ∧
          result.valid = plain.valid ∧ result.errors = plain.errors) ∧
        ∃ i message, chain[i]? = some cert ∧ (crlTexts.Names i message ∨ ocspTexts.Names i message) ∧
          message ∈ result.warnings) := by
  cases chain with
  | nil => exact absurd hcert not_mem_nil
  | cons endEntity rest =>
    refine ⟨_, rfl, ?_, ?_⟩
    · intro hmode
      rw [← Bool.not_eq_true, record_valid]
      rintro ⟨hvalid, -⟩
      rw [hard_fail_invalid hcert hanchor hrevoked _ hmode] at hvalid
      cases hvalid
    · intro hmode
      refine ⟨⟨_, rfl, ?_⟩, ?_⟩
      · refine SameVerdict.record ?_ _ _
        exact (ocspBlock_keeps (report_soft hmode) (crlBlock_keeps (report_soft hmode) soft_refl)).1
      · rw [record_warnings]
        exact soft_warning hcert hanchor hrevoked _ hmode

/-- The root's CRL is checked, in the given mode. -/
def crlValidator (mode : String) : ChainValidator :=
  { sampleValidator with
    config := { sampleValidator.config with checkCrl := true, revocationMode := mode }
    crls := [[1]] }

/-- The CRL lists `rootSigner`. -/
theorem knownRevoked_rootSigner (mode : String) :
    KnownRevoked samplePlatform (crlValidator mode) [rootSigner] rootSigner := by
  refine ⟨rootCa, mem_cons_self, rfl, _, _, rfl, rfl, .inl ⟨rfl, [1], mem_cons_self, ?_⟩⟩
  decide

theorem known_revocation_verdict_rootSigner :
    ∃ result, validateParsedChain samplePlatform (crlValidator "hard_fail") 0 [rootSigner] = .ok result ∧
      result.valid = false := by
  obtain ⟨result, hrun, hhard, -⟩ := known_revocation_verdict mem_cons_self
    (show isConfiguredTrustAnchor samplePlatform (crlValidator "hard_fail") rootSigner = false by
      decide)
    (knownRevoked_rootSigner "hard_fail")
  exact ⟨result, hrun, hhard rfl⟩

/-- In `soft_fail` a certificate on an authenticated CRL is accepted, with a warning. -/
theorem soft_fail_accepts_revoked :
    KnownRevoked samplePlatform (crlValidator "soft_fail") [rootSigner] rootSigner ∧
    isConfiguredTrustAnchor samplePlatform (crlValidator "soft_fail") rootSigner = false ∧
    validateParsedChain samplePlatform (crlValidator "soft_fail") 0 [rootSigner]
      = .ok ⟨true, some "CN=Signer", some "CN=Root", 1, [], ["Certificate 0 is revoked"]⟩ := by
  refine ⟨knownRevoked_rootSigner "soft_fail", ?_, ?_⟩
  · decide
  · decide

end MartyCore.Chain
