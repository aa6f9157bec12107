import MartyCore.Emrtd.Model

/-!
# `Emrtd.Passive` — what a verified eMRTD proves

Chain, SOD signature, hashes and revocation are checked by separate functions, each of which starts from the bytes or
from what was parsed out of them. Each gets an exact condition for its part of the verdict, and
`verifyEmrtdWithOptions_verified_iff` puts them together: `verified` holds exactly when all of them do. The conditions
quantify over candidates, CRLs and hashes and mention no order, apart from the readings of the clock; for a clock that
stands still the verdict is the same for every order (`verified_of_perm`).

`fromSodDer` is inverted into what the bytes contain, and the signature check selects the signer's certificate from the
same bytes by the same function, so all parts speak about one certificate and one content.
-/

namespace MartyCore.Emrtd

open Result SortedMap List
open Chain (Name)

variable (platform : Platform)

/-! ## The chain -/

section

/-- **An anchor vouches for a document signer** at one moment. -/
structure VouchedBy (now : Int) (dsc csca : Certificate) : Prop where
  profiles : validateEmrtdCertificateProfiles platform dsc csca = .ok ()
  signature : platform.verifyParsedCertificateSignature dsc csca = .ok true
  dscValid : dsc.notBefore ≤ now ∧ now ≤ dsc.notAfter
  cscaValid : csca.notBefore ≤ now ∧ now ≤ csca.notAfter

theorem validityFailures_eq_nil_iff {now : Int} {cert : Certificate} :
    validityFailures platform now cert = [] ↔ cert.notBefore ≤ now ∧ now ≤ cert.notAfter := by
  unfold validityFailures
  split
  · simp only [cons_ne_self, false_iff]
    omega
  · split
    · simp only [reduceCtorEq, false_iff]
      omega
    · simp only [true_iff]
      omega

theorem verifyCertificateSignature_ok_iff {subject issuer : Certificate} :
    verifyCertificateSignature platform subject issuer = .ok () ↔
      platform.verifyParsedCertificateSignature subject issuer = .ok true := by
  simp [verifyCertificateSignature, bind_ok_iff, mapError_ok_iff, reject_ok_iff]

theorem candidateFailures_eq_nil_iff {now : Int} {dsc csca : Certificate} :
    candidateFailures platform now dsc csca = [] ↔ VouchedBy platform now dsc csca := by
  unfold candidateFailures
  constructor
  · intro h
    split at h
    · cases h
    · rename_i hprofiles
      split at h
      · cases h
      · rename_i hsignature
        simp only [flatMap_eq_nil_iff, forall_mem_cons, validityFailures_eq_nil_iff] at h
        exact ⟨hprofiles, (verifyCertificateSignature_ok_iff platform).mp hsignature, h.1, h.2.1⟩
  · rintro ⟨hprofiles, hsignature, hdsc, hcsca⟩
    simp [hprofiles, (verifyCertificateSignature_ok_iff platform).mpr hsignature,
      (validityFailures_eq_nil_iff platform).mpr hdsc, (validityFailures_eq_nil_iff platform).mpr hcsca]

/-- At its reading of the clock some anchor vouches. -/
def SomeVouches (clock : Clock) (dsc : Certificate) (i : Nat) (anchors : List TrustAnchor) : Prop :=
  ∃ j csca, anchors[j]? = some csca ∧ VouchedBy platform (clock.chain (i + j)) dsc csca.certificate

/-- The search succeeds exactly when some candidate vouches, and it only ever succeeds with status `Valid`. -/
theorem tryCandidates_cases (clock : Clock) (dsc : Certificate) (i : Nat) (anchors : List TrustAnchor)
    (failures : List String) :
    (SomeVouches platform clock dsc i anchors ∧
      ∃ subject, tryCandidates platform clock dsc i anchors failures = .ok (.valid, subject)) ∨
    (¬SomeVouches platform clock dsc i anchors ∧
      ∃ error, tryCandidates platform clock dsc i anchors failures = .error error) := by
  induction anchors generalizing i failures with
  | nil => exact .inr ⟨by simp [SomeVouches], _, rfl⟩
  | cons csca rest ih =>
    have hcons : SomeVouches platform clock dsc i (csca :: rest) ↔
        VouchedBy platform (clock.chain i) dsc csca.certificate ∨ SomeVouches platform clock dsc (i + 1) rest :=
      exists_getElem?_cons (P := fun n (a : TrustAnchor) => VouchedBy platform (clock.chain n) dsc a.certificate) i
    rw [tryCandidates, hcons, ← candidateFailures_eq_nil_iff]
    by_cases hhead : candidateFailures platform (clock.chain i) dsc csca.certificate = []
    · rw [if_pos hhead]
      exact .inl ⟨.inl hhead, _, rfl⟩
    · rw [if_neg hhead, or_iff_right hhead]
      exact ih (i + 1) _

theorem mem_cscaCandidates {registry : CscaRegistry} {issuer : Name} {anchor : TrustAnchor} :
    anchor ∈ cscaCandidates registry issuer ↔
      anchor ∈ registry.anchors ∧ anchor.purpose = .csca ∧ anchor.certificate.subject = issuer := by
  rw [cscaCandidates, mem_filter, mem_filter, decide_eq_true_eq, decide_eq_true_eq, and_assoc]

/-- Some candidate vouches at its reading of the clock. -/
def ChainAccepted (clock : Clock) (dsc : Certificate) (registry : CscaRegistry) : Prop :=
  ∃ j csca, (cscaCandidates registry dsc.issuer)[j]? = some csca ∧
    VouchedBy platform (clock.chain j) dsc csca.certificate

/-- No candidates is the first error; the loop over none would be the second. -/
theorem verifyDscChainWithAnchor_cases (clock : Clock) (signer : DocumentSignerCertificate) (registry : CscaRegistry) :
    (ChainAccepted platform clock signer.certificate registry ∧
      ∃ subject, verifyDscChainWithAnchor platform clock signer registry = .ok (.valid, subject)) ∨
    (¬ChainAccepted platform clock signer.certificate registry ∧
      ∃ error, verifyDscChainWithAnchor platform clock signer registry = .error error) := by
  unfold verifyDscChainWithAnchor
  by_cases hnone : (cscaCandidates registry signer.certificate.issuer).isEmpty = true
  · right
    rw [List.isEmpty_iff] at hnone
    refine ⟨by simp [ChainAccepted, hnone], ?_⟩
    simp [hnone, Result.reject]
  · have hcases := tryCandidates_cases platform clock signer.certificate 0
      (cscaCandidates registry signer.certificate.issuer) []
    simpa only [Result.reject, if_neg hnone, ok_bind, SomeVouches, ChainAccepted, Nat.zero_add] using hcases

end

/-! ## The data-group hashes -/

section

/-- One data group has the content whose digest is expected. -/
def DigestMatches (algorithm : HashAlgorithm) (dataGroups : SortedMap Nat Bytes) (expected : Nat × Bytes) : Prop :=
  ∃ content, dataGroups.get? expected.1 = some content ∧ expected.2.length = algorithm.digestSize ∧
    platform.hash algorithm content = expected.2

variable {dataGroups : SortedMap Nat Bytes}

theorem hashesMatch_valid_iff {algorithm : HashAlgorithm}
    {expected : List (Nat × Bytes)} : hashesMatch platform algorithm dataGroups expected = .valid ↔
      ∀ entry ∈ expected, DigestMatches platform algorithm dataGroups entry := by
  induction expected with
  | nil => simp [hashesMatch]
  | cons entry rest ih =>
    obtain ⟨dgNum, expectedHash⟩ := entry
    rw [hashesMatch, forall_mem_cons, ← ih]
    unfold DigestMatches
    cases hget : dataGroups.get? dgNum with
    | none => simp
    | some content =>
      by_cases hmatch : expectedHash.length ≠ algorithm.digestSize ∨ platform.hash algorithm content ≠ expectedHash
      · simp only [if_pos hmatch, reduceCtorEq, false_iff]
        rintro ⟨⟨other, hother, hlength, hhash⟩, -⟩
        cases hother
        exact hmatch.elim (absurd hlength) (absurd hhash)
      · simp only [not_or, not_not] at hmatch
        simp [hmatch.1, hmatch.2]

/-- The data groups are those expected, and have their digests. -/
structure HashesAccepted (hashAlgorithm : String) (expected dataGroups : SortedMap Nat Bytes) : Prop where
  nonempty : expected.entries ≠ []
  length : expected.entries.length = dataGroups.entries.length
  digests : ∃ algorithm, dataGroupHashAlgorithm hashAlgorithm = .ok algorithm ∧
    ∀ entry ∈ expected.entries, DigestMatches platform algorithm dataGroups entry

variable {expected : SortedMap Nat Bytes} {hashAlgorithm : String}

/-- The order of iteration is not in the condition. -/
theorem verifyDataGroupHashMap_valid_iff (order : IterationOrder (Nat × Bytes)) :
    verifyDataGroupHashMap platform order hashAlgorithm expected dataGroups = .ok .valid ↔
      HashesAccepted platform hashAlgorithm expected dataGroups := by
  unfold verifyDataGroupHashMap
  split
  · rename_i hshape
    simp only [Except.ok.injEq, reduceCtorEq, false_iff]
    rintro ⟨hnonempty, hlength, -⟩
    exact hshape.elim hnonempty (absurd hlength)
  · rename_i hshape
    simp only [not_or, not_not] at hshape
    simp only [bind_ok_iff, Except.ok.injEq, hashesMatch_valid_iff, (order.perm _).mem_iff]
    exact ⟨fun h => ⟨hshape.1, hshape.2, h⟩, HashesAccepted.digests⟩

/-- The expected hashes are those of the data groups, under the same numbers. -/
theorem hashesAccepted_iff :
    HashesAccepted platform hashAlgorithm expected dataGroups ↔
      expected.entries ≠ [] ∧ ∃ algorithm, dataGroupHashAlgorithm hashAlgorithm = .ok algorithm ∧
        (∀ entry ∈ expected.entries, entry.2.length = algorithm.digestSize) ∧
        ∀ n, expected.get? n = (dataGroups.get? n).map (platform.hash algorithm) := by
  constructor
  · rintro ⟨hnonempty, hlength, algorithm, halgorithm, hdigests⟩
    have hfound : ∀ n hash, expected.get? n = some hash →
        ∃ content, dataGroups.get? n = some content ∧ platform.hash algorithm content = hash := by
      intro n hash hget
      obtain ⟨content, hcontent, -, hhash⟩ := hdigests (n, hash) (SortedMap.mem_iff_get?.mpr hget)
      exact ⟨content, hcontent, hhash⟩
    refine ⟨hnonempty, algorithm, halgorithm, fun entry hentry => ?_, fun n => ?_⟩
    · obtain ⟨-, -, hsize, -⟩ := hdigests entry hentry
      exact hsize
    · have hsame := keys_of_length_eq (fun k hk => ?_) hlength n
      · cases hget : expected.get? n with
        | none => simp_all
        | some hash =>
          obtain ⟨content, hcontent, rfl⟩ := hfound n hash hget
          rw [hcontent, Option.map_some]
      · obtain ⟨hash, hget⟩ := Option.isSome_iff_exists.mp hk
        obtain ⟨content, hcontent, -⟩ := hfound k hash hget
        rw [hcontent]
        rfl
  · rintro ⟨hnonempty, algorithm, halgorithm, hsizes, hget⟩
    have hperm : (expected.entries.map Prod.fst).Perm (dataGroups.entries.map Prod.fst) := by
      refine (perm_ext_iff_of_nodup expected.nodup_keys dataGroups.nodup_keys).mpr (fun n => ?_)
      rw [mem_keys_iff, mem_keys_iff, hget, Option.isSome_map]
    refine ⟨hnonempty, by simpa using hperm.length_eq, algorithm, halgorithm, fun entry hentry => ?_⟩
    obtain ⟨content, hcontent, hhash⟩ :=
      Option.map_eq_some_iff.mp ((hget entry.1).symm.trans (SortedMap.mem_iff_get?.mp hentry))
    exact ⟨content, hcontent, hsizes entry hentry, hhash⟩

end

/-! ## The revocation check -/

section

/-- What one CRL says under one anchor. -/
def crlJudgement (now : Int) (dscDer : Bytes) (pair : Bytes × TrustAnchor) : Except String ValidatedCrlStatus :=
  match platform.certificateToDer pair.2.certificate with
  | .error error => .error ("Failed to encode CSCA: " ++ error)
  | .ok cscaDer => validateCrlForCertificate platform now pair.1 dscDer cscaDer

variable {clock : Clock} {dscDer : Bytes} {pairs : List (Bytes × TrustAnchor)} {pair : Bytes × TrustAnchor} {i : Nat}

theorem searchCrls_cons {validEvidence : Bool} {failures : List String} :
    searchCrls platform clock dscDer i (pair :: pairs) validEvidence failures =
      match crlJudgement platform (clock.crl i) dscDer pair with
      | .ok status =>
        if status.revoked then .inl status else searchCrls platform clock dscDer (i + 1) pairs true failures
      | .error error => searchCrls platform clock dscDer (i + 1) pairs validEvidence (failures ++ [error]) := by
  obtain ⟨crlDer, csca⟩ := pair
  rw [searchCrls, crlJudgement]
  cases platform.certificateToDer csca.certificate with
  | error error | ok cscaDer => rfl

/-- At its reading of the clock no CRL says "revoked". -/
def NoneRevoked (clock : Clock) (dscDer : Bytes) (i : Nat) (pairs : List (Bytes × TrustAnchor)) : Prop :=
  ∀ j pair status, pairs[j]? = some pair → crlJudgement platform (clock.crl (i + j)) dscDer pair = .ok status →
    status.revoked = false

/-- At its reading of the clock some CRL is authenticated. -/
def SomeAuthenticated (clock : Clock) (dscDer : Bytes) (i : Nat) (pairs : List (Bytes × TrustAnchor)) : Prop :=
  ∃ j pair status, pairs[j]? = some pair ∧ crlJudgement platform (clock.crl (i + j)) dscDer pair = .ok status

theorem noneRevoked_cons :
    NoneRevoked platform clock dscDer i (pair :: pairs) ↔
      (∀ status, crlJudgement platform (clock.crl i) dscDer pair = .ok status → status.revoked = false) ∧
      NoneRevoked platform clock dscDer (i + 1) pairs := by
  rw [NoneRevoked, ← Nat.and_forall_add_one]
  simp only [getElem?_cons_zero, getElem?_cons_succ, Option.some.injEq, ← Nat.add_assoc, Nat.add_right_comm i _ 1]
  refine and_congr_left' ⟨fun h status => h pair status rfl, ?_⟩
  rintro h _ status rfl
  exact h status

theorem someAuthenticated_cons :
    SomeAuthenticated platform clock dscDer i (pair :: pairs) ↔
      (∃ status, crlJudgement platform (clock.crl i) dscDer pair = .ok status) ∨
      SomeAuthenticated platform clock dscDer (i + 1) pairs := by
  simp only [SomeAuthenticated, exists_and_left]
  exact exists_getElem?_cons (P := fun n other =>
    ∃ status, crlJudgement platform (clock.crl n) dscDer other = .ok status) i

/-- **The search over CRLs and anchors** ends with evidence and no revocation exactly when there is some of the first
    and none of the second. -/
theorem searchCrls_clean_iff (clock : Clock) (dscDer : Bytes) (i : Nat) (pairs : List (Bytes × TrustAnchor))
    (validEvidence : Bool) (failures : List String) :
    (∃ failures', searchCrls platform clock dscDer i pairs validEvidence failures = .inr (true, failures')) ↔
      NoneRevoked platform clock dscDer i pairs ∧
      (validEvidence = true ∨ SomeAuthenticated platform clock dscDer i pairs) := by
  induction pairs generalizing i validEvidence failures with
  | nil => simp [searchCrls, NoneRevoked, SomeAuthenticated]
  | cons pair rest ih =>
    rw [searchCrls_cons, noneRevoked_cons, someAuthenticated_cons]
    cases hjudgement : crlJudgement platform (clock.crl i) dscDer pair with
    | error error => simp [ih]
    | ok status =>
      cases hrevoked : status.revoked with
      | true => simp [hrevoked]
      | false => simp [hrevoked, ih]

/-- The condition under which supplied CRLs leave the verdict as it is. -/
def RevocationAccepted (clock : Clock) (dsc : Certificate) (registry : CscaRegistry) (crls : List Bytes) : Prop :=
  ∃ dscDer, platform.certificateToDer dsc = .ok dscDer ∧
    NoneRevoked platform clock dscDer 0 (crlPairs registry dsc.issuer crls) ∧
    SomeAuthenticated platform clock dscDer 0 (crlPairs registry dsc.issuer crls)

theorem checkRevocation_verified_iff {dsc : Certificate} {registry : CscaRegistry} {crls : List Bytes}
    {result : EmrtdVerificationResult} :
    (checkRevocation platform clock dsc registry crls result).verified = true ↔
      result.verified = true ∧ RevocationAccepted platform clock dsc registry crls := by
  unfold checkRevocation RevocationAccepted
  cases hder : platform.certificateToDer dsc with
  | error error => simp [EmrtdVerificationResult.push]
  | ok dscDer =>
    have hclean := searchCrls_clean_iff platform clock dscDer 0 (crlPairs registry dsc.issuer crls) false []
    simp only [Bool.false_eq_true, false_or] at hclean
    simp only [Except.ok.injEq, exists_eq_left', ← hclean]
    cases hsearch : searchCrls platform clock dscDer 0 (crlPairs registry dsc.issuer crls) false [] with
    | inl status => simp [EmrtdVerificationResult.push]
    | inr found =>
      obtain ⟨validEvidence, failures⟩ := found
      cases validEvidence with
      | false => simp [EmrtdVerificationResult.push]
      | true => simp

end

/-! ## The verdict -/

section

variable {clock : Clock} {order : IterationOrder (Nat × Bytes)} {sod : SecurityObject}
  {dataGroups : SortedMap Nat Bytes} {registry : CscaRegistry} {options : EmrtdVerificationOptions}

/-- The raw bytes are there and their signature verifies. -/
def SodAccepted (sod : SecurityObject) : Prop :=
  ∃ rawSod, sod.rawSod = some rawSod ∧ verifySodSignature platform rawSod = .ok true

variable {result : EmrtdVerificationResult}

theorem checkSodSignature_status :
    (checkSodSignature platform sod result).sodSignatureStatus = .valid ↔ SodAccepted platform sod := by
  unfold checkSodSignature SodAccepted
  cases sod.rawSod with
  | none => simp [EmrtdVerificationResult.push]
  | some rawSod =>
    simp only [Option.some.injEq, exists_eq_left']
    split
    · rename_i hverify
      simp [hverify]
    · rename_i hverify
      simp [hverify, EmrtdVerificationResult.push]
    · rename_i err hverify
      simp [hverify, EmrtdVerificationResult.push]

theorem checkSodSignature_frame :
    (checkSodSignature platform sod result).dscChainStatus = result.dscChainStatus ∧
      (checkSodSignature platform sod result).verified = result.verified := by
  unfold checkSodSignature
  split
  · exact ⟨rfl, rfl⟩
  · split
    · exact ⟨rfl, rfl⟩
    · exact ⟨rfl, rfl⟩
    · exact ⟨rfl, rfl⟩

theorem checkHashes_verified_iff (hresult : result.verified = false) :
    (checkHashes platform order sod dataGroups result).verified = true ↔
      result.dscChainStatus = .valid ∧ result.sodSignatureStatus = .valid ∧
      HashesAccepted platform sod.hashAlgorithm sod.dataGroupHashes dataGroups := by
  rw [← verifyDataGroupHashMap_valid_iff platform order]
  unfold checkHashes verifyDataGroupHashes
  cases verifyDataGroupHashMap platform order sod.hashAlgorithm sod.dataGroupHashes dataGroups with
  | error e => simp [EmrtdVerificationResult.push, hresult]
  | ok status =>
    by_cases hinvalid : status = .invalid
    · simp [hinvalid, EmrtdVerificationResult.push]
    · simp [hinvalid]

theorem verifyEmrtd_verified_iff :
    (verifyEmrtd platform clock order sod dataGroups registry).verified = true ↔
      ChainAccepted platform clock sod.signerCertificate.certificate registry ∧ SodAccepted platform sod ∧
      HashesAccepted platform sod.hashAlgorithm sod.dataGroupHashes dataGroups := by
  unfold verifyEmrtd
  rcases verifyDscChainWithAnchor_cases platform clock sod.signerCertificate registry with
    ⟨hchain, subject, heq⟩ | ⟨hchain, error, heq⟩
  · rw [heq]
    simp only [hchain, true_and]
    rw [checkHashes_verified_iff platform ((checkSodSignature_frame platform).2.trans rfl), checkSodSignature_status,
      (checkSodSignature_frame platform).1]
    simp
  · simp [heq, hchain, EmrtdVerificationResult.push, EmrtdVerificationResult.default]

/-- **The exact condition for `verified`.** -/
theorem verifyEmrtdWithOptions_verified_iff :
    (verifyEmrtdWithOptions platform clock order sod dataGroups registry options).verified = true ↔
      ChainAccepted platform clock sod.signerCertificate.certificate registry ∧ SodAccepted platform sod ∧
      HashesAccepted platform sod.hashAlgorithm sod.dataGroupHashes dataGroups ∧
      (options.crls ≠ [] →
        RevocationAccepted platform clock sod.signerCertificate.certificate registry options.crls) := by
  unfold verifyEmrtdWithOptions
  by_cases hcrls : options.crls = []
  · simp [hcrls, verifyEmrtd_verified_iff]
  · rw [if_neg hcrls, checkRevocation_verified_iff]
    show (verifyEmrtd platform clock order sod dataGroups registry).verified = true ∧ _ ↔ _
    rw [verifyEmrtd_verified_iff]
    simp [hcrls, and_assoc]

end

/-! ## The order of anchors, CRLs and hashes -/

section

variable {now : Int} {dsc : Certificate} {registry registry' : CscaRegistry}

/-- With a clock that stands still the index of a candidate says nothing. -/
theorem chainAccepted_constant_iff : ChainAccepted platform (Clock.constant now) dsc registry ↔
    ∃ csca ∈ registry.anchors, csca.purpose = .csca ∧ csca.certificate.subject = dsc.issuer ∧
      VouchedBy platform now dsc csca.certificate := by
  rw [ChainAccepted, exists_comm]
  simp only [Clock.constant, exists_and_right, ← mem_iff_getElem?, mem_cscaCandidates, and_assoc]

variable {crls : List Bytes}

theorem mem_crlPairs {issuer : Name} {pair : Bytes × TrustAnchor} :
    pair ∈ crlPairs registry issuer crls ↔ pair.1 ∈ crls ∧ pair.2 ∈ cscaCandidates registry issuer := by
  obtain ⟨crlDer, csca⟩ := pair
  simp [crlPairs]

theorem revocationAccepted_constant_iff :
    RevocationAccepted platform (Clock.constant now) dsc registry crls ↔
      ∃ dscDer, platform.certificateToDer dsc = .ok dscDer ∧
        (∀ pair ∈ crlPairs registry dsc.issuer crls, ∀ status,
          crlJudgement platform now dscDer pair = .ok status → status.revoked = false) ∧
        ∃ pair ∈ crlPairs registry dsc.issuer crls, ∃ status, crlJudgement platform now dscDer pair = .ok status := by
  refine exists_congr fun dscDer => and_congr_right fun _ => and_congr ?_ ?_
  · rw [NoneRevoked, forall_comm]
    simp only [Clock.constant, mem_iff_getElem?, forall_exists_index]
    exact forall_congr' (fun pair => forall_congr' (fun j => forall_comm))
  · rw [SomeAuthenticated, exists_comm]
    simp only [Clock.constant, exists_and_left, exists_and_right, ← mem_iff_getElem?]

/-- **The verdict does not depend on any order.** -/
theorem verified_of_perm {order order' : IterationOrder (Nat × Bytes)} {sod : SecurityObject}
    {dataGroups : SortedMap Nat Bytes} {options options' : EmrtdVerificationOptions}
    (hanchors : registry'.anchors.Perm registry.anchors) (hcrls : options'.crls.Perm options.crls) :
    (verifyEmrtdWithOptions platform (Clock.constant now) order' sod dataGroups registry' options').verified =
      (verifyEmrtdWithOptions platform (Clock.constant now) order sod dataGroups registry options).verified := by
  have hcandidates : ∀ issuer anchor,
      anchor ∈ cscaCandidates registry' issuer ↔ anchor ∈ cscaCandidates registry issuer := by
    intro issuer anchor
    rw [mem_cscaCandidates, mem_cscaCandidates, hanchors.mem_iff]
  have hpairs : ∀ issuer pair,
      pair ∈ crlPairs registry' issuer options'.crls ↔ pair ∈ crlPairs registry issuer options.crls := by
    intro issuer pair
    rw [mem_crlPairs, mem_crlPairs, hcrls.mem_iff, hcandidates]
  have hempty : options'.crls = [] ↔ options.crls = [] := ⟨fun h => (h ▸ hcrls).nil_eq.symm, fun h => (h ▸ hcrls).eq_nil⟩
  rw [Bool.eq_iff_iff, verifyEmrtdWithOptions_verified_iff, verifyEmrtdWithOptions_verified_iff]
  simp only [chainAccepted_constant_iff, revocationAccepted_constant_iff, hanchors.mem_iff, hpairs, ne_eq, hempty]

end

/-! ## What the bytes of a SOD contain -/

section

/-- The certificates of a certificate set. -/
def embeddedCertificates (certs : List CertificateChoices) : List Certificate :=
  certs.filterMap (fun choice =>
    match choice with
    | .certificate cert => some cert
    | .other _ => none)

/-- Those that match a signer identifier. -/
def matchingCertificates (certs : List CertificateChoices) (signerId : SignerIdentifier) : List Certificate :=
  (embeddedCertificates certs).filter (fun cert => signerIdMatches platform cert signerId = .ok true)

variable {certs : List CertificateChoices} {kind : DocumentKind} {signerId : SignerIdentifier}

theorem searchSigner_ok
    {found result : Option Certificate} (h : searchSigner platform signerId kind certs found = .ok result) :
    result.toList = found.toList ++ matchingCertificates platform certs signerId := by
  induction certs generalizing found with
  | nil =>
    cases h
    simp [matchingCertificates, embeddedCertificates]
  | cons choice rest ih =>
    cases choice with
    | other raw => exact ih h
    | certificate cert =>
      obtain ⟨isMatch, hmatches, h⟩ := of_bind h
      cases isMatch with
      | false =>
        have hskip : matchingCertificates platform (.certificate cert :: rest) signerId =
            matchingCertificates platform rest signerId := filter_cons_of_neg (by simp [hmatches])
        rw [hskip]
        exact ih h
      | true =>
        have htake : matchingCertificates platform (.certificate cert :: rest) signerId =
            cert :: matchingCertificates platform rest signerId := filter_cons_of_pos (by simp [hmatches])
        cases found with
        | some other => cases h
        | none =>
          rw [htake]
          exact ih h

/-- The certificate found is the only one that matches. -/
theorem findSignerCertificate_ok
    {cert : Certificate} (h : findSignerCertificate platform certs signerId kind = .ok cert) :
    matchingCertificates platform certs signerId = [cert] := by
  obtain ⟨found, hsearch, h⟩ := of_bind h
  obtain rfl := orFail_ok_iff.mp h
  exact (searchSigner_ok platform hsearch).symm

variable {signedData : SignedData}

theorem exactlyOneSigner_ok {signer : SignerInfo}
    (h : exactlyOneSigner signedData kind = .ok signer) : signedData.signerInfos = [signer] := by
  unfold exactlyOneSigner at h
  split at h
  · cases h
  · rename_i heq
    rw [heq, Except.ok.inj h]
  · cases h

/-- The loop accepts hashes of the right length with different numbers from 1 to 16, and keeps them as they are. -/
theorem parseDataGroupHashes_ok_iff {hashAlgorithm : String} {expectedHashLen : Nat} {entries : List Asn1DataGroupHash}
    {seen : List Nat} {parsed : List DataGroupHash} :
    parseDataGroupHashes hashAlgorithm expectedHashLen entries seen = .ok parsed ↔
      ((entries.map Asn1DataGroupHash.dataGroupNumber).Nodup ∧
        ∀ n ∈ entries.map Asn1DataGroupHash.dataGroupNumber, n ∉ seen) ∧
      (∀ entry ∈ entries, (1 ≤ entry.dataGroupNumber ∧ entry.dataGroupNumber ≤ 16) ∧
        entry.dataGroupHashValue.length = expectedHashLen) ∧
      parsed = entries.map (fun entry => ⟨entry.dataGroupNumber, entry.dataGroupHashValue⟩) := by
  induction entries generalizing seen parsed with
  | nil => simp [parseDataGroupHashes, eq_comm]
  | cons entry rest ih =>
    rw [map_cons, nodup_fresh_cons_iff, forall_mem_cons, parseDataGroupHashes, reject_bind_ok_iff,
      reject_bind_ok_iff, reject_bind_ok_iff, bind_ok_iff]
    simp only [ih, ne_eq, not_not, Except.ok.injEq]
    constructor
    · rintro ⟨hrange, hfresh, hlength, tail, ⟨hnumbers, hrest, rfl⟩, rfl⟩
      exact ⟨⟨hfresh, hnumbers⟩, ⟨⟨hrange, hlength⟩, hrest⟩, rfl⟩
    · rintro ⟨⟨hfresh, hnumbers⟩, ⟨⟨hrange, hlength⟩, hrest⟩, rfl⟩
      exact ⟨hrange, hfresh, hlength, _, ⟨hnumbers, hrest, rfl⟩, rfl⟩

/-- **What an accepted SOD contains.** -/
structure SodContents (sodDer : Bytes) (dsc : Certificate) (signedData : SignedData)
    (certs : List CertificateChoices) (signer : SignerInfo) (content : Bytes) (lds : LdsSecurityObject) : Prop where
  contentInfo : ∃ contentInfo, platform.contentInfoFromDer sodDer = .ok contentInfo ∧
    contentInfo.contentType = idSignedData ∧ platform.signedDataDecode contentInfo.content = .ok signedData
  econtentType : signedData.econtentType = idIcaoLdsSecurityObject
  econtent : signedData.econtent = some content
  parsed : parseLdsSecurityObject platform content = .ok lds
  oneSigner : signedData.signerInfos = [signer]
  certificates : signedData.certificates = some certs
  found : findSignerCertificate platform certs signer.sid .sod = .ok dsc

/-- The detour of the certificate over DER and PEM gives it back. -/
theorem extractDocumentSignerCert_some {pem : String}
    (h : extractDocumentSignerCert platform signedData = .ok (some pem)) :
    ∃ certs signer cert der, signedData.certificates = some certs ∧ signedData.signerInfos = [signer] ∧
      findSignerCertificate platform certs signer.sid .sod = .ok cert ∧
      platform.pemDecode pem = .ok ("CERTIFICATE", der) ∧ platform.certificateFromDer der = .ok cert := by
  unfold extractDocumentSignerCert at h
  cases hcerts : signedData.certificates with
  | none =>
    rw [hcerts] at h
    cases h
  | some certs =>
    rw [hcerts] at h
    obtain ⟨signer, hsigner, h⟩ := of_bind h
    obtain ⟨cert, hcert, h⟩ := of_bind h
    obtain ⟨der, hder, h⟩ := of_bind h
    obtain ⟨encoded, hencoded, h⟩ := of_bind h
    obtain rfl := Option.some.inj (Except.ok.inj h)
    rw [mapError_ok_iff] at hder hencoded
    exact ⟨certs, signer, cert, der, rfl, exactlyOneSigner_ok hsigner, hcert,
      platform.pemDecode_encode der _ hencoded, platform.certificateFromDer_toDer cert der hder⟩

theorem fromSodDer_ok {sodDer : Bytes} {country : Option String} {sod : SecurityObject}
    (h : SecurityObject.fromSodDer platform sodDer country = .ok sod) :
    ∃ signedData certs signer content lds,
      SodContents platform sodDer sod.signerCertificate.certificate signedData certs signer content lds ∧
      sod.rawSod = some sodDer ∧ sod.hashAlgorithm = lds.hashAlgorithm ∧
      sod.dataGroupHashes = lds.dataGroupHashes.foldl
        (fun hashes dg => hashes.insert dg.dataGroupNumber dg.hashBytes) .empty := by
  obtain ⟨parsed, hparsed, h⟩ := of_bind h
  obtain ⟨pem, hpem, h⟩ := of_bind h
  obtain ⟨decoded, hdecoded, h⟩ := of_bind h
  obtain ⟨certificate, hcertificate, h⟩ := of_bind h
  cases h
  rw [orFail_ok_iff] at hpem
  rw [mapError_ok_iff] at hdecoded hcertificate
  obtain ⟨contentInfo, hcontentInfo, hparsed⟩ := of_bind hparsed
  obtain ⟨htype, hparsed⟩ := of_reject hparsed
  obtain ⟨signedData, hsignedData, hparsed⟩ := of_bind hparsed
  obtain ⟨lds, hlds, hparsed⟩ := of_bind hparsed
  obtain ⟨dscPem, hdscPem, hparsed⟩ := of_bind hparsed
  cases hparsed
  rw [mapError_ok_iff] at hcontentInfo hsignedData
  obtain rfl : dscPem = some pem := hpem
  obtain ⟨certs, signer, cert, der, hcerts, hsigner, hfound, hpemDecode, hfromDer⟩ :=
    extractDocumentSignerCert_some platform hdscPem
  obtain ⟨hecontentType, hlds⟩ := of_reject hlds
  obtain ⟨content, hcontent, hlds⟩ := of_bind hlds
  rw [hpemDecode] at hdecoded
  cases hdecoded
  obtain rfl : cert = certificate := Except.ok.inj (hfromDer.symm.trans hcertificate)
  refine ⟨signedData, certs, signer, content, lds, ?_, rfl, rfl, rfl⟩
  exact
    { contentInfo := ⟨contentInfo, hcontentInfo, not_not.mp htype, hsignedData⟩
      econtentType := not_not.mp hecontentType
      econtent := orFail_ok_iff.mp hcontent
      parsed := hlds
      oneSigner := hsigner
      certificates := hcerts
      found := hfound }

variable {sodDer content : Bytes} {dsc : Certificate} {signedData : SignedData} {certs : List CertificateChoices}
  {signer : SignerInfo} {lds : LdsSecurityObject}

/-- The bytes `data` that the signature is over are the content itself, or signed attributes that name its type and
    its digest. -/
def Covers (signedData : SignedData) (signer : SignerInfo) (content data : Bytes) : Prop :=
  (signer.signedAttrs = none ∧ data = content) ∨
  ∃ attrs algorithm contentType digest, signer.signedAttrs = some attrs ∧
    HashAlgorithm.fromOid signer.digestAlg.oid = .ok algorithm ∧
    singleSignedAttributeValue attrs idContentType = .ok contentType ∧
    platform.oidFromDer contentType = .ok signedData.econtentType ∧
    singleSignedAttributeValue attrs idMessageDigest = .ok digest ∧
    platform.octetStringFromDer digest = .ok (platform.hash algorithm content) ∧
    platform.attributesToDer attrs = .ok data

theorem covers_of_dataToVerify {algorithm : HashAlgorithm} {data : Bytes}
    (halgorithm : HashAlgorithm.fromOid signer.digestAlg.oid = .ok algorithm)
    (h : dataToVerify platform signedData signer content algorithm = .ok (some data)) :
    Covers platform signedData signer content data := by
  unfold dataToVerify at h
  cases hattrs : signer.signedAttrs with
  | none =>
    rw [hattrs] at h
    exact .inl ⟨hattrs, (Option.some.inj (Except.ok.inj h)).symm⟩
  | some attrs =>
    rw [hattrs] at h
    obtain ⟨contentType, hcontentType, h⟩ := of_bind h
    obtain ⟨value, hvalue, h⟩ := of_bind h
    split at h
    · cases h
    · rename_i htype
      obtain ⟨digest, hdigest, h⟩ := of_bind h
      obtain ⟨messageDigest, hmessageDigest, h⟩ := of_bind h
      split at h
      · cases h
      · rename_i hhash
        obtain ⟨der, hder, h⟩ := of_bind h
        rw [mapError_ok_iff] at hvalue hmessageDigest hder
        obtain rfl := Option.some.inj (Except.ok.inj h)
        obtain rfl := not_not.mp htype
        obtain rfl := not_not.mp hhash
        exact .inr ⟨attrs, algorithm, contentType, digest, hattrs, halgorithm, hcontentType, hvalue, hdigest,
          hmessageDigest, hder⟩

/-- **The signature check speaks about the same certificate and content**: it starts from the same bytes. -/
theorem SodContents.signed (h : SodContents platform sodDer dsc signedData certs signer content lds)
    (hverify : verifySodSignature platform sodDer = .ok true) :
    ∃ key data, platform.spkiToDer dsc.subjectPublicKeyInfo = .ok key ∧
      Covers platform signedData signer content data ∧
      platform.verifySignatureWithAlgorithmIdentifier signer.signatureAlgorithm key data signer.signature =
        .ok true := by
  obtain ⟨contentInfo, hcontentInfo, -, hsignedData⟩ := h.contentInfo
  have hsigner : exactlyOneSigner signedData .sod = .ok signer := by rw [exactlyOneSigner, h.oneSigner]
  simp only [verifySodSignature, mapError_ok_iff.mpr hcontentInfo, mapError_ok_iff.mpr hsignedData, ok_bind, h.certificates,
    h.econtent, hsigner, h.found, Result.orFail] at hverify
  obtain ⟨key, hkey, hverify⟩ := of_bind hverify
  obtain ⟨-, hverify⟩ := of_reject hverify
  obtain ⟨algorithm, halgorithm, hverify⟩ := of_bind hverify
  obtain ⟨found, hfound, hverify⟩ := of_bind hverify
  rw [mapError_ok_iff] at hkey halgorithm
  cases found with
  | none => cases hverify
  | some data =>
    exact ⟨key, data, hkey, covers_of_dataToVerify platform halgorithm hfound, mapError_ok_iff.mp hverify⟩

/-- The expected hashes are looked up as they stand in the LDS security object. -/
theorem SodContents.get?_hashes (h : SodContents platform sodDer dsc signedData certs signer content lds)
    (n : Nat) (hash : Bytes) :
    (lds.dataGroupHashes.foldl (fun (hashes : SortedMap Nat Bytes) dg =>
        hashes.insert dg.dataGroupNumber dg.hashBytes) .empty).get? n = some hash ↔
      ⟨n, hash⟩ ∈ lds.dataGroupHashes := by
  have hnodup : (lds.dataGroupHashes.map DataGroupHash.dataGroupNumber).Nodup := by
    obtain ⟨asn1, -, hlds⟩ := of_bind h.parsed
    obtain ⟨-, hlds⟩ := of_reject hlds
    obtain ⟨-, hlds⟩ := of_reject hlds
    obtain ⟨-, hlds⟩ := of_reject hlds
    obtain ⟨algorithm, -, hlds⟩ := of_bind hlds
    obtain ⟨hashes, hhashes, hlds⟩ := of_bind hlds
    cases hlds
    obtain ⟨⟨hnodup, -⟩, -, rfl⟩ := parseDataGroupHashes_ok_iff.mp hhashes
    rwa [map_map]
  rw [get?_foldl_insert hnodup]
  simp only [get?_empty, reduceCtorEq, and_false, or_false]
  constructor
  · rintro ⟨dg, hmem, rfl, rfl⟩
    exact hmem
  · intro hmem
    exact ⟨_, hmem, rfl, rfl⟩

end

/-! ## What an accepted CRL says -/

/-- **A CRL that is authenticated under an anchor**: issued and signed by it, fresh, for a certificate that the anchor
    issued; it reports the certificate revoked exactly when it lists its serial number. -/
theorem crlJudgement_ok {now : Int} {dsc : Certificate} {dscDer crlDer : Bytes} {csca : TrustAnchor}
    {status : ValidatedCrlStatus} (hdsc : platform.certificateToDer dsc = .ok dscDer)
    (h : crlJudgement platform now dscDer (crlDer, csca) = .ok status) :
    ∃ crl, platform.certificateListFromDer crlDer = .ok crl ∧
      platform.verifyParsedCertificateSignature dsc csca.certificate = .ok true ∧
      authenticateCrl platform now crl csca.certificate = .ok () ∧
      (status.revoked = true ↔ ∃ entry ∈ crl.revokedCertificates.getD [], entry.serialNumber = dsc.serialNumber) := by
  unfold crlJudgement at h
  cases hcsca : platform.certificateToDer csca.certificate with
  | error error =>
    rw [hcsca] at h
    cases h
  | ok cscaDer =>
    rw [hcsca] at h
    obtain ⟨crl, hcrl, h⟩ := of_bind h
    obtain ⟨cert, hcert, h⟩ := of_bind h
    obtain ⟨issuer, hissuer, h⟩ := of_bind h
    rw [mapError_ok_iff] at hcrl hcert hissuer
    obtain rfl := Except.ok.inj ((platform.certificateFromDer_toDer dsc dscDer hdsc).symm.trans hcert)
    obtain rfl := Except.ok.inj ((platform.certificateFromDer_toDer _ cscaDer hcsca).symm.trans hissuer)
    obtain ⟨-, h⟩ := of_reject h
    obtain ⟨valid, hvalid, h⟩ := of_bind h
    obtain ⟨hvalidTrue, h⟩ := of_reject h
    obtain ⟨_, hauthentic, h⟩ := of_bind h
    rw [Bool.not_eq_false] at hvalidTrue
    refine ⟨crl, hcrl, hvalidTrue ▸ hvalid, hauthentic, ?_⟩
    split at h
    · rename_i entry hentry
      cases h
      simp only [true_iff]
      exact ⟨entry, mem_of_find?_eq_some hentry, by simpa using find?_some hentry⟩
    · rename_i hnone
      cases h
      simpa using hnone

/-! ## The main theorem -/

/-- **Passive authentication**: what `verified` stands for. Each reading of the clock is the one at which the code
    looked. -/
structure PassivelyAuthenticated (clock : Clock) (sodDer : Bytes) (dataGroups : SortedMap Nat Bytes)
    (registry : CscaRegistry) (crls : List Bytes) (dsc : Certificate) (signedData : SignedData)
    (certs : List CertificateChoices) (signer : SignerInfo) (content : Bytes) (lds : LdsSecurityObject) : Prop where
  contents : SodContents platform sodDer dsc signedData certs signer content lds
  unique : matchingCertificates platform certs signer.sid = [dsc]
  vouched : ∃ csca ∈ registry.anchors, csca.purpose = .csca ∧ csca.certificate.subject = dsc.issuer ∧
    ∃ i, VouchedBy platform (clock.chain i) dsc csca.certificate
  signature : ∃ key data, platform.spkiToDer dsc.subjectPublicKeyInfo = .ok key ∧
    Covers platform signedData signer content data ∧
    platform.verifySignatureWithAlgorithmIdentifier signer.signatureAlgorithm key data signer.signature = .ok true
  groups : ∀ n, (dataGroups.get? n).isSome = true ↔ n ∈ lds.dataGroupHashes.map DataGroupHash.dataGroupNumber
  digests : ∃ algorithm, dataGroupHashAlgorithm lds.hashAlgorithm = .ok algorithm ∧
    ∀ dg ∈ lds.dataGroupHashes, ∃ dgContent, dataGroups.get? dg.dataGroupNumber = some dgContent ∧
      platform.hash algorithm dgContent = dg.hashBytes
  authenticated : crls ≠ [] → ∃ crlDer ∈ crls, ∃ crl, platform.certificateListFromDer crlDer = .ok crl ∧
    ∃ csca ∈ registry.anchors, csca.purpose = .csca ∧ csca.certificate.subject = dsc.issuer ∧
      ∃ i, authenticateCrl platform (clock.crl i) crl csca.certificate = .ok ()
  notRevoked : ∀ dscDer, platform.certificateToDer dsc = .ok dscDer →
    ∀ j crlDer csca status, (crlPairs registry dsc.issuer crls)[j]? = some (crlDer, csca) →
      crlJudgement platform (clock.crl j) dscDer (crlDer, csca) = .ok status → status.revoked = false

section

variable {clock : Clock} {sodDer : Bytes} {dataGroups : SortedMap Nat Bytes} {registry : CscaRegistry}
  {crls : List Bytes} {dsc : Certificate} {signedData : SignedData} {certs : List CertificateChoices}
  {signer : SignerInfo} {content : Bytes} {lds : LdsSecurityObject}

theorem RevocationAccepted.authenticated (h : RevocationAccepted platform clock dsc registry crls) :
    ∃ crlDer ∈ crls, ∃ crl, platform.certificateListFromDer crlDer = .ok crl ∧
      ∃ csca ∈ registry.anchors, csca.purpose = .csca ∧ csca.certificate.subject = dsc.issuer ∧
        ∃ i, authenticateCrl platform (clock.crl i) crl csca.certificate = .ok () := by
  obtain ⟨dscDer, hdsc, -, j, ⟨crlDer, csca⟩, status, hget, hstatus⟩ := h
  obtain ⟨hcrl, hcandidate⟩ := mem_crlPairs.mp (mem_of_getElem? hget)
  obtain ⟨hmem, hpurpose, hsubject⟩ := mem_cscaCandidates.mp hcandidate
  obtain ⟨crl, hparsed, -, hauthentic, -⟩ := crlJudgement_ok platform hdsc hstatus
  exact ⟨crlDer, hcrl, crl, hparsed, csca, hmem, hpurpose, hsubject, _, hauthentic⟩

/-- The data groups and the LDS security object have the same numbers, and the digests are the LDS object's. -/
theorem SodContents.groups_digests (h : SodContents platform sodDer dsc signedData certs signer content lds)
    (haccepted : HashesAccepted platform lds.hashAlgorithm
      (lds.dataGroupHashes.foldl (fun hashes dg => hashes.insert dg.dataGroupNumber dg.hashBytes) .empty)
      dataGroups) :
    (∀ n, (dataGroups.get? n).isSome = true ↔ n ∈ lds.dataGroupHashes.map DataGroupHash.dataGroupNumber) ∧
    ∃ algorithm, dataGroupHashAlgorithm lds.hashAlgorithm = .ok algorithm ∧
      ∀ dg ∈ lds.dataGroupHashes, ∃ dgContent, dataGroups.get? dg.dataGroupNumber = some dgContent ∧
        platform.hash algorithm dgContent = dg.hashBytes := by
  obtain ⟨-, algorithm, halgorithm, -, hget⟩ := (hashesAccepted_iff platform).mp haccepted
  refine ⟨fun n => ?_, algorithm, halgorithm, fun dg hdg => ?_⟩
  · rw [← Option.isSome_map (f := platform.hash algorithm), ← hget, Option.isSome_iff_exists, mem_map]
    simp only [h.get?_hashes]
    constructor
    · rintro ⟨hash, hmem⟩
      exact ⟨_, hmem, rfl⟩
    · rintro ⟨dg, hmem, rfl⟩
      exact ⟨dg.hashBytes, hmem⟩
  · exact Option.map_eq_some_iff.mp ((hget _).symm.trans ((h.get?_hashes platform _ _).mpr hdg))

end

/-- **Passive authentication is sound, and its verdict depends on no order.** -/
theorem passive_authentication_sound (sodDer : Bytes) (country : Option String) (sod : SecurityObject)
    (hsod : SecurityObject.fromSodDer platform sodDer country = .ok sod) (dataGroups : SortedMap Nat Bytes)
    (registry : CscaRegistry) (options : EmrtdVerificationOptions) :
    (∀ clock order, (verifyEmrtdWithOptions platform clock order sod dataGroups registry options).verified = true →
      ∃ dsc signedData certs signer content lds, PassivelyAuthenticated platform clock sodDer dataGroups registry
        options.crls dsc signedData certs signer content lds) ∧
    ∀ (now : Int) (order order' : IterationOrder (Nat × Bytes)) (registry' : CscaRegistry)
      (options' : EmrtdVerificationOptions), registry'.anchors.Perm registry.anchors →
      options'.crls.Perm options.crls →
      (verifyEmrtdWithOptions platform (Clock.constant now) order' sod dataGroups registry' options').verified =
        (verifyEmrtdWithOptions platform (Clock.constant now) order sod dataGroups registry options).verified := by
  refine ⟨?_, fun now order order' registry' options' => verified_of_perm platform⟩
  intro clock order hverified
  obtain ⟨hchain, ⟨rawSod, hraw, hsigned⟩, hhashes, hrevocation⟩ :=
    (verifyEmrtdWithOptions_verified_iff platform).mp hverified
  obtain ⟨signedData, certs, signer, content, lds, hcontents, hrawSod, halgorithm, hmap⟩ := fromSodDer_ok platform hsod
  obtain rfl : sodDer = rawSod := Option.some.inj (hrawSod.symm.trans hraw)
  rw [halgorithm, hmap] at hhashes
  obtain ⟨hgroups, hdigests⟩ := hcontents.groups_digests platform hhashes
  obtain ⟨j, csca, hget, hvouched⟩ := hchain
  obtain ⟨hmem, hpurpose, hsubject⟩ := mem_cscaCandidates.mp (mem_of_getElem? hget)
  refine ⟨sod.signerCertificate.certificate, signedData, certs, signer, content, lds, ?_⟩
  exact
    { contents := hcontents
      unique := findSignerCertificate_ok platform hcontents.found
      vouched := ⟨csca, hmem, hpurpose, hsubject, j, hvouched⟩
      signature := hcontents.signed platform hsigned
      groups := hgroups
      digests := hdigests
      authenticated := fun hcrls => (hrevocation hcrls).authenticated platform
      notRevoked := by
        intro dscDer hder i crlDer csca status hpair hstatus
        have hcrls : options.crls ≠ [] := by
          intro hnil
          rw [hnil] at hpair
          cases hpair
        obtain ⟨der, hder', hnone, -⟩ := hrevocation hcrls
        obtain rfl := Except.ok.inj (hder.symm.trans hder')
        exact hnone i _ status hpair (by rwa [Nat.zero_add]) }

/-! ## A travel document -/

/-- A certificate issued by `1` and valid from `0` to `10`. -/
def sampleCertificate (subject : UInt8) (extensions : List Chain.Extension) : Certificate where
  subject := [subject]
  issuer := [1]
  notBefore := 0
  notAfter := 10
  tbsSignatureOid := "1.2"
  signatureAlgorithmOid := "1.2"
  extensions := some extensions
  remainder := []
  serialNumber := [subject]
  subjectPublicKeyInfo := [subject]

def sampleCsca : Certificate := sampleCertificate 1 [⟨Chain.idCeBasicConstraints, true, []⟩]

def sampleDsc : Certificate := sampleCertificate 2 [⟨Chain.idCeKeyUsage, true, []⟩]

/-- Signed by the second certificate, with the content `[3]`. -/
def sampleSignedData : SignedData where
  digestAlgorithms := [⟨"2.16.840.1.101.3.4.2.1", none⟩]
  econtentType := idIcaoLdsSecurityObject
  econtent := some [3]
  certificates := some [.certificate sampleDsc, .certificate sampleCsca]
  signerInfos :=
    [{ sid := .issuerAndSerialNumber [1] [2]
       digestAlg := ⟨"2.16.840.1.101.3.4.2.1", none⟩
       signedAttrs := some [⟨idContentType, [[7]]⟩, ⟨idMessageDigest, [[8]]⟩]
       signatureAlgorithm := ⟨"1.2", none⟩
       signature := [] }]

/-- Encodings of the values above; every digest is zero and every signature valid. -/
def samplePlatform : Platform where
  displayName _ := "name"
  displaySerialNumber _ := "serial"
  contentInfoFromDer _ := .ok ⟨idSignedData, [2]⟩
  signedDataDecode _ := .ok sampleSignedData
  ldsSecurityObjectFromDer _ := .ok
    { version := 0
      hashAlgorithm := "2.16.840.1.101.3.4.2.1"
      dataGroupHashValues := [⟨1, List.replicate 32 0⟩, ⟨2, List.replicate 32 0⟩]
      ldsVersionInfo := none }
  certificateFromDer der := if der = [1] then .ok sampleCsca else .ok sampleDsc
  certificateToDer cert :=
    if cert = sampleCsca then .ok [1] else if cert = sampleDsc then .ok [2] else .error "no encoding"
  certificateFromDer_toDer := by
    intro cert der h
    split at h
    · rename_i hcsca
      cases h
      rw [hcsca]
      rfl
    · split at h
      · rename_i hdsc
        cases h
        rw [hdsc]
        rfl
      · cases h
  pemEncode der := if der = [2] then .ok "pem" else .error "no pem"
  pemDecode _ := .ok ("CERTIFICATE", [2])
  pemDecode_encode := by
    intro der pem h
    split at h
    · rename_i hder
      rw [hder]
    · cases h
  spkiToDer := .ok
  subjectKeyIdentifierFromDer := .ok
  basicConstraintsFromDer _ := .ok ⟨true, none⟩
  keyUsageFromDer _ := .ok ⟨true, false, false⟩
  oidFromDer _ := .ok idIcaoLdsSecurityObject
  octetStringFromDer _ := .ok (List.replicate 32 0)
  attributesToDer _ := .ok []
  hash algorithm _ := List.replicate algorithm.digestSize 0
  verifySignatureWithAlgorithmIdentifier _ _ _ _ := .ok true
  verifyParsedCertificateSignature _ _ := .ok true
  certificateListFromDer _ := .ok
    { issuer := [1]
      tbsSignatureOid := "1.2"
      signatureAlgorithm := ⟨"1.2", none⟩
      thisUpdate := 0
      nextUpdate := none
      revokedCertificates := some [⟨[9], none⟩]
      crlExtensions := none
      signature := some []
      remainder := [] }
  tbsCertListToDer _ := .ok []

def sampleSod : SecurityObject where
  signerCertificate := ⟨sampleDsc, none, "serial"⟩
  hashAlgorithm := "2.16.840.1.101.3.4.2.1"
  dataGroupHashes := (SortedMap.empty.insert 1 (List.replicate 32 0)).insert 2 (List.replicate 32 0)
  rawSod := some [0]

def sampleDataGroups : SortedMap Nat Bytes := (SortedMap.empty.insert 2 [5]).insert 1 [4]

theorem passive_authentication_sound_sampleSod :
    ∃ dsc signedData certs signer content lds, PassivelyAuthenticated samplePlatform (Clock.constant 5) [0]
      sampleDataGroups ⟨[⟨sampleCsca, .iaca⟩, ⟨sampleCsca, .csca⟩]⟩ [[6]] dsc signedData certs signer content lds := by
  have hsod : SecurityObject.fromSodDer samplePlatform [0] none = .ok sampleSod := rfl
  exact (passive_authentication_sound samplePlatform [0] none sampleSod hsod sampleDataGroups _ ⟨[[6]]⟩).1 _
    ⟨id, List.Perm.refl⟩ (by decide)

end MartyCore.Emrtd
