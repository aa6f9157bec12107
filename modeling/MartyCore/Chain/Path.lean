import Mathlib.Data.List.Chain
import MartyCore.Chain.Model

/-!
# `Chain.Path` — what an accepted chain proves about its certification path

A certification path is sound (`SoundPath`) when every certificate is issued by the next (`Linked`), the last
one is a configured trust anchor, and every issuer on it that is not itself an anchor discharges its duties at
the validation moment (`IssuerDuties`): validity period, `ca`, `keyCertSign`, `pathLenConstraint`.

An accepted chain gets one inversion lemma per check, collected in `Accepted`. They make the presented part of
the path sound. The rest of the path is what `verify_trust_anchor` finds: nothing, an anchor, or a configured
intermediate under an anchor — and for that intermediate the source checks names and signatures only.
`accepted_path_sound_iff` says when the whole path is sound, and `unsound_intermediate_accepted` is an accepted
chain with no sound path at all.
-/

namespace MartyCore.Chain

open Result List

variable {platform : Platform} {validator : ChainValidator}

/-! ## Sound certification paths -/

/-- `issuer` issued `subject`: the names match and the signature verifies. -/
def Linked (platform : Platform) (subject issuer : Certificate) : Prop :=
  subject.issuer = issuer.subject ∧ platform.verifyParsedCertificateSignature subject issuer = .ok true

/-- The certificate is one of the configured trust anchors, or has the encoding of one. -/
def IsAnchor (platform : Platform) (validator : ChainValidator) (cert : Certificate) : Prop :=
  cert ∈ validator.trustAnchors ∨ isConfiguredTrustAnchor platform validator cert = true

/-- A CA with `keyCertSign` if it has a KeyUsage, above no more intermediate CAs than its path length allows.
    `below` are the CA certificates between it and the end entity. -/
def CaDuties (platform : Platform) (below : List Certificate) (cert : Certificate) : Prop :=
  (∃ constraints, getBasicConstraints platform cert = .ok (some constraints) ∧ constraints.ca = true ∧
    ∀ pathLen, constraints.pathLenConstraint = some pathLen → (below.filter notSelfIssued).length ≤ pathLen) ∧
  ∃ keyUsage, getKeyUsage platform cert = .ok keyUsage ∧ ∀ usage, keyUsage = some usage → usage.keyCertSign = true

/-- What a certificate that issues another one owes at the instant `now`. -/
def IssuerDuties (platform : Platform) (now : Int) (below : List Certificate) (cert : Certificate) : Prop :=
  (cert.notBefore ≤ now ∧ now ≤ cert.notAfter) ∧ CaDuties platform below cert

/-- **A sound certification path** from `endEntity` through `issuers`. -/
structure SoundPath (platform : Platform) (validator : ChainValidator) (now : Int)
    (endEntity : Certificate) (issuers : List Certificate) : Prop where
  linked : (endEntity :: issuers).IsChain (Linked platform)
  anchored : ∃ anchor, (endEntity :: issuers).getLast? = some anchor ∧ IsAnchor platform validator anchor
  duties : ∀ below cert above, issuers = below ++ cert :: above →
    ¬ IsAnchor platform validator cert → IssuerDuties platform now below cert

/-! ## The verdict as a fold -/

section

variable {result : ChainValidationResult}

theorem record_valid {α : Type} {check : Except String α} {describe : String → String} :
    (result.record check describe).valid = true ↔ result.valid = true ∧ ∃ a, check = .ok a := by
  cases check with
  | error e => simp [ChainValidationResult.record, ChainValidationResult.pushError]
  | ok a => simp [ChainValidationResult.record]

theorem invalid_report (mode : String) (r : ChainValidationResult) (message : String) (hr : r.valid = false) :
    (r.report mode message).valid = false := by
  unfold ChainValidationResult.report
  split
  · rfl
  · exact hr

section

/-! The revocation blocks change a result through `report` only. -/

variable {P : ChainValidationResult → Prop} {texts : RevocationTexts} {mode : String} {chain : List Certificate}

theorem reportFinding_keeps (hreport : ∀ r message, P r → P (r.report mode message)) (h : P result) (i : Nat)
    (finding : Except String Bool) : P (reportFinding texts mode i finding result) := by
  unfold reportFinding
  split
  · exact h
  · exact hreport _ _ h
  · exact hreport _ _ h

theorem reportFindings_keeps (hreport : ∀ r message, P r → P (r.report mode message)) (h : P result)
    {isAnchor : Certificate → Bool} {check : Certificate → Except String Bool} (i : Nat) :
    P (reportFindings texts mode isAnchor check i chain result) := by
  induction chain generalizing i result with
  | nil => exact h
  | cons cert rest ih =>
    apply ih
    split
    · exact h
    · exact reportFinding_keeps hreport h i _

variable (hreport : ∀ r message, P r → P (r.report validator.config.revocationMode message)) (h : P result)

include hreport h

theorem revocationBlock_keeps {evidence : List Bytes} {check : Certificate → Except String Bool} :
    P (revocationBlock platform texts validator evidence check chain result) := by
  unfold revocationBlock
  split
  · exact hreport _ _ h
  · exact reportFindings_keeps hreport h 0

theorem crlBlock_keeps : P (crlBlock platform validator chain result) := by
  unfold crlBlock
  split
  · exact revocationBlock_keeps hreport h
  · exact h

theorem ocspBlock_keeps : P (ocspBlock platform validator chain result) := by
  unfold ocspBlock
  split
  · exact revocationBlock_keeps hreport h
  · exact h

end

theorem valid_of_recordKeyUsage {config : ChainValidatorConfig} {endEntity : Certificate}
    (h : (recordKeyUsage platform config endEntity result).valid = true) : result.valid = true := by
  unfold recordKeyUsage at h
  split at h
  · exact h
  · split at h
    · exact h
    · cases h

end

/-! ## The checks of the presented chain -/

theorem checkValidity_ok_iff {cert : Certificate} {now : Int} :
    (∃ a, checkValidity cert now = .ok a) ↔ cert.notBefore ≤ now ∧ now ≤ cert.notAfter := by
  unfold checkValidity
  simp [reject_bind_ok_iff, reject_ok_iff]

variable {chain : List Certificate} {result : ChainValidationResult} {i : Nat}

theorem checkValidities_valid {now : Int} :
    (checkValidities now i chain result).valid = true ↔
      result.valid = true ∧ ∀ cert ∈ chain, cert.notBefore ≤ now ∧ now ≤ cert.notAfter := by
  induction chain generalizing i result with
  | nil => simp [checkValidities]
  | cons cert rest ih =>
    unfold checkValidities
    rw [ih, record_valid, checkValidity_ok_iff, forall_mem_cons, and_assoc]

variable {u : Unit} {issuer subject : Certificate}

theorem verifyCertificateSignature_ok
    (h : verifyCertificateSignature platform subject issuer = .ok u) :
    platform.verifyParsedCertificateSignature subject issuer = .ok true := by
  unfold verifyCertificateSignature at h
  split at h
  · assumption
  · cases h
  · cases h

theorem verifyChainSignatures_ok
    (h : verifyChainSignatures platform i chain = .ok u) : chain.IsChain (Linked platform) := by
  induction chain generalizing i with
  | nil => exact List.IsChain.nil
  | cons subject rest ih =>
    cases rest with
    | nil => exact List.IsChain.singleton subject
    | cons issuer rest =>
      obtain ⟨hnames, h⟩ := of_reject h
      obtain ⟨_, hsig, hrest⟩ := of_bind h
      rw [mapError_ok_iff] at hsig
      refine isChain_cons_cons.mpr ⟨⟨not_ne_iff.mp hnames, ?_⟩, ih hrest⟩
      exact verifyCertificateSignature_ok hsig

theorem checkIssuer_ok {below : List Certificate}
    (h : checkIssuer platform i below issuer = .ok u) : CaDuties platform below issuer := by
  obtain ⟨found, hfound, h⟩ := of_bind h
  obtain ⟨constraints, hconstraints, h⟩ := of_bind h
  rw [mapError_ok_iff] at hfound
  rw [orFail_ok_iff] at hconstraints
  rw [hconstraints] at hfound
  obtain ⟨hca, h⟩ := of_reject h
  obtain ⟨keyUsage, hkey, h⟩ := of_bind h
  rw [mapError_ok_iff] at hkey
  obtain ⟨hsign, h⟩ := of_reject h
  refine ⟨⟨constraints, hfound, by simpa using hca, ?_⟩, keyUsage, hkey, ?_⟩
  · intro pathLen hlen
    simp only [hlen] at h
    exact Nat.le_of_not_lt (reject_ok_iff.mp h)
  · rintro usage rfl
    simpa using hsign

/-- The run lemma: each issuer is checked against the CA certificates before it. -/
theorem checkIssuers_ok {issuers : List Certificate} {passed : List Certificate}
    (h : checkIssuers platform i passed issuers = .ok u) :
    ∀ below cert above, issuers = below ++ cert :: above → CaDuties platform (passed ++ below) cert := by
  induction issuers generalizing i passed with
  | nil =>
    intro below cert above heq
    exact absurd heq (by simp)
  | cons issuer rest ih =>
    obtain ⟨_, hissuer, hrest⟩ := of_bind h
    intro below cert above heq
    cases below with
    | nil =>
      injection heq with hhead _
      rw [← hhead, append_nil]
      exact checkIssuer_ok hissuer
    | cons first below =>
      injection heq with hhead htail
      have hduties := ih hrest below cert above htail
      rw [← hhead]
      rwa [append_assoc, singleton_append] at hduties

/-! ## The trust anchor -/

theorem matchesAnchor_ok_true {last : Certificate} {anchors : List Certificate}
    (h : matchesAnchor platform last anchors = .ok true) :
    ∃ anchor ∈ anchors, ∃ der, platform.toDer last = .ok der ∧ platform.toDer anchor = .ok der := by
  induction anchors with
  | nil => cases h
  | cons anchor rest ih =>
    -- two of the three branches go on with the rest
    have hrest : matchesAnchor platform last rest = .ok true → ∃ a ∈ anchor :: rest, ∃ der,
        platform.toDer last = .ok der ∧ platform.toDer a = .ok der := by
      intro hr
      obtain ⟨a, ha, hder⟩ := ih hr
      exact ⟨a, mem_cons_of_mem _ ha, hder⟩
    unfold matchesAnchor at h
    split at h
    · obtain ⟨lastDer, hlast, h⟩ := of_bind h
      obtain ⟨anchorDer, hanchor, h⟩ := of_bind h
      rw [mapError_ok_iff] at hlast hanchor
      split at h
      · rename_i heq
        subst heq
        exact ⟨anchor, mem_cons_self, lastDer, hlast, hanchor⟩
      · exact hrest h
    · exact hrest h

theorem linked_of_isIssuedBy
    (h : isIssuedBy platform subject issuer = true) : Linked platform subject issuer := by
  unfold isIssuedBy at h
  rw [Bool.and_eq_true, decide_eq_true_eq] at h
  refine ⟨h.1.symm, ?_⟩
  cases hv : verifyCertificateSignature platform subject issuer with
  | error e =>
    rw [hv] at h
    cases h.2
  | ok u => exact verifyCertificateSignature_ok hv

/-- The three ways in which `verify_trust_anchor` succeeds. -/
def Trusted (platform : Platform) (validator : ChainValidator) (last : Certificate) : Prop :=
  IsAnchor platform validator last ∨
  (∃ anchor ∈ validator.trustAnchors, Linked platform last anchor) ∨
  ∃ intermediate ∈ validator.intermediates, ∃ anchor ∈ validator.trustAnchors,
    Linked platform last intermediate ∧ Linked platform intermediate anchor

theorem verifyTrustAnchor_ok (h : verifyTrustAnchor platform validator chain = .ok u) :
    ∃ last, chain.getLast? = some last ∧ Trusted platform validator last := by
  obtain ⟨-, h⟩ := of_reject h
  obtain ⟨last, hlast, h⟩ := of_bind h
  rw [orFail_ok_iff] at hlast
  obtain ⟨isRoot, hroot, h⟩ := of_bind h
  refine ⟨last, hlast, ?_⟩
  cases isRoot with
  | true =>
    unfold isTrustedRoot at hroot
    split at hroot
    · obtain ⟨anchor, hanchor, der, hl, ha⟩ := matchesAnchor_ok_true hroot
      refine .inl (.inr ?_)
      rw [isConfiguredTrustAnchor, hl]
      exact any_eq_true.mpr ⟨anchor, hanchor, by simp [ha]⟩
    · cases hroot
  | false =>
    simp only [Bool.false_eq_true, if_false] at h
    split at h
    · rename_i hany
      obtain ⟨anchor, hanchor, hissued⟩ := any_eq_true.mp hany
      exact .inr (.inl ⟨anchor, hanchor, linked_of_isIssuedBy hissued⟩)
    · split at h
      · rename_i hany
        obtain ⟨intermediate, hmem, hboth⟩ := any_eq_true.mp hany
        rw [Bool.and_eq_true] at hboth
        obtain ⟨anchor, hanchor, hissued⟩ := any_eq_true.mp hboth.2
        exact .inr (.inr ⟨intermediate, hmem, anchor, hanchor, linked_of_isIssuedBy hboth.1,
          linked_of_isIssuedBy hissued⟩)
      · cases h

/-! ## Accepted chains -/

/-- What the acceptance of a chain has established. -/
structure Accepted (platform : Platform) (validator : ChainValidator) (now : Int)
    (endEntity : Certificate) (rest : List Certificate) : Prop where
  linked : (endEntity :: rest).IsChain (Linked platform)
  duties : ∀ below cert above, rest = below ++ cert :: above → IssuerDuties platform now below cert
  trusted : ∃ last, (endEntity :: rest).getLast? = some last ∧ Trusted platform validator last

theorem accepted_of_valid {utcNow : Int} {endEntity : Certificate} {rest : List Certificate}
    (hrun : validateParsedChain platform validator utcNow (endEntity :: rest) = .ok result)
    (hvalid : result.valid = true) :
    Accepted platform validator (validator.now utcNow) endEntity rest := by
  cases hrun
  -- peel the fold from its last check to its first
  obtain ⟨hrevocation, _, htrust⟩ := record_valid.mp hvalid
  have hpresented : (checkPresentedChain platform validator utcNow endEntity (endEntity :: rest)).valid = true := by
    apply valid_of_recordKeyUsage
    -- an invalid result stays invalid through the revocation blocks
    by_contra hinvalid
    rw [ocspBlock_keeps (invalid_report _) (crlBlock_keeps (invalid_report _) (Bool.not_eq_true _ ▸ hinvalid))]
      at hrevocation
    cases hrevocation
  obtain ⟨hsigs, _, hconstraints⟩ := record_valid.mp hpresented
  obtain ⟨hvalidities, _, hsignatures⟩ := record_valid.mp hsigs
  obtain ⟨-, hperiods⟩ := checkValidities_valid.mp hvalidities
  obtain ⟨_, -, hissuers⟩ := of_bind hconstraints
  refine ⟨verifyChainSignatures_ok hsignatures, ?_, verifyTrustAnchor_ok htrust⟩
  intro below cert above heq
  have hmem : cert ∈ endEntity :: rest := by
    rw [heq]
    simp
  exact ⟨hperiods cert hmem, checkIssuers_ok hissuers below cert above heq⟩

/-! ## When the whole path is sound -/

/-- The certificates a path may continue with above the presented chain. -/
def ChainValidator.pool (validator : ChainValidator) : List Certificate :=
  validator.intermediates ++ validator.trustAnchors

/-- The path closes soundly above `last`: it is an anchor, an anchor issued it, or an intermediate issued it
    that an anchor issued and that owes nothing itself. `rest` are the presented certificates above the end
    entity. -/
def ClosesSoundly (platform : Platform) (validator : ChainValidator) (now : Int)
    (rest : List Certificate) (last : Certificate) : Prop :=
  IsAnchor platform validator last ∨
  (∃ anchor ∈ validator.pool, IsAnchor platform validator anchor ∧ Linked platform last anchor) ∨
  ∃ intermediate ∈ validator.pool, ∃ anchor ∈ validator.pool, IsAnchor platform validator anchor ∧
    Linked platform last intermediate ∧ Linked platform intermediate anchor ∧
    IssuerDuties platform now rest intermediate

section

variable {now : Int} {endEntity last : Certificate} {rest added : List Certificate}

/-- Extending an accepted chain by `added`: only the new links, the end and the new issuers are left to show. -/
theorem Accepted.soundPath (h : Accepted platform validator now endEntity rest)
    (hlast : (endEntity :: rest).getLast? = some last)
    (hchain : (last :: added).IsChain (Linked platform))
    (hanchored : ∃ anchor, (last :: added).getLast? = some anchor ∧ IsAnchor platform validator anchor)
    (hduties : ∀ below cert above, rest ++ added = below ++ cert :: above →
      ¬ IsAnchor platform validator cert → IssuerDuties platform now below cert) :
    SoundPath platform validator now endEntity (rest ++ added) := by
  have hchain' := isChain_cons.mp hchain
  refine ⟨?_, ?_, hduties⟩
  · refine isChain_append.mpr ⟨h.linked, hchain'.2, ?_⟩
    intro x hx y hy
    rw [hlast] at hx
    injection hx with hx
    exact hx ▸ hchain'.1 y hy
  · obtain ⟨anchor, hlast', hanchor⟩ := hanchored
    refine ⟨anchor, ?_, hanchor⟩
    cases added with
    | nil =>
      rw [append_nil, hlast]
      exact hlast'
    | cons first more =>
      rw [getLast?_cons_cons] at hlast'
      rw [← cons_append, getLast?_append, hlast']
      rfl

theorem Accepted.exists_soundPath (h : Accepted platform validator now endEntity rest)
    (hlast : (endEntity :: rest).getLast? = some last) (hcloses : ClosesSoundly platform validator now rest last) :
    ∃ added, added.length ≤ 2 ∧ (∀ cert ∈ added, cert ∈ validator.pool) ∧
      SoundPath platform validator now endEntity (rest ++ added) := by
  have hpresented : ∀ below cert above, rest = below ++ cert :: above →
      (¬ IsAnchor platform validator cert → IssuerDuties platform now below cert) :=
    fun below cert above heq _ => h.duties below cert above heq
  rcases hcloses with hanchor | ⟨anchor, hpool, hanchor, hlink⟩ |
    ⟨intermediate, hmid, anchor, hpool, hanchor, hlink, hlink', hduties⟩
  · refine ⟨[], by simp, by simp, ?_⟩
    apply h.soundPath hlast (List.IsChain.singleton last) ⟨last, rfl, hanchor⟩
    rw [append_nil]
    exact hpresented
  · refine ⟨[anchor], by simp, by simpa using hpool, ?_⟩
    apply h.soundPath hlast (isChain_pair.mpr hlink) ⟨anchor, rfl, hanchor⟩
    exact forall_split_concat.mpr ⟨hpresented, fun hnot => absurd hanchor hnot⟩
  · refine ⟨[intermediate, anchor], by simp, by simp [hmid, hpool], ?_⟩
    apply h.soundPath hlast (isChain_cons_cons.mpr ⟨hlink, isChain_pair.mpr hlink'⟩)
      ⟨anchor, rfl, hanchor⟩
    rw [← singleton_append, ← append_assoc]
    refine forall_split_concat.mpr ⟨?_, fun hnot => absurd hanchor hnot⟩
    exact forall_split_concat.mpr ⟨hpresented, fun _ => hduties⟩

theorem SoundPath.closesSoundly (hlen : added.length ≤ 2)
    (hpool : ∀ cert ∈ added, cert ∈ validator.pool) (hlast : (endEntity :: rest).getLast? = some last)
    (h : SoundPath platform validator now endEntity (rest ++ added)) :
    ClosesSoundly platform validator now rest last := by
  obtain ⟨anchor, hend, hanchor⟩ := h.anchored
  have hchain := h.linked
  rw [← cons_append] at hend hchain
  rw [getLast?_append, hlast] at hend
  obtain ⟨-, hext, hlink⟩ := isChain_append.mp hchain
  -- the extension the validator builds has at most two certificates
  rcases added with _ | ⟨first, _ | ⟨second, _ | ⟨third, more⟩⟩⟩
  · injection hend with hend
    exact .inl (hend ▸ hanchor)
  · injection hend with hend
    have hfirst : first = anchor := hend
    refine .inr (.inl ⟨first, hpool first (by simp), hfirst ▸ hanchor, ?_⟩)
    exact hlink last hlast first rfl
  · injection hend with hend
    have hsecond : second = anchor := hend
    have hlast' : Linked platform last first := hlink last hlast first rfl
    -- an anchor has no duties, but then the path could have ended there
    by_cases hfirst : IsAnchor platform validator first
    · exact .inr (.inl ⟨first, hpool first (by simp), hfirst, hlast'⟩)
    · refine .inr (.inr ⟨first, hpool first (by simp), second, hpool second (by simp),
        hsecond ▸ hanchor, hlast', isChain_pair.mp hext, ?_⟩)
      exact h.duties rest first [second] rfl hfirst
  · simp at hlen

end

/-- **When an accepted chain has a sound path.** Every accepted chain extends, by at most one configured
    intermediate and an anchor, to a linked path that ends in an anchor and whose presented issuers owe
    nothing. Such an extension can be chosen sound as a whole exactly when the path closes soundly: not when
    the only way up leads through a configured intermediate that fails its own duties. -/
theorem accepted_path_sound_iff {platform : Platform} {validator : ChainValidator} {utcNow : Int}
    {endEntity last : Certificate} {rest : List Certificate} {result : ChainValidationResult}
    (hrun : validateParsedChain platform validator utcNow (endEntity :: rest) = .ok result)
    (hvalid : result.valid = true) (hlast : (endEntity :: rest).getLast? = some last) :
    (IsAnchor platform validator last ∨
      (∃ anchor ∈ validator.trustAnchors, Linked platform last anchor) ∨
      ∃ intermediate ∈ validator.intermediates, ∃ anchor ∈ validator.trustAnchors,
        Linked platform last intermediate ∧ Linked platform intermediate anchor) ∧
    (endEntity :: rest).IsChain (Linked platform) ∧
    (∀ below cert above, rest = below ++ cert :: above → IssuerDuties platform (validator.now utcNow) below cert) ∧
    ((∃ added, added.length ≤ 2 ∧ (∀ cert ∈ added, cert ∈ validator.pool) ∧
        SoundPath platform validator (validator.now utcNow) endEntity (rest ++ added)) ↔
      ClosesSoundly platform validator (validator.now utcNow) rest last) := by
  have hacc := accepted_of_valid hrun hvalid
  refine ⟨?_, hacc.linked, hacc.duties, ?_, hacc.exists_soundPath hlast⟩
  · obtain ⟨last', hlast', htrusted⟩ := hacc.trusted
    rw [hlast] at hlast'
    injection hlast' with heq
    exact heq ▸ htrusted
  · rintro ⟨added, hlen, hpool, hsound⟩
    exact hsound.closesSoundly hlen hpool hlast

/-! ## A chain with no sound path -/

/-- Names are their text here. -/
def sampleName (text : String) : Name := text.toList.map (fun c => UInt8.ofNat c.toNat)

def basicConstraints (der : Bytes) : Extension := ⟨"2.5.29.19", true, der⟩
def keyUsage (der : Bytes) : Extension := ⟨"2.5.29.15", true, der⟩

/-- `SEQUENCE { BOOLEAN TRUE }` -/
def caTrueDer : Bytes := [0x30, 0x03, 0x01, 0x01, 0xff]
/-- `SEQUENCE { }` -/
def caFalseDer : Bytes := [0x30, 0x00]
/-- digitalSignature -/
def digitalSignatureDer : Bytes := [0x03, 0x02, 0x07, 0x80]
/-- keyCertSign, cRLSign -/
def keyCertSignDer : Bytes := [0x03, 0x02, 0x01, 0x06]

def sampleCertificate (subject issuer : String) (notAfter : Int) (extensions : List Extension)
    (serial : UInt8) : Certificate where
  subject := sampleName subject
  issuer := sampleName issuer
  notBefore := 0
  notAfter := notAfter
  tbsSignatureOid := "1.2.840.10045.4.3.2"
  signatureAlgorithmOid := "1.2.840.10045.4.3.2"
  extensions := some extensions
  remainder := [serial]

def rootCa : Certificate :=
  sampleCertificate "CN=Root" "CN=Root" 1000 [basicConstraints caTrueDer, keyUsage keyCertSignDer] 1

/-- Expired at 100, not a CA, and without `keyCertSign`. -/
def expiredLeaf : Certificate :=
  sampleCertificate "CN=Mid" "CN=Root" 100 [basicConstraints caFalseDer, keyUsage digitalSignatureDer] 2

/-- Issued by `expiredLeaf`. -/
def documentSigner : Certificate :=
  sampleCertificate "CN=Signer" "CN=Mid" 1000 [keyUsage digitalSignatureDer] 3

/-- Issued by `rootCa`. -/
def rootSigner : Certificate :=
  sampleCertificate "CN=Signer" "CN=Root" 1000 [keyUsage digitalSignatureDer] 4

/-- An issuer below `rootCa`. -/
def stateCa : Certificate :=
  sampleCertificate "CN=State" "CN=Root" 1000 [basicConstraints caTrueDer, keyUsage keyCertSignDer] 5

/-- Issued by `stateCa`. -/
def stateSigner : Certificate :=
  sampleCertificate "CN=Signer" "CN=State" 1000 [keyUsage digitalSignatureDer] 6

/-- The foreign code on these certificates: one signature per certificate, and a CRL `[1]` of the root that
    lists `rootSigner`. -/
def samplePlatform : Platform where
  displayName name := String.ofList (name.map (fun b => Char.ofNat b.toNat))
  toDer cert := .ok (cert.subject ++ cert.issuer ++ cert.remainder)
  basicConstraintsFromDer der :=
    if der = caTrueDer then .ok ⟨true, none⟩
    else if der = caFalseDer then .ok ⟨false, none⟩
    else .error "malformed"
  keyUsageFromDer der :=
    if der = keyCertSignDer then .ok ⟨true⟩
    else if der = digitalSignatureDer then .ok ⟨false⟩
    else .error "malformed"
  bitStringFromDer der :=
    if der = keyCertSignDer then .ok [0x06]
    else if der = digitalSignatureDer then .ok [0x80]
    else .error "malformed"
  verifyParsedCertificateSignature subject issuer :=
    .ok (decide ((subject, issuer) ∈ [(rootCa, rootCa), (expiredLeaf, rootCa),
      (documentSigner, expiredLeaf), (rootSigner, rootCa), (stateCa, rootCa), (stateSigner, stateCa)]))
  validateCrlForCertificate crl cert issuer :=
    if crl = [1] ∧ issuer = sampleName "CN=Root" ++ sampleName "CN=Root" ++ [1] then
      .ok (decide (cert = sampleName "CN=Signer" ++ sampleName "CN=Root" ++ [4]))
    else .error "CRL signature verification failed"
  validateOcspResponse _ _ _ := .error "OCSP response signature verification failed"

/-- The default configuration at the instant 500, over `rootCa` and `expiredLeaf`. -/
def sampleValidator : ChainValidator where
  trustAnchors := [rootCa]
  intermediates := [expiredLeaf]
  config :=
    { checkCrl := false
      checkOcsp := false
      revocationMode := "soft_fail"
      validationMoment := some 500
      requiredKeyUsage := [.digitalSignature] }
  crls := []
  ocspResponses := []

/-- The presented issuer `stateCa` owes nothing, and the path is sound up to `rootCa`. -/
theorem accepted_path_sound_iff_stateSigner :
    IssuerDuties samplePlatform 500 [] stateCa ∧
    ∃ added, added.length ≤ 2 ∧ (∀ cert ∈ added, cert ∈ sampleValidator.pool) ∧
      SoundPath samplePlatform sampleValidator 500 stateSigner ([stateCa] ++ added) := by
  have hrun : validateParsedChain samplePlatform sampleValidator 0 [stateSigner, stateCa]
      = .ok ⟨true, some "CN=Signer", some "CN=State", 2, [], []⟩ := by decide
  have hlast : [stateSigner, stateCa].getLast? = some stateCa := rfl
  have hlink : Linked samplePlatform stateCa rootCa := ⟨by decide, by decide⟩
  have hpool : rootCa ∈ sampleValidator.pool := by decide
  have hanchor : IsAnchor samplePlatform sampleValidator rootCa := .inl mem_cons_self
  obtain ⟨-, -, hduties, hiff⟩ := accepted_path_sound_iff hrun rfl hlast
  exact ⟨hduties [] stateCa [] rfl, hiff.mpr (.inr (.inl ⟨rootCa, hpool, hanchor, hlink⟩))⟩

/-- `documentSigner` alone is accepted through `expiredLeaf`, and no list of certificates whatsoever is a sound
    path for it: its only issuer is past its validity, is not a CA and may not sign certificates. -/
theorem unsound_intermediate_accepted :
    validateParsedChain samplePlatform sampleValidator 0 [documentSigner]
      = .ok ⟨true, some "CN=Signer", some "CN=Mid", 1, [], []⟩ ∧
    ∀ issuers, ¬ SoundPath samplePlatform sampleValidator 500 documentSigner issuers := by
  constructor
  · decide
  intro issuers hsound
  cases issuers with
  | nil =>
    obtain ⟨anchor, hlast, hanchor⟩ := hsound.anchored
    cases hlast
    revert hanchor
    unfold IsAnchor
    decide
  | cons issuer above =>
    have hlink := (isChain_cons_cons.mp hsound.linked).1
    have hissuer : issuer = expiredLeaf := by
      obtain ⟨hname, hverify⟩ := hlink
      injection hverify with hverify
      have hmem := of_decide_eq_true hverify
      simp only [mem_cons, Prod.mk.injEq, not_mem_nil, or_false] at hmem
      rcases hmem with ⟨hc, -⟩ | ⟨hc, -⟩ | ⟨-, hi⟩ | ⟨hc, -⟩ | ⟨hc, -⟩ | ⟨hc, -⟩
      · exact absurd hc (by decide)
      · exact absurd hc (by decide)
      · exact hi
      · exact absurd hc (by decide)
      · exact absurd hc (by decide)
      · exact absurd hc (by decide)
    subst hissuer
    have hnot : ¬ IsAnchor samplePlatform sampleValidator expiredLeaf := by
      unfold IsAnchor
      decide
    have hperiod := (hsound.duties [] expiredLeaf above rfl hnot).1.2
    exact absurd hperiod (by decide)

end MartyCore.Chain
