import MartyCore.Dtc.RoundTrip
import MartyCore.Dtc.Verify

/-!
# `Dtc.Signing` — the three entry points agree on the signed bytes

A record is normalised, written and read again between preparation, assembly and verification. Normalising twice is
normalising once (`normalizeRecord_normalizeRecord`), reading gives back what was written, and the payload leaves out
what assembly adds (`canonicalPayload_signed`); so a signature over the bytes of preparation is good at assembly
(`assemble_ok`) and, with the members of the result in any order and other members beside them, at verification
(`presents_of_equiv`).

In the other direction a payload determines the record it was made from, up to the signature (`unsigned_of_payload`):
either payload is the text of a value that reads as that record, and texts are injective.
-/

namespace MartyCore.Dtc

open Json DtcRecord SortedMap Governance

variable {N : Type} (platform : Platform N)

/-! ## Normalisation -/

theorem normalizeBase64_normalizeBase64 (value : Str) :
    normalizeBase64 (normalizeBase64 value) = normalizeBase64 value := by
  unfold normalizeBase64
  by_cases h : Base64.decodeStandard value = none
  · rw [if_pos h, Base64.decodeStandard_encodeStandard]
    exact if_neg (fun h => nomatch h)
  · rw [if_neg h, if_neg h]

theorem nowIso_ne_nil (secs : UInt64) : nowIso secs ≠ [] := by simp [nowIso]

theorem hexText_ne_nil (digest : Block 32) : hexText digest.bytes ≠ [] := by
  obtain ⟨bytes, hlength⟩ := digest
  cases bytes with
  | nil => cases hlength
  | cons b rest => simp [hexText]

theorem completeType1_completeType1 (issuingAuthority : Str) (groups : List DataGroup) (t1 : Type1Profile) :
    completeType1 platform issuingAuthority groups (completeType1 platform issuingAuthority groups t1) =
      completeType1 platform issuingAuthority groups t1 := by
  have hhash : (completeType1 platform issuingAuthority groups t1).sodHash = [] → dataGroupBytes groups = [] := by
    intro h
    simp only [completeType1] at h
    by_contra hne
    by_cases hempty : t1.sodHash = []
    · rw [if_pos hempty, if_pos hne] at h
      exact hexText_ne_nil _ h
    · rw [if_neg hempty] at h
      exact hempty h
  have hstate : (completeType1 platform issuingAuthority groups t1).issuingState = [] → issuingAuthority = [] := by
    intro h
    simp only [completeType1] at h
    by_cases hempty : t1.issuingState = []
    · rwa [if_pos hempty] at h
    · rw [if_neg hempty] at h
      exact absurd h hempty
  generalize completeType1 platform issuingAuthority groups t1 = done at hhash hstate
  unfold completeType1
  by_cases hsod : done.sodHash = [] <;> by_cases hissuing : done.issuingState = []
  · simp [hhash hsod, hstate hissuing, hissuing]
    rw [← hissuing]
  · simp [hhash hsod, hissuing]
  · simp [hsod, hstate hissuing, hissuing]
    rw [← hissuing]
  · simp [hsod, hissuing]

/-- **Normalising twice is normalising once**, whatever the clock says the second time. -/
theorem normalizeRecord_normalizeRecord (clock clock' : Clock) (record : DtcRecord) :
    normalizeRecord platform clock' (normalizeRecord platform clock record) = normalizeRecord platform clock record := by
  have hgroups : (record.dataGroups.map (fun dg => { dg with data := normalizeBase64 dg.data })).map
      (fun dg => { dg with data := normalizeBase64 dg.data }) =
      record.dataGroups.map (fun dg => { dg with data := normalizeBase64 dg.data }) := by
    rw [List.map_map]
    refine List.map_congr_left ?_
    intro dg _
    simp [normalizeBase64_normalizeBase64]
  have hprofile : ∀ groups, (record.type1Profile.map (completeType1 platform record.issuingAuthority groups)).map
      (completeType1 platform record.issuingAuthority groups) =
      record.type1Profile.map (completeType1 platform record.issuingAuthority groups) := by
    intro groups
    cases record.type1Profile with
    | none => rfl
    | some t1 => exact congrArg some (completeType1_completeType1 platform _ _ t1)
  -- a text that was filled in stays
  have hid : (normalizeRecord platform clock record).dtcId ≠ [] := by
    show (if record.dtcId = [] then nowIso clock.id else record.dtcId) ≠ []
    split
    · exact nowIso_ne_nil _
    · assumption
  have hcreation : (normalizeRecord platform clock record).creationDate ≠ [] := by
    show (if record.creationDate = [] then nowIso clock.creation else record.creationDate) ≠ []
    split
    · exact nowIso_ne_nil _
    · assumption
  rw [normalizeRecord, if_neg hid, if_neg hcreation]
  simp only [normalizeRecord, normalizeBase64_normalizeBase64, hgroups, hprofile]

variable {record : DtcRecord}

/-! ## Payloads -/

/-- The payload does not depend on what assembly changes. -/
theorem canonicalPayload_signed (record : DtcRecord) (isSigned : Bool) (signatureInfo : Option SignatureInfo) :
    canonicalPayload platform { record with isSigned := isSigned, signatureInfo := signatureInfo } =
      canonicalPayload platform record := by
  rw [canonicalPayload, canonicalPayload, unsignedValue_eq_legacyValue, unsignedValue_eq_legacyValue]
  rfl

/-- A payload of a record, of either kind. -/
def IsPayload (record : DtcRecord) (payload : Bytes) : Prop :=
  payload = canonicalPayload platform record ∨ payload = legacyCanonicalPayload platform record

/-- A payload is the text of a value that reads as the record. -/
theorem IsPayload.exists_value {payload : Bytes} (h : IsPayload platform record payload) :
    ∃ v : Json N, payload = Str.bytes (Json.text platform.format.text v) ∧
      DtcRecord.fromValue platform v = some record.unsigned := by
  have hread := fromValue_unsignedValue platform record
  have hwf : (unsignedValue platform record).WellFormed :=
    wellFormed_remove (wellFormed_remove (record.wellFormed_toValue platform))
  rcases h with rfl | rfl
  · refine ⟨_, rfl, ?_⟩
    rw [← hread]
    exact (respects_fromValue platform hwf (wellFormed_sortKeys hwf)
      (equiv_sortKeys hwf)).symm
  · refine ⟨_, rfl, ?_⟩
    rw [← unsignedValue_eq_legacyValue, hread]

/-- **A payload determines the record up to its signature.** -/
theorem unsigned_of_payload {record record' : DtcRecord} {payload : Bytes} (h : IsPayload platform record payload)
    (h' : IsPayload platform record' payload) : record.unsigned = record'.unsigned := by
  obtain ⟨v, htext, hread⟩ := h.exists_value
  obtain ⟨w, htext', hread'⟩ := h'.exists_value
  have hsame : v = w := text_injective platform.format (Str.bytes_injective (htext.symm.trans htext'))
  subst hsame
  exact Option.some.inj (hread.symm.trans hread')

/-! ## Preparing and assembling -/

theorem prepare_ok {input : Json N} (h : DtcRecord.fromValue platform input = some record) (clock : Clock) :
    prepareDtcSigningJson platform clock input = .ok (.obj
      [("dtc".toList, (normalizeRecord platform clock record).toValue platform),
       ("signing_input_base64".toList,
          .str (Base64.encodeStandard (canonicalPayload platform (normalizeRecord platform clock record)))),
       ("signature_encoding".toList, .str "DER_BASE64".toList),
       ("supported_algorithms".toList, .arr [.str "ES256".toList, .str "ES384".toList])]) := by
  have hread : readRecord platform input = .ok record := Result.orFail_ok_iff.mpr h
  rw [prepareDtcSigningJson, hread]
  rfl

/-- The envelope carries the record, in any order of its members, and passes the checks on its texts. -/
structure Envelope (clock : Clock) (envelope : Json N) (dtc : Json N) (signature signerPublicKeyPem : Str) : Prop where
  record : ∃ dtc', envelope.get? "dtc".toList = some dtc' ∧ dtc'.WellFormed ∧ Json.Equiv dtc dtc'
  signature : requiredBoundedText envelope "signature_base64" 16384 = .ok signature
  signer : ∃ signerId, requiredBoundedText envelope "signer_id" 256 = .ok signerId
  key : requiredBoundedPem envelope "signer_public_key_pem" 32768 = .ok signerPublicKeyPem
  date : ∃ date, signatureDate clock envelope = .ok date

/-- **Assembly accepts a signature over the payload of the record.** -/
theorem assemble_ok {clock : Clock} {envelope : Json N} {signature pem : Str}
    (hnormal : normalizeRecord platform clock record = record)
    (henvelope : Envelope clock envelope (record.toValue platform) signature pem)
    (hverified : verifyEcdsa platform (canonicalPayload platform record) signature pem = .ok true) :
    ∃ info : SignatureInfo, info.signature = signature ∧
      assembleDtcSignatureJson platform clock envelope =
        .ok (signedValue platform { record with isSigned := true, signatureInfo := some info } pem) := by
  obtain ⟨⟨dtc, hdtc, hwf, hequiv⟩, hsignature, ⟨signerId, hsigner⟩, hkey, ⟨date, hdate⟩⟩ := henvelope
  have hread : readRecord platform dtc = .ok record := by
    refine Result.orFail_ok_iff.mpr ?_
    rw [← respects_fromValue platform (record.wellFormed_toValue platform) hwf hequiv,
      record.fromValue_toValue platform]
  refine ⟨⟨date, signerId, signature, true⟩, rfl, ?_⟩
  simp only [assembleDtcSignatureJson, hdtc, Result.orFail, Result.ok_bind, hread, hsignature, hsigner, hkey, hdate,
    hnormal, hverified, Result.reject]
  rfl

/-! ## Verifying -/

namespace DtcRecord

variable {record : DtcRecord} {info : SignatureInfo}

theorem keyMember_not_mem : "signer_public_key_pem".toList ∉ signatureInfoNames ∧
    "signer_public_key_pem".toList ∉ recordNames := by decide

/-- `signature_info` with the key that assembly adds. -/
def infoWithKey (info : SignatureInfo) (pem : Str) : Json N :=
  Json.set "signer_public_key_pem".toList (.str pem) info.toValue

theorem infoWithKey_eq (info : SignatureInfo) (pem : Str) :
    (infoWithKey info pem : Json N) =
      .obj (signatureInfoNames.zip [.str info.signatureDate, .str info.signerId, .str info.signature, .bool info.isValid] ++
        [("signer_public_key_pem".toList, .str pem)]) := by
  rw [infoWithKey, SignatureInfo.toValue, Json.set, if_neg (not_mem_keys_zip keyMember_not_mem.1)]

/-- The added key is not a field. -/
theorem fromValue_infoWithKey (info : SignatureInfo) (pem : Str) :
    SignatureInfo.fromValue (infoWithKey info pem : Json N) = some info := by
  have hextra : ∀ m ∈ [("signer_public_key_pem".toList, (.str pem : Json N))], m.1 ∉ signatureInfoNames := by
    intro m hm
    rw [List.mem_singleton.mp hm]
    exact keyMember_not_mem.1
  rw [infoWithKey_eq, SignatureInfo.fromValue, Json.struct, fields_append _ hextra]
  exact SignatureInfo.fromValue_toValue info

theorem get?_infoWithKey (info : SignatureInfo) (pem : Str) :
    (infoWithKey info pem : Json N).get? "signer_public_key_pem".toList = some (.str pem) := by
  rw [infoWithKey_eq]
  show lookup _ (_ ++ _) = _
  rw [lookup_append, lookup_eq_none (not_mem_keys_zip keyMember_not_mem.1), Option.none_or]
  exact if_pos rfl

theorem lookup_signatureInfo (hinfo : record.signatureInfo = some info) :
    lookup "signature_info".toList (recordNames.zip (record.values platform)) = some info.toValue := by
  have hlookup := lookup_of_fields signatureInfo_position (record.fields_toValue platform)
  have hvalue : ((record.values platform).map some)[19]? = some (some (writeOption SignatureInfo.toValue record.signatureInfo)) :=
    rfl
  rw [hvalue, hinfo] at hlookup
  exact (Option.some.inj hlookup).symm

/-- **The assembled value reads as the signed record.** -/
theorem fromValue_signedValue (hinfo : record.signatureInfo = some info) (pem : Str) :
    fromValue platform (signedValue platform record pem) = some record := by
  have hfields := fields_modify names.1 signatureInfo_position (record.fields_toValue platform)
    (lookup_signatureInfo platform hinfo) (Json.set "signer_public_key_pem".toList (.str pem))
  have hoption : Json.asOption SignatureInfo.fromValue (infoWithKey info pem : Json N) = some (some info) := by
    have hobj : Json.asOption SignatureInfo.fromValue (infoWithKey info pem : Json N) =
        (SignatureInfo.fromValue (infoWithKey info pem : Json N)).map some := by
      rw [infoWithKey_eq]
      rfl
    rw [hobj, fromValue_infoWithKey]
    rfl
  have hread := record.read_values platform (some (.bool record.isSigned)) (some (infoWithKey info pem)) rfl hoption
  rw [← hinfo] at hread
  rw [fromValue, Json.struct]
  refine (congrArg (fun xs => Option.bind xs _) hfields).trans ?_
  exact congrArg (Option.map Prod.fst) hread

end DtcRecord

/-- A value that presents the assembled record: its members in any order, at any depth, and others that verification
    looks for beside them, such as trust anchors; but no other key. -/
def Presents (assembled value : Json N) : Prop :=
  ∃ members members', assembled = .obj members ∧ value = .obj members' ∧
    ∀ key ∈ "signer_public_key_pem".toList :: recordNames, Json.Agree (lookup key members) (lookup key members')

/-- The same members in another order. -/
theorem presents_of_equiv {assembled value : Json N} (hassembled : assembled.WellFormed) (hvalue : value.WellFormed)
    (h : Json.Equiv assembled value) {members : List (Str × Json N)} (hobj : assembled = .obj members) :
    Presents assembled value := by
  subst hobj
  cases h with
  | @obj _ members' hkeys helements =>
    refine ⟨members, members', rfl, rfl, ?_⟩
    intro key _
    exact agree_lookup hassembled hvalue (.obj hkeys helements) key

section

variable {platform}
variable {record : DtcRecord} {info : SignatureInfo} {pem : Str} {value : Json N}

/-- What is presented reads as the signed record. -/
theorem Presents.fromValue (h : Presents (signedValue platform record pem) value)
    (hinfo : record.signatureInfo = some info) : DtcRecord.fromValue platform value = some record := by
  obtain ⟨members, members', hassembled, rfl, hagree⟩ := h
  have hread := fromValue_signedValue platform hinfo pem
  rw [hassembled] at hread
  rw [← hread]
  refine (struct_congr (respects_read platform) ?_).symm
  intro name hname
  exact hagree name (List.mem_cons_of_mem _ hname)

/-- The key is the one that assembly put beside the signature. -/
theorem Presents.signerPublicKeyPem (h : Presents (signedValue platform record pem) value)
    (hinfo : record.signatureInfo = some info) : signerPublicKeyPem value = some pem := by
  obtain ⟨members, members', hassembled, rfl, hagree⟩ := h
  have hmembers := Json.obj.inj hassembled
  have htop := hagree _ List.mem_cons_self
  have hsecond := hagree "signature_info".toList (List.mem_cons_of_mem _ (List.mem_of_getElem? signatureInfo_position))
  have hnone : lookup "signer_public_key_pem".toList members = none := by
    rw [← hmembers, lookup_modify, if_neg (by decide)]
    exact lookup_eq_none (not_mem_keys_zip DtcRecord.keyMember_not_mem.2)
  have hsome : lookup "signature_info".toList members = some (DtcRecord.infoWithKey info pem) := by
    rw [← hmembers, lookup_modify, if_pos rfl, lookup_signatureInfo platform hinfo]
    rfl
  rw [hnone] at htop
  rw [hsome] at hsecond
  -- so there is no key at the top, and the one inside is the same
  generalize hlookup : lookup "signer_public_key_pem".toList members' = top at htop
  generalize hlookup' : lookup "signature_info".toList members' = second at hsecond
  cases htop with
  | none =>
    cases hsecond with
    | @some _ w hwf hwf' hequiv =>
      have hkey := agree_get? hwf hwf' hequiv "signer_public_key_pem".toList
      rw [get?_infoWithKey] at hkey
      generalize hget : w.get? "signer_public_key_pem".toList = found at hkey
      cases hkey with
      | some _ _ hstr =>
        cases hstr with
        | str s =>
          show ((lookup _ members').or ((lookup _ members').bind _)).bind Json.asStr = _
          rw [hlookup, hlookup', Option.none_or, Option.bind_some, hget]
          rfl

end

/-- **The signature check passes on what was assembled.** -/
theorem verify_presented {clock : Clock} (hnormal : normalizeRecord platform clock record = record)
    {info : SignatureInfo} {pem : Str}
    (hverified : verifyEcdsa platform (canonicalPayload platform record) info.signature pem = .ok true) {value : Json N}
    (hvalue : Presents (signedValue platform { record with isSigned := true, signatureInfo := some info } pem) value)
    (status : Option AuthenticatedDtcStatus) :
    ∃ response, verifyDtcJsonWithStatus platform clock value status = .ok response ∧
      response.verificationResults.head? = some ⟨"Signature", .passed, none, none⟩ := by
  have hrecord := hvalue.fromValue rfl
  have hpem := hvalue.signerPublicKeyPem rfl
  have hread : readRecord platform value = .ok _ := Result.orFail_ok_iff.mpr hrecord
  -- normalising does not look at the signature, and the payload does not contain it
  have hnorm : normalizeRecord platform clock { record with isSigned := true, signatureInfo := some info } =
      { record with isSigned := true, signatureInfo := some info } := by
    have hcommutes : normalizeRecord platform clock { record with isSigned := true, signatureInfo := some info } =
        { normalizeRecord platform clock record with isSigned := true, signatureInfo := some info } := rfl
    rw [hcommutes, hnormal]
  have hpayload := canonicalPayload_signed platform record true (some info)
  have hcheck : checkSignature platform { record with isSigned := true, signatureInfo := some info } (some info)
      (some pem) = ⟨true, [⟨"Signature", .passed, none, none⟩]⟩ := by
    simp only [checkSignature, verifyPayloads, hpayload, hverified]
    rfl
  cases hverify : verifyDtcJsonWithStatus platform clock value status with
  | error err =>
    rw [verifyDtcJsonWithStatus, hread] at hverify
    cases hverify
  | ok response =>
    obtain ⟨record', hrecord', -, hresults⟩ := verify_ok_iff platform hverify
    obtain rfl := Option.some.inj (hrecord.symm.trans hrecord')
    refine ⟨response, rfl, ?_⟩
    rw [hresults, findings, List.flatMap_cons, hnorm, hpem, hcheck]
    rfl

/-! ## The whole -/

/-- **Preparation, assembly and verification agree on the signed bytes, and the bytes determine the record.** -/
theorem signed_bytes_agree :
    -- normalising again changes nothing
    (∀ clock clock' record, normalizeRecord platform clock' (normalizeRecord platform clock record) =
      normalizeRecord platform clock record) ∧
    -- written, and read with members in any order, the normalised record has the same payload
    (∀ clock record (value : Json N), value.WellFormed →
      Json.Equiv ((normalizeRecord platform clock record).toValue platform) value →
      ∃ parsed, DtcRecord.fromValue platform value = some parsed ∧ ∀ clock',
        canonicalPayload platform (normalizeRecord platform clock' parsed) =
          canonicalPayload platform (normalizeRecord platform clock record)) ∧
    -- which does not depend on the signature
    (∀ record isSigned signatureInfo,
      canonicalPayload platform { record with isSigned := isSigned, signatureInfo := signatureInfo } =
        canonicalPayload platform record) ∧
    -- a signature over the bytes that preparation returns is accepted by assembly and by verification
    (∀ clock (input : Json N) record, DtcRecord.fromValue platform input = some record →
      ∃ prepared dtc signingInput, prepareDtcSigningJson platform clock input = .ok prepared ∧
        prepared.get? "dtc".toList = some dtc ∧
        prepared.get? "signing_input_base64".toList = some (.str (Base64.encodeStandard signingInput)) ∧
        ∀ clockA envelope signature pem, Envelope clockA envelope dtc signature pem →
          verifyEcdsa platform signingInput signature pem = .ok true →
          ∃ assembled, assembleDtcSignatureJson platform clockA envelope = .ok assembled ∧
            ∀ clockV value status, Presents assembled value →
              ∃ response, verifyDtcJsonWithStatus platform clockV value status = .ok response ∧
                response.verificationResults.head? = some ⟨"Signature", .passed, none, none⟩) ∧
    -- equal payloads, of whichever kind, come from records that differ in the signature only
    (∀ clock clock' record record' payload, IsPayload platform (normalizeRecord platform clock record) payload →
      IsPayload platform (normalizeRecord platform clock' record') payload →
      (normalizeRecord platform clock record).unsigned = (normalizeRecord platform clock' record').unsigned) := by
  refine ⟨normalizeRecord_normalizeRecord platform, ?_, canonicalPayload_signed platform, ?_, ?_⟩
  · intro clock record value hwf hequiv
    refine ⟨normalizeRecord platform clock record, ?_, ?_⟩
    · rw [← respects_fromValue platform (wellFormed_toValue platform _) hwf hequiv,
        fromValue_toValue]
    · intro clock'
      rw [normalizeRecord_normalizeRecord]
  · intro clock input record hrecord
    refine ⟨_, _, canonicalPayload platform (normalizeRecord platform clock record), prepare_ok platform hrecord clock,
      rfl, rfl, ?_⟩
    intro clockA envelope signature pem henvelope hverified
    obtain ⟨info, rfl, hassembled⟩ := assemble_ok platform (normalizeRecord_normalizeRecord platform clock clockA record)
      henvelope hverified
    refine ⟨_, hassembled, ?_⟩
    intro clockV value status hvalue
    exact verify_presented platform (normalizeRecord_normalizeRecord platform clock clockV record) hverified hvalue status
  · intro clock clock' record record' payload h h'
    exact unsigned_of_payload platform h h'

/-- An envelope for the record of `sampleInput`. -/
def sampleInput : DtcRecord := { dtcId := "DTC-1".toList, creationDate := "0000000000Z".toList }

def sampleEnvelope : Json Int :=
  .obj [("dtc".toList, sampleInput.toValue lenientPlatform), ("signature_base64".toList, .str "AAAA".toList),
    ("signer_id".toList, .str "signer".toList),
    ("signer_public_key_pem".toList, .str "-----BEGIN PUBLIC KEY----------END PUBLIC KEY-----".toList)]

/-- A record that is prepared, signed, assembled and verified. -/
theorem signed_bytes_agree_sampleEnvelope :
    ∃ assembled, assembleDtcSignatureJson lenientPlatform sampleClock sampleEnvelope = .ok assembled ∧
      ∃ response, verifyDtcJsonWithStatus lenientPlatform sampleClock assembled none = .ok response ∧
        response.verificationResults.head? = some ⟨"Signature", .passed, none, none⟩ := by
  have hwf := sampleInput.wellFormed_toValue lenientPlatform
  obtain ⟨prepared, dtc, signingInput, hprepare, hdtc, -, hflow⟩ := (signed_bytes_agree lenientPlatform).2.2.2.1 sampleClock _
    sampleInput (sampleInput.fromValue_toValue lenientPlatform)
  rw [prepare_ok lenientPlatform (sampleInput.fromValue_toValue lenientPlatform)] at hprepare
  cases hprepare
  obtain rfl : sampleInput.toValue lenientPlatform = dtc := Option.some.inj hdtc
  have henvelope : Envelope sampleClock sampleEnvelope (sampleInput.toValue lenientPlatform) "AAAA".toList
      "-----BEGIN PUBLIC KEY----------END PUBLIC KEY-----".toList :=
    ⟨⟨_, rfl, hwf, equiv_of_sortKeys hwf hwf rfl⟩, by decide,
      ⟨"signer".toList, by decide⟩, by decide, ⟨"0000000000Z".toList, by decide⟩⟩
  obtain ⟨assembled, hassembled, hverify⟩ := hflow sampleClock sampleEnvelope _ _ henvelope rfl
  obtain ⟨info, -, hform⟩ := assemble_ok lenientPlatform rfl henvelope rfl
  obtain rfl := Except.ok.inj (hassembled.symm.trans hform)
  refine ⟨_, hassembled, hverify sampleClock _ none ?_⟩
  have hsigned : (signedValue lenientPlatform { sampleInput with isSigned := true, signatureInfo := some info }
      "-----BEGIN PUBLIC KEY----------END PUBLIC KEY-----".toList).WellFormed :=
    wellFormed_modify (fun _ => wellFormed_set (.str _)) (wellFormed_toValue lenientPlatform _)
  exact presents_of_equiv hsigned hsigned (equiv_of_sortKeys hsigned hsigned rfl) rfl

end MartyCore.Dtc
