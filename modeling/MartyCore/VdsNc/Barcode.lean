import MartyCore.VdsNc.Canonical

/-!
# `VdsNc.Barcode` — issued barcodes are parsed back

A profile that was built (`Issued`) has a canonical document and metadata that the parser accepts. All its strings and
keys are clean, so the text of its payload has neither the delimiter of the envelope nor NUL in it, and splitting a
barcode at the delimiter gives back the three segments it was put together from. The payload is read back because the JSON
parser is the inverse of the serialiser on it, and its document is canonical again because canonical documents are
fixed points.
-/

namespace MartyCore.VdsNc

open Result SortedMap Json.MapOrder List

/-! ## Clean texts -/

theorem isForbidden_quote {s : Str} (h : Clean s) : ∀ c ∈ Json.quote s, isForbidden c = false := by
  have hescape : ∀ c, isForbidden c = false → ∀ d ∈ Json.escape c, isForbidden d = false := by
    intro c hc d hd
    have hprintable : 0x20 ≤ c.toNat := by
      simp only [isForbidden, Str.isControl, Bool.or_eq_false_iff, decide_eq_false_iff_not] at hc
      omega
    have hquoted : ∀ d ∈ ['\\', '"'], isForbidden d = false := by decide
    unfold Json.escape at hd
    by_cases hquote : c = '"'
    · rw [if_pos hquote] at hd
      exact hquoted d hd
    · rw [if_neg hquote] at hd
      by_cases hbackslash : c = '\\'
      · rw [if_pos hbackslash] at hd
        exact hquoted d (mem_cons.mpr (.inl (by simpa using hd)))
      · rw [if_neg hbackslash, if_pos hprintable, mem_singleton] at hd
        exact hd ▸ hc
  intro c hc
  rw [Json.quote, mem_cons, mem_append, mem_singleton] at hc
  rcases hc with rfl | hc | rfl
  · decide
  · obtain ⟨d, hd, hc⟩ := mem_flatMap.mp hc
    refine hescape d ?_ c hc
    exact Bool.eq_false_iff.mpr (fun hforbidden => h.not_mem hforbidden hd)
  · decide

theorem isForbidden_number {c : Char} (h : Json.isNumberChar c = true) : isForbidden c = false := by
  simp only [Json.isNumberChar, Bool.or_eq_true, decide_eq_true_eq] at h
  rcases h with ((((h | rfl) | rfl) | rfl) | rfl) | rfl
  · have hrange : 48 ≤ c.toNat ∧ c.toNat ≤ 57 := by
      simpa [Char.isDigit, UInt32.le_iff_toNat_le] using h
    have hne : c ≠ '~' := by
      rintro rfl
      exact absurd hrange.2 (by decide)
    simp only [isForbidden, Str.isControl, hne, decide_false, Bool.false_or, decide_eq_false_iff_not]
    omega
  all_goals decide

/-- **The text of a value with clean strings is clean.** -/
theorem clean_text {N : Type} (format : Json.NumberFormat N) {K : N → Prop} {n : Nat} {v : Json N}
    (h : v.Bounded Clean K n) : Clean (Json.text format.text v) := by
  have hall := Json.forall_mem_text (P := fun c => isForbidden c = false) format (by decide)
    (fun c hc => isForbidden_number hc) (fun s hs => isForbidden_quote hs) h
  refine any_eq_false.mpr fun c hc => ?_
  simp [hall c hc]

theorem clean_append {s t : Str} (hs : Clean s) (ht : Clean t) : Clean (s ++ t) := by
  unfold Clean at *
  rw [any_append, hs, ht]
  rfl

/-! ## Countries and headers -/

/-- Three capital letters. -/
def IsCountry (country : Str) : Prop := country.len = 3 ∧ country.all isAsciiUppercase = true

variable {country : Str}

/-- What every capital letter is. -/
theorem forall_upper {P : Char → Prop} (hupper : country.all isAsciiUppercase = true)
    (h : ∀ k : Fin 26, P (Char.ofNat (65 + k))) : ∀ c ∈ country, P c := by
  intro c hc
  have hletter : decide (c.val ≥ 'A'.val ∧ c.val ≤ 'Z'.val) = true := all_eq_true.mp hupper c hc
  have hrange : 65 ≤ c.toNat ∧ c.toNat ≤ 90 := by
    simpa [UInt32.le_iff_toNat_le] using hletter
  have hc : c = Char.ofNat (65 + (c.toNat - 65)) := by
    rw [Nat.add_sub_cancel' hrange.1, Char.ofNat_toNat]
  rw [hc]
  exact h ⟨c.toNat - 65, by omega⟩

def header (country : Str) : Str := "DC03".toList ++ country

theorem IsCountry.clean_header (h : IsCountry country) : Clean (header country) := by
  refine clean_append (by decide) (any_eq_false.mpr ?_)
  exact forall_upper h.2 (by decide)

theorem IsCountry.parseHeader_eq (h : IsCountry country) : parseHeader (header country) = .ok country := by
  have hascii : ∀ c ∈ country, Text.isAscii c = true := forall_upper h.2 (by decide)
  have hlength : country.length = 3 := by rw [← Str.len_of_isAscii hascii, h.1]
  have hlen : (header country).len = 7 := by
    rw [header, Str.len_of_isAscii, length_append, hlength]
    · rfl
    · intro c hc
      rcases mem_append.mp hc with hc | hc
      · exact (by decide : ∀ c ∈ "DC03".toList, Text.isAscii c = true) c hc
      · exact hascii c hc
  have hdrop : (header country).drop 4 = country := drop_left' rfl
  unfold parseHeader
  rw [reject_bind_ok_iff, hdrop, reject_bind_ok_iff]
  refine ⟨?_, ?_, rfl⟩
  · rintro (hne | hstart)
    · exact hne hlen
    · exact hstart (List.isPrefixOf_iff_prefix.mpr (prefix_append _ _))
  · simp [h.2]

section

variable {N : Type} {platform : Platform N}

variable {documentType : DocumentType}

theorem Canonical.exists_country {document : SortedMap Str (Json N)} (h : Canonical platform documentType document) :
    ∃ country, document.get? "issuingCountry".toList = some (.str country) ∧ IsCountry country := by
  have hspec : ∀ t, ∃ spec ∈ fields t, spec.key.toList = "issuingCountry".toList ∧ spec.required = true := by
    intro t
    cases t with
    | cmc => exact ⟨text "issuingCountry" true 3 .country, by simp [fields, cmcFields], rfl, rfl⟩
    | mrv => exact ⟨text "issuingCountry" true 3 .country, by simp [fields, mrvFields], rfl, rfl⟩
    | eVisa => exact ⟨text "issuingCountry" true 3 .country, by simp [fields, eVisaFields], rfl, rfl⟩
  have honly : ∀ t, ∀ spec ∈ fields t, spec.key.toList = "issuingCountry".toList →
      spec.kind = .text ∧ spec.pattern = .country := by
    intro t
    cases t with
    | cmc | mrv | eVisa => decide
  obtain ⟨spec, hmem, hkey, hrequired⟩ := hspec documentType
  obtain ⟨m, hm, hname⟩ := mem_map.mp (h.required spec hmem hrequired)
  obtain ⟨other, hother, hsame, hnormal⟩ := h.normal m hm
  obtain ⟨hkind, hpattern⟩ := honly documentType other hother (hsame.trans (hname.trans hkey))
  unfold normalizeField at hnormal
  rw [hkind] at hnormal
  obtain ⟨s, hs, heq⟩ := of_bind hnormal
  have hvalue : Json.str s = m.2 := Except.ok.inj heq
  obtain ⟨-, -, -, hcheck⟩ := normalizeText_ok_iff.mp hs
  have hcountry := checkPattern_of_checkText hcheck
  rw [checkPattern, hpattern] at hcountry
  have hnot := reject_ok_iff.mp hcountry
  rw [not_or, Classical.not_not, Bool.not_eq_false] at hnot
  refine ⟨s, ?_, hnot⟩
  rw [← mem_iff_get?, hvalue, ← hkey, ← hname]
  exact hm

/-! ## Metadata -/

/-- A text that the issuer has checked. -/
def Checked (maxChars : Nat) (s : Str) : Prop := ∃ field value, validateEnvelopeText field value maxChars = .ok s

theorem Checked.clean {maxChars : Nat} {s : Str} (h : Checked maxChars s) : Clean s := by
  obtain ⟨field, value, h⟩ := h
  exact (validateEnvelopeText_ok_iff.mp h).2.2.2

structure Metadata.Issued (documentType : DocumentType) (metadata : Metadata) : Prop where
  version : metadata.version = "1.0".toList
  documentType : metadata.documentType = documentType.asStr.toList
  issuerId : Checked 512 metadata.issuerId
  keyId : Checked 512 metadata.keyId
  certificateReference : ∀ reference ∈ metadata.certificateReference, Checked 16 reference
  algorithm : isSupportedAlgorithm metadata.algorithm = true

theorem DocumentType.parse_asStr (documentType : DocumentType) :
    DocumentType.parse documentType.asStr.toList = .ok documentType := by
  cases documentType with
  | cmc | mrv | eVisa => decide

variable {metadata : Metadata}

theorem Metadata.Issued.validateMetadata_eq (h : metadata.Issued documentType) :
    validateMetadata metadata = .ok documentType := by
  have hcheck : ∀ {field : String} {maxChars : Nat} {s : Str}, Checked maxChars s →
      checkCanonicalText field s maxChars = .ok () := by
    rintro field maxChars s ⟨field', value, hok⟩
    exact checkCanonicalText_of_ok hok
  have hreference : checkReference metadata.certificateReference = .ok () := by
    cases href : metadata.certificateReference with
    | none => rfl
    | some reference => exact hcheck (h.certificateReference reference href)
  unfold validateMetadata
  rw [reject_bind_ok_iff]
  refine ⟨fun hne => hne h.version, ?_⟩
  rw [h.documentType, DocumentType.parse_asStr, ok_bind, reject_bind_ok_iff]
  refine ⟨fun hne => hne rfl, ?_⟩
  rw [hcheck h.issuerId, ok_bind, hcheck h.keyId, ok_bind, hreference, ok_bind, reject_bind_ok_iff]
  exact ⟨by simp [h.algorithm], rfl⟩

namespace Metadata

theorem nodup_keys_members (metadata : Metadata) : ((metadata.members : List (Str × Json N)).map Prod.fst).Nodup := by
  have hwith : ["version".toList, "documentType".toList, "issuerId".toList, "keyId".toList,
      "certificateReference".toList, "algorithm".toList].Nodup := by decide
  have hwithout : ["version".toList, "documentType".toList, "issuerId".toList, "keyId".toList,
      "algorithm".toList].Nodup := by decide
  obtain ⟨version, documentType, issuerId, keyId, reference, algorithm⟩ := metadata
  cases reference with
  | none => exact hwithout
  | some reference => exact hwith

theorem key_mem_metadataNames {m : Str × Json N} (hm : m ∈ metadata.members) :
    m.1 ∈ metadataNames := by
  simp only [members, mem_append, mem_cons, not_mem_nil, or_false, mem_map] at hm
  rcases hm with ((rfl | rfl | rfl | rfl) | ⟨reference, -, rfl⟩) | rfl
  all_goals simp [metadataNames]

/-- The fields in the order they are read. -/
theorem lookup_members (metadata : Metadata) :
    metadataNames.map (fun name => SortedMap.lookup name (metadata.members : List (Str × Json N))) =
      [some (.str metadata.version), some (.str metadata.documentType), some (.str metadata.issuerId),
        some (.str metadata.keyId), metadata.certificateReference.map .str, some (.str metadata.algorithm)] := by
  cases href : metadata.certificateReference with
  | none | some reference => simp [metadataNames, members, href, SortedMap.lookup]

/-- **Metadata are read back from their value.** -/
theorem fromValue_toValue (order : Json.MapOrder) (metadata : Metadata) :
    fromValue (metadata.toValue order : Json N) = some metadata := by
  have hknown : (order.arrange (metadata.members : List (Str × Json N))).all
      (fun m => decide (m.1 ∈ metadataNames)) = true := by
    refine all_eq_true.mpr fun m hm => ?_
    exact decide_eq_true (key_mem_metadataNames (mem_of_mem_arrange hm))
  have hfields : Json.fields metadataNames (.obj (order.arrange (metadata.members : List (Str × Json N)))) =
      some [some (.str metadata.version), some (.str metadata.documentType), some (.str metadata.issuerId),
        some (.str metadata.keyId), metadata.certificateReference.map .str, some (.str metadata.algorithm)] := by
    rw [← lookup_members, Json.fields]
    refine congrArg some (map_congr_left fun name _ => ?_)
    exact order.lookup_arrange metadata.nodup_keys_members name
  show (if _ then _ else _) = _
  rw [if_pos hknown, Json.struct, hfields]
  obtain ⟨version, documentType, issuerId, keyId, reference, algorithm⟩ := metadata
  cases reference with
  | none | some reference => rfl

/-- Issued metadata as a value: clean strings only. -/
theorem Issued.bounded {documentType : DocumentType} (h : metadata.Issued documentType)
    (order : Json.MapOrder) {K : N → Prop} {n : Nat} : (metadata.toValue order : Json N).Bounded Clean K (n + 1) := by
  have hversion : Clean metadata.version := by rw [h.version]; decide
  have htype : Clean metadata.documentType := by
    rw [h.documentType]
    cases documentType <;> decide
  have halgorithm : Clean metadata.algorithm := by
    have hmem := h.algorithm
    simp only [isSupportedAlgorithm, decide_eq_true_eq] at hmem
    have hclean : ∀ s ∈ ["ES256".toList, "ES384".toList, "EdDSA".toList, "PS256".toList, "PS384".toList,
        "PS512".toList], s.any isForbidden = false := by decide
    exact hclean _ hmem
  have hnames : ∀ name ∈ metadataNames, Clean name := by decide
  refine .obj ?_ ?_
  · intro m hm
    exact hnames _ (key_mem_metadataNames (mem_of_mem_arrange hm))
  · intro m hm
    have hmem := mem_of_mem_arrange hm
    simp only [members, mem_append, mem_cons, not_mem_nil, or_false, mem_map, Option.mem_toList] at hmem
    rcases hmem with ((rfl | rfl | rfl | rfl) | ⟨reference, href, rfl⟩) | rfl
    · exact .str hversion
    · exact .str htype
    · exact .str h.issuerId.clean
    · exact .str h.keyId.clean
    · exact .str (h.certificateReference reference href).clean
    · exact .str halgorithm

theorem holds_toValue (order : Json.MapOrder) (metadata : Metadata) : order.Holds (metadata.toValue order : Json N) := by
  refine order.holds_arrange metadata.nodup_keys_members ?_
  intro m hm
  simp only [members, mem_append, mem_cons, not_mem_nil, or_false, mem_map] at hm
  rcases hm with ((rfl | rfl | rfl | rfl) | ⟨reference, -, rfl⟩) | rfl
  all_goals exact order.holds_of_keysSorted (.str _)

end Metadata

/-! ## Profiles -/

structure Issued (platform : Platform N) (profile : Profile N) : Prop where
  canonical : Canonical platform profile.documentType profile.document
  sorted : ∀ m ∈ profile.document.entries, m.2.KeysSorted
  bounded : ∀ m ∈ profile.document.entries, m.2.Bounded Clean platform.IsInteger 17
  metadata : profile.metadata.Issued profile.documentType

theorem checked_signerIdentity {issuerId : Str} {signer : Option (Json N)} {s : Str}
    (h : signerIdentity issuerId signer = .ok s) : Checked 512 s := by
  unfold signerIdentity at h
  split at h
  · exact ⟨_, _, h⟩
  · cases h
  · exact ⟨_, _, h⟩

theorem checked_readCertificateReference {reference : Option (Json N)} {s : Option Str}
    (h : readCertificateReference reference = .ok s) : ∀ r ∈ s, Checked 16 r := by
  unfold readCertificateReference at h
  split at h
  · obtain ⟨r, hvalue, rfl⟩ := map_ok_iff.mp h
    rintro _ ⟨⟩
    exact ⟨_, _, hvalue⟩
  · cases h
  · cases h
    nofun

/-! The members of the map that is made canonical are claims, but for the names of the type and of the country. -/

/-- The values the issuer works on: the claims', and texts of its own. -/
def FromClaims (platform : Platform N) (input : List (Str × Json N)) : Prop :=
  ∀ m ∈ input, m.2.NumbersIn platform.IsInteger

variable {input : List (Str × Json N)}

section

variable (hinput : FromClaims platform input)

include hinput

theorem fromClaims_insertNew {key : String} {value : Json N} (hvalue : value.NumbersIn platform.IsInteger) :
    FromClaims platform (insertNew platform key value input) := by
  intro m hm
  rcases mem_append.mp (mem_of_mem_arrange hm) with hm | hm
  · exact hinput m hm
  · obtain rfl := mem_singleton.mp hm
    exact hvalue

theorem fromClaims_remove (key : Str) : FromClaims platform (platform.mapOrder.remove key input) :=
  fun m hm => hinput m (mem_of_mem_remove hm)

theorem fromClaims_renameAlias (names : List String) : FromClaims platform (renameAlias platform input names) := by
  induction names with
  | nil => exact hinput
  | cons name rest ih =>
    rw [renameAlias, take]
    cases hlookup : SortedMap.lookup name.toList input with
    | none => exact ih
    | some value =>
      exact fromClaims_insertNew (fromClaims_remove hinput _) (hinput _ (mem_of_lookup hlookup))

theorem fromClaims_withCountry : FromClaims platform (withCountry platform input) := by
  unfold withCountry
  split
  · exact hinput
  · exact fromClaims_renameAlias hinput _

theorem fromClaims_withDocumentType (documentType : DocumentType) :
    FromClaims platform (withDocumentType platform documentType input) := by
  unfold withDocumentType
  split
  · exact hinput
  · exact fromClaims_insertNew hinput ⟨0, .str trivial⟩

end

variable {claims : List (Str × Json N)} {profile : Profile N}

/-- **What the issuer builds is issued.** -/
theorem issued_of_buildProfile {credentialType issuerId keyId algorithm : Str}
    (hclaims : FromClaims platform claims)
    (h : buildProfile platform claims credentialType issuerId keyId algorithm = .ok profile) :
    Issued platform profile := by
  obtain ⟨halgorithm, h⟩ := of_reject h
  obtain ⟨documentType, -, h⟩ := of_bind h
  obtain ⟨signerId, hsigner, h⟩ := of_bind h
  obtain ⟨reference, hreference, h⟩ := of_bind h
  obtain ⟨document, hdocument, h⟩ := of_bind h
  obtain ⟨key, hkey, h⟩ := of_bind h
  cases h
  have hinput : FromClaims platform (platform.mapOrder.arrange claims) :=
    fun m hm => hclaims m (mem_of_mem_arrange hm)
  have hnumbers := fromClaims_remove (fromClaims_remove (fromClaims_withCountry
    (fromClaims_withDocumentType hinput documentType)) "signerId".toList) "certificateReference".toList
  refine ⟨canonical_of_canonicalizeDocument hdocument, ?_, ?_, ?_⟩
  · intro m hm
    obtain ⟨spec, -, -, v, -, hv⟩ := exists_normalizeField hdocument hm
    exact (normalizeField_spec hv).2.1
  · intro m hm
    obtain ⟨spec, -, -, v, hmem, hv⟩ := exists_normalizeField hdocument hm
    exact (normalizeField_spec hv).2.2 (hnumbers _ hmem)
  · exact ⟨rfl, rfl, checked_signerIdentity hsigner, ⟨_, _, hkey⟩, checked_readCertificateReference hreference,
      by simpa using halgorithm⟩

namespace Issued

variable {profile : Profile N} (h : Issued platform profile)

include h

theorem holds : platform.mapOrder.Holds (profile.payload platform) := by
  refine platform.mapOrder.holds_obj (profile.canonical platform) ?_
  intro m hm
  rcases mem_insertList hm with rfl | hm
  · exact Metadata.holds_toValue platform.mapOrder profile.metadata
  · exact platform.mapOrder.holds_of_keysSorted (h.sorted m hm)

theorem bounded_payload : (profile.payload platform).Bounded Clean platform.IsInteger 18 := by
  have hkeys : ∀ t, ∀ spec ∈ fields t, Clean spec.key.toList := by
    intro t
    cases t with
    | cmc | mrv | eVisa => decide
  refine .obj ?_ ?_
  · intro m hm
    rcases mem_insertList hm with rfl | hm
    · show Clean "_vds".toList
      decide
    · obtain ⟨spec, hspec, hkey, -⟩ := h.canonical.normal m hm
      exact hkey ▸ hkeys profile.documentType spec hspec
  · intro m hm
    rcases mem_insertList hm with rfl | hm
    · exact h.metadata.bounded platform.mapOrder
    · exact h.bounded m hm

/-- Without the metadata, the payload is the document again. -/
theorem perm_remove_vds :
    (platform.mapOrder.remove "_vds".toList (profile.canonical platform).entries).Perm profile.document.entries := by
  have herase : (profile.canonical platform).erase "_vds".toList = profile.document := by
    refine ext_get? fun key => ?_
    rw [get?_erase, Profile.canonical, get?_insert]
    by_cases hkey : key = "_vds".toList
    · have habsent : profile.document.get? key = none := by
        rw [hkey, ← Option.not_isSome_iff_eq_none, ← mem_keys_iff]
        exact h.canonical.not_mem_vds
      rw [if_pos hkey, habsent]
    · rw [if_neg hkey, if_neg hkey]
  rw [← herase]
  exact platform.mapOrder.perm_remove "_vds".toList (profile.canonical platform).nodup_keys

/-- **The payload an issuer writes is valid**, with the metadata it wrote. -/
theorem validatePayload_eq
    (hsize : ¬ maxPayloadBytes < (Json.text platform.format.text (profile.payload platform)).len)
    (hcountry : ((profile.canonical platform).get? "issuingCountry".toList).bind Json.asStr = some country) :
    validatePayload platform (Json.text platform.format.text (profile.payload platform)) country =
      .ok (profile.payload platform, profile.metadata) := by
  have hparse := platform.parse_text _ h.holds (h.bounded_payload.mono (fun _ _ => trivial) (by decide))
  have hvds : SortedMap.lookup "_vds".toList (profile.canonical platform).entries =
      some (profile.metadata.toValue platform.mapOrder) := by
    show (profile.canonical platform).get? _ = _
    rw [Profile.canonical, get?_insert, if_pos rfl]
  have hdocument := h.canonical.canonicalizeDocument_eq h.perm_remove_vds
  have hsame : Json.same platform.sameNumber (.obj profile.document.entries)
      (.obj (platform.mapOrder.remove "_vds".toList (profile.canonical platform).entries)) = true := by
    have hperm := h.perm_remove_vds
    have hwell : (Json.obj (platform.mapOrder.remove "_vds".toList (profile.canonical platform).entries)).WellFormed := by
      refine .obj ((hperm.map Prod.fst).nodup_iff.mpr profile.document.nodup_keys) ?_
      intro m hm
      exact (h.sorted m (hperm.mem_iff.mp hm)).wellFormed
    refine (Json.same_obj_iff hwell).mpr ⟨_, rfl, hperm.length_eq.symm, ?_⟩
    intro m hm
    exact ⟨m.2, hperm.mem_iff.mpr hm, Json.same_refl platform.sameNumber_refl (h.sorted m hm).wellFormed⟩
  unfold validatePayload
  rw [reject_bind_ok_iff]
  refine ⟨hsize, ?_⟩
  rw [hparse]
  show (Result.reject _ _ >>= _) = _
  rw [reject_bind_ok_iff]
  refine ⟨fun hne => hne rfl, ?_⟩
  rw [hvds, Result.orFail, ok_bind, Metadata.fromValue_toValue, Result.orFail, ok_bind,
    h.metadata.validateMetadata_eq, ok_bind]
  show (canonicalizeDocument platform profile.documentType _ >>= _) = _
  rw [hdocument, ok_bind, reject_bind_ok_iff]
  refine ⟨fun hdiff => ?_, ?_⟩
  · rw [hsame] at hdiff
    cases hdiff
  rw [reject_bind_ok_iff]
  exact ⟨fun hne => hne hcountry, rfl⟩

end Issued

/-! ## Barcodes -/

/-- What is signed: everything before the last delimiter of a barcode. -/
def signingInput (country payloadJson : Str) : Str := header country ++ '~' :: payloadJson

def barcode (country payloadJson signature : Str) : Str := signingInput country payloadJson ++ '~' :: signature

theorem buildProfilePayload_ok_iff {credentialType issuerId keyId algorithm : Str}
    {payloadJson : Str} :
    buildProfilePayload platform claims credentialType issuerId keyId algorithm =
        .ok (payloadJson, documentType, country) ↔
      ∃ profile, buildProfile platform claims credentialType issuerId keyId algorithm = .ok profile ∧
        payloadJson = Json.text platform.format.text (profile.payload platform) ∧ ¬ maxPayloadBytes < payloadJson.len ∧
        documentType = profile.documentType ∧
        ((profile.canonical platform).get? "issuingCountry".toList).bind Json.asStr = some country := by
  unfold buildProfilePayload
  rw [Exec.bind_ok_iff]
  refine exists_congr fun profile => ?_
  rw [mapError_ok_iff, Exec.reject_bind_ok_iff, Exec.bind_ok_iff]
  refine and_congr_right fun _ => ?_
  constructor
  · rintro ⟨hsize, found, hfound, h⟩
    obtain ⟨rfl, rfl, rfl⟩ : _ ∧ _ ∧ _ := by simpa [pure, Except.pure] using h
    exact ⟨rfl, hsize, rfl, Exec.expect_ok_iff.mp hfound⟩
  · rintro ⟨rfl, hsize, rfl, hcountry⟩
    exact ⟨hsize, country, Exec.expect_ok_iff.mpr hcountry, rfl⟩

/-- The facts about an issued payload that splitting and validating it need. -/
structure Written (platform : Platform N) (payloadJson country : Str) (payload : Json N) (metadata : Metadata) : Prop where
  isCountry : IsCountry country
  clean : Clean payloadJson
  nonempty : payloadJson ≠ []
  valid : validatePayload platform payloadJson country = .ok (payload, metadata)

theorem Issued.written (h : Issued platform profile) {payloadJson country : Str}
    (hpayload : payloadJson = Json.text platform.format.text (profile.payload platform))
    (hsize : ¬ maxPayloadBytes < payloadJson.len)
    (hcountry : ((profile.canonical platform).get? "issuingCountry".toList).bind Json.asStr = some country) :
    Written platform payloadJson country (profile.payload platform) profile.metadata := by
  subst hpayload
  refine ⟨?_, clean_text platform.format h.bounded_payload, ?_, h.validatePayload_eq hsize hcountry⟩
  · obtain ⟨found, hfound, hletters⟩ := h.canonical.exists_country
    have hother : "issuingCountry".toList ≠ "_vds".toList := by decide
    rw [Profile.canonical, get?_insert, if_neg hother, hfound] at hcountry
    cases hcountry
    exact hletters
  · rw [Profile.payload, Json.text_obj]
    exact cons_ne_nil _ _

variable {payloadJson country signature : Str} {payload : Json N} {metadata : Metadata}

theorem tilde_forbidden : isForbidden '~' = true := by decide

theorem nul_forbidden : isForbidden (Char.ofNat 0) = true := by decide

theorem header_ne_nil (country : Str) : header country ≠ [] := by simp [header]

section

variable (h : Written platform payloadJson country payload metadata)

include h

theorem Written.splitOn_signingInput :
    (signingInput country payloadJson).splitOn '~' = [header country, payloadJson] := by
  rw [signingInput, splitOn_append_cons_self_of_not_mem (h.isCountry.clean_header.not_mem tilde_forbidden),
    splitOn_eq_singleton (h.clean.not_mem tilde_forbidden)]

theorem Written.splitOn_barcode
    (hsignature : '~' ∉ signature) :
    (barcode country payloadJson signature).splitOn '~' = [header country, payloadJson, signature] := by
  rw [barcode, signingInput, append_assoc, cons_append,
    splitOn_append_cons_self_of_not_mem (h.isCountry.clean_header.not_mem tilde_forbidden),
    splitOn_append_cons_self_of_not_mem (h.clean.not_mem tilde_forbidden), splitOn_eq_singleton hsignature]

theorem Written.parseBarcode_eq (hne : signature ≠ []) (htilde : '~' ∉ signature) (hnul : Char.ofNat 0 ∉ signature)
    (hsize : (barcode country payloadJson signature).len ≤ maxBarcodeBytes) :
    parseBarcode platform (barcode country payloadJson signature) =
      .ok ⟨header country, country, payloadJson, payload, signature, signingInput country payloadJson, metadata⟩ := by
  have hclear : Char.ofNat 0 ∉ barcode country payloadJson signature := by
    have hheader := h.isCountry.clean_header.not_mem nul_forbidden
    have hpayload := h.clean.not_mem nul_forbidden
    have hother : Char.ofNat 0 ≠ '~' := by decide
    simp [barcode, signingInput, hheader, hpayload, hnul, hother]
  unfold parseBarcode
  rw [reject_bind_ok_iff]
  refine ⟨?_, ?_⟩
  · rintro (hempty | hlong | hmem)
    · simp [barcode] at hempty
    · exact Nat.not_lt_of_le hsize hlong
    · exact hclear hmem
  · rw [h.splitOn_barcode htilde, reject_bind_ok_iff]
    refine ⟨?_, ?_⟩
    · simp [header_ne_nil, h.nonempty, hne]
    · show (parseHeader (header country) >>= _) = _
      rw [h.isCountry.parseHeader_eq, ok_bind]
      show (validatePayload platform payloadJson country >>= _) = _
      rw [h.valid]
      rfl

theorem Written.validateSigningInput_eq :
    validateSigningInput platform (signingInput country payloadJson) = .ok (header country, payloadJson) := by
  unfold validateSigningInput
  rw [h.splitOn_signingInput, reject_bind_ok_iff]
  refine ⟨?_, ?_⟩
  · simp [header_ne_nil, h.nonempty]
  · show (parseHeader (header country) >>= _) = _
    rw [h.isCountry.parseHeader_eq, ok_bind]
    show (validatePayload platform payloadJson country >>= _) = _
    rw [h.valid]
    rfl

end

end

/-! ## A platform to run on -/

/-- A parser that inverts the serialiser, by choice of the value a text was written from. -/
noncomputable def invertText (s : Str) : Except String (Json Int) :=
  open Classical in
  if h : ∃ v : Json Int, Json.text Json.integer.text v = s then .ok (Classical.choose h) else .error "expected value"

theorem invertText_text (v : Json Int) : invertText (Json.text Json.integer.text v) = .ok v := by
  have hex : ∃ w : Json Int, Json.text Json.integer.text w = Json.text Json.integer.text v := ⟨v, rfl⟩
  rw [invertText, dif_pos hex, Json.text_injective Json.integer (Classical.choose_spec hex)]

/-- A date of the calendar, in eight digits. -/
def isCalendarDate (s : Str) : Bool :=
  let n := Nat.ofDigitChars 10 s 0
  let month := n / 100 % 100
  let day := n % 100
  1 ≤ month ∧ month ≤ 12 ∧ 1 ≤ day ∧ day ≤ Calendar.monthLength (Calendar.isLeap (n / 10000)) month

noncomputable def samplePlatform : Platform Int where
  unicode := Str.stableAsciiMapping
  format := Json.integer
  sameNumber m n := m = n
  sameNumber_refl n := by simp
  IsInteger _ := True
  asI64 n := if - 2 ^ 63 ≤ n ∧ n < 2 ^ 63 then some n else none
  ofI64 n := n
  asI64_ofI64 n hlow hhigh := if_pos ⟨hlow, hhigh⟩
  asI64_range x n h := by
    split at h
    · rename_i hrange
      cases h
      exact hrange
    · cases h
  isInteger_ofI64 _ := trivial
  isDate := isCalendarDate
  mapOrder := .insertion
  parse := invertText
  parse_text v _ _ := invertText_text v
  metadataError _ := "unknown field"

def sampleClaims : List (Str × Json Int) :=
  [("docType".toList, .str " cmc ".toList), ("issuer_country".toList, .str "aus".toList),
    ("documentNumber".toList, .num 123456), ("surname".toList, .str "Example".toList),
    ("givenNames".toList, .str "Ada".toList), ("dateOfBirth".toList, .str "19900102".toList),
    ("nationality".toList, .str "aus".toList), ("gender".toList, .str "f".toList),
    ("dateOfIssue".toList, .str "20260101".toList), ("dateOfExpiry".toList, .str "20300101".toList),
    ("certificateReference".toList, .str " AB12 ".toList)]

/-- A canonical document but for its case and order. -/
def sampleDocument : List (Str × Json Int) :=
  ("issuingCountry".toList, .str "aus ".toList) ::
    sampleClaims.filter (fun m => m.1 ∈ cmcFields.map (fun spec => spec.key.toList))

theorem numbersIn_sampleClaims : ∀ m ∈ sampleClaims, m.2.NumbersIn samplePlatform.IsInteger := by
  intro m hm
  simp only [sampleClaims, mem_cons, not_mem_nil, or_false] at hm
  rcases hm with rfl | rfl | rfl | rfl | rfl | rfl | rfl | rfl | rfl | rfl | rfl
  case inr.inr.inl => exact ⟨0, .num trivial⟩
  all_goals exact ⟨0, .str trivial⟩

/-- A certificate is issued from lower-case claims, with an alias of the country and a number for a text. -/
theorem exists_payload_sampleClaims :
    ∃ payloadJson, buildProfilePayload samplePlatform sampleClaims "CMC".toList "TESTSGN".toList "key-1".toList
      "ES256".toList = .ok (payloadJson, .cmc, "AUS".toList) := by
  have hrun : (buildProfilePayload samplePlatform sampleClaims "CMC".toList "TESTSGN".toList "key-1".toList
      "ES256".toList).map Prod.snd = .ok (.cmc, "AUS".toList) := by decide +kernel
  cases hresult : buildProfilePayload samplePlatform sampleClaims "CMC".toList "TESTSGN".toList "key-1".toList
      "ES256".toList with
  | error e => rw [hresult] at hrun; cases hrun
  | ok result =>
    rw [hresult] at hrun
    obtain ⟨payloadJson, rest⟩ := result
    cases hrun
    exact ⟨payloadJson, rfl⟩

/-- An issued payload leaves room for a signature. -/
theorem len_barcode_le {payloadJson : Str} (h : ¬ maxPayloadBytes < payloadJson.len) :
    (barcode "AUS".toList payloadJson "c2ln".toList).len ≤ maxBarcodeBytes := by
  have hheader : (header "AUS".toList).len = 7 := by decide
  have hsignature : Str.len "c2ln".toList = 4 := by decide
  have htilde : Char.utf8Size '~' = 1 := by decide
  unfold maxPayloadBytes at h
  unfold Str.len at *
  rw [barcode, signingInput, String.utf8Len_append, String.utf8Len_append, String.utf8Len_cons, String.utf8Len_cons,
    hheader, hsignature, htilde, maxBarcodeBytes]
  omega

theorem exists_canonical_sampleDocument :
    ∃ document, canonicalizeDocument samplePlatform .cmc sampleDocument = .ok document := by
  have hok : (canonicalizeDocument samplePlatform .cmc sampleDocument).isOk = true := by decide
  cases hresult : canonicalizeDocument samplePlatform .cmc sampleDocument with
  | error e => rw [hresult] at hok; cases hok
  | ok document => exact ⟨document, rfl⟩

/-! ## The round trip -/

/-- **Issuing and parsing are inverse on the canonical profile.** A barcode put together from what
    `build_profile_payload` returns and any signature text is parsed into these parts, with the metadata that were
    issued; the signing input in it is accepted on its own. And canonical documents are fixed points of
    `canonicalize_document`, in whatever order their members are given. -/
theorem issued_barcode_parses {N : Type} (platform : Platform N) :
    (∀ (claims : List (Str × Json N)) (credentialType issuerId keyId algorithm payloadJson : Str)
      (documentType : DocumentType) (country signature : Str),
      (∀ m ∈ claims, m.2.NumbersIn platform.IsInteger) →
      buildProfilePayload platform claims credentialType issuerId keyId algorithm =
        .ok (payloadJson, documentType, country) →
      signature ≠ [] → '~' ∉ signature → Char.ofNat 0 ∉ signature →
      (barcode country payloadJson signature).len ≤ maxBarcodeBytes →
      ∃ profile, buildProfile platform claims credentialType issuerId keyId algorithm = .ok profile ∧
        profile.documentType = documentType ∧
        parseBarcode platform (barcode country payloadJson signature) =
          .ok ⟨header country, country, payloadJson, profile.payload platform, signature,
            signingInput country payloadJson, profile.metadata⟩ ∧
        validateSigningInput platform (signingInput country payloadJson) = .ok (header country, payloadJson)) ∧
    ∀ (documentType : DocumentType) (input : List (Str × Json N)) (document : SortedMap Str (Json N)),
      canonicalizeDocument platform documentType input = .ok document →
      ∀ members : List (Str × Json N), members.Perm document.entries →
        canonicalizeDocument platform documentType members = .ok document := by
  refine ⟨?_, ?_⟩
  · intro claims credentialType issuerId keyId algorithm payloadJson documentType country signature hclaims hbuild hne
      htilde hnul hsize
    obtain ⟨profile, hprofile, hpayload, hsmall, rfl, hcountry⟩ := buildProfilePayload_ok_iff.mp hbuild
    have hwritten := (issued_of_buildProfile hclaims hprofile).written hpayload hsmall hcountry
    exact ⟨profile, hprofile, rfl, hwritten.parseBarcode_eq hne htilde hnul hsize, hwritten.validateSigningInput_eq⟩
  · intro documentType input document hdocument members hmembers
    exact (canonical_of_canonicalizeDocument hdocument).canonicalizeDocument_eq hmembers

theorem issued_barcode_parses_sampleClaims :
    (∃ payloadJson profile, buildProfile samplePlatform sampleClaims "CMC".toList "TESTSGN".toList "key-1".toList
        "ES256".toList = .ok profile ∧
      profile.documentType = .cmc ∧
      parseBarcode samplePlatform (barcode "AUS".toList payloadJson "c2ln".toList) =
        .ok ⟨header "AUS".toList, "AUS".toList, payloadJson, profile.payload samplePlatform, "c2ln".toList,
          signingInput "AUS".toList payloadJson, profile.metadata⟩ ∧
      validateSigningInput samplePlatform (signingInput "AUS".toList payloadJson) =
        .ok (header "AUS".toList, payloadJson)) ∧
    ∃ document, canonicalizeDocument samplePlatform .cmc sampleDocument = .ok document ∧
      canonicalizeDocument samplePlatform .cmc document.entries = .ok document := by
  refine ⟨?_, ?_⟩
  · obtain ⟨payloadJson, hbuild⟩ := exists_payload_sampleClaims
    obtain ⟨-, -, -, hsmall, -⟩ := buildProfilePayload_ok_iff.mp hbuild
    exact ⟨payloadJson, (issued_barcode_parses samplePlatform).1 sampleClaims _ _ _ _ _ _ _ _ numbersIn_sampleClaims
      hbuild (by decide) (by decide) (by decide) (len_barcode_le hsmall)⟩
  · obtain ⟨document, hdocument⟩ := exists_canonical_sampleDocument
    exact ⟨document, hdocument, (issued_barcode_parses samplePlatform).2 _ _ document hdocument _ (.refl _)⟩

end MartyCore.VdsNc
