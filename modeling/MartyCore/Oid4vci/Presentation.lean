import MartyCore.Oid4vci.Disclosure

/-!
# `Oid4vci.Presentation` — selective disclosure hides and loses nothing

What a reader of a compact SD-JWT gets back: the disclosure target of the signed payload, to which the disclosures are
added whose digests it lists (`reconstruct`). The main theorem follows a credential from an accepted plan through its
compact text to every presentation of it. A text is no more than its parts (`splitOn_compact`), every part is read
back as it was written, and since SHA-256 and base64url are injective only the issuer's own disclosures count.
-/

namespace MartyCore.Oid4vci
namespace SdJwt

open Exec Json.MapOrder Base64 SortedMap
open List hiding lookup

variable {N : Type}

/-! ## Reading a compact text -/

/-- The text before the first `~`. -/
def issuerJwt (compact : Str) : Str := (compact.splitOn '~').headD []

def disclosuresOf (compact : Str) : List Str := (compact.splitOn '~').tail.filter (fun segment => !segment.isEmpty)

variable (platform : Platform N)

/-- The value that a base64url text holds. -/
def readJson (text : Str) : Option (Json N) := do
  let bytes ← Base64.decode text
  (platform.fromSlice bytes).toOption

/-- The disclosure target of the payload of a compact text. -/
def signedTarget (t : SdJwtDisclosureTarget) (compact : Str) : Option (Members N) := do
  let segment ← ((issuerJwt compact).splitOn '.')[1]?
  let payload ← readJson platform segment
  (disclosureTarget t payload).toOption

/-- The digests that a target lists. -/
def listedDigests (target : Members N) : List Str :=
  match lookup "_sd".toList target with
  | some (.arr values) => values.filterMap Json.asStr
  | _ => []

/-- The name and the value in a disclosure `[salt, name, value]`. -/
def opens (text : Str) : Option (Str × Json N) :=
  match readJson platform text with
  | some (.arr [_, .str name, v]) => some (name, v)
  | _ => none

/-- A disclosure counts if its digest is listed. -/
def addBack (digests : List Str) (members : Members N) (text : Str) : Members N :=
  if digestText platform text ∈ digests then
    match opens platform text with
    | some (name, v) => platform.mapOrder.insert name v members
    | none => members
  else members

/-- The target without what belongs to selective disclosure, and with what the texts disclose. -/
def reconstruct (target : Members N) (texts : List Str) : Members N :=
  texts.foldl (addBack platform (listedDigests target))
    (platform.mapOrder.remove "_sd".toList (platform.mapOrder.remove "_sd_alg".toList target))

/-! ## The parts of a text -/

/-- A text that can stand between separators. -/
def IsToken (text : Str) : Prop := text ≠ [] ∧ '~' ∉ text ∧ '.' ∉ text

theorem intercalate_concat_nil (sep : Char) {parts : List Str} (h : parts ≠ []) :
    [sep].intercalate (parts ++ [[]]) = [sep].intercalate parts ++ [sep] := by
  induction parts with
  | nil => exact absurd rfl h
  | cons part rest ih =>
    cases rest with
    | nil => simp [List.intercalate]
    | cons next rest =>
      have hrest := ih (cons_ne_nil next rest)
      rw [cons_append] at hrest
      rw [cons_append, cons_append, intercalate_cons_cons, hrest, intercalate_cons_cons]
      simp

variable {texts : List Str}

/-- The compact text is the issuer's part, the disclosures and an empty part. -/
theorem splitOn_compact {jwt : Str} (hjwt : '~' ∉ jwt) (htexts : ∀ text ∈ texts, IsToken text) :
    (jwt ++ disclosuresSuffix texts).splitOn '~' = jwt :: (texts ++ [[]]) := by
  have hjoin : jwt ++ disclosuresSuffix texts = ['~'].intercalate (jwt :: (texts ++ [[]])) := by
    cases texts with
    | nil => simp [disclosuresSuffix, List.intercalate]
    | cons text rest =>
      have hsuffix := intercalate_concat_nil '~' (cons_ne_nil text rest)
      rw [cons_append] at hsuffix
      rw [cons_append, intercalate_cons_cons, hsuffix]
      simp [disclosuresSuffix]
  rw [hjoin]
  refine splitOn_intercalate '~' ?_ (cons_ne_nil _ _)
  intro part hpart
  rcases mem_cons.mp hpart with rfl | hpart
  · exact hjwt
  · rcases mem_append.mp hpart with hpart | hpart
    · exact (htexts part hpart).2.1
    · rw [mem_singleton.mp hpart]
      simp

theorem filter_texts (h : ∀ text ∈ texts, IsToken text) :
    (texts ++ [[]]).filter (fun segment => !segment.isEmpty) = texts := by
  rw [filter_append, filter_eq_self.mpr]
  · simp
  · intro text htext
    simpa using (h text htext).1

section

variable {jwt : Str} {texts : List Str}

theorem issuerJwt_compact (hjwt : '~' ∉ jwt) (htexts : ∀ text ∈ texts, IsToken text) :
    issuerJwt (jwt ++ disclosuresSuffix texts) = jwt := by
  rw [issuerJwt, splitOn_compact hjwt htexts]
  rfl

theorem disclosuresOf_compact (hjwt : '~' ∉ jwt) (htexts : ∀ text ∈ texts, IsToken text) :
    disclosuresOf (jwt ++ disclosuresSuffix texts) = texts := by
  rw [disclosuresOf, splitOn_compact hjwt htexts]
  exact filter_texts htexts

/-- The empty part at the end is dropped, and no other. -/
theorem segments_compact (hne : jwt ≠ []) (hjwt : '~' ∉ jwt) (htexts : ∀ text ∈ texts, IsToken text) :
    ((jwt ++ disclosuresSuffix texts).splitOn '~').rdropWhile List.isEmpty = jwt :: texts := by
  rw [splitOn_compact hjwt htexts, ← cons_append, rdropWhile_concat_pos _ _ _ rfl, rdropWhile_eq_self_iff]
  intro hnil
  have hall : ∀ part ∈ jwt :: texts, part ≠ [] := by
    intro part hpart
    rcases mem_cons.mp hpart with rfl | hpart
    · exact hne
    · exact (htexts part hpart).1
  simpa using hall _ (getLast_mem hnil)

end

/-! ## What is written is read back -/

section

variable {platform : Platform N}

theorem not_mem_encodeJson {c : Char} (h : Base64.value c = none) (v : Json N) : c ∉ encodeJson platform v :=
  not_mem_encode h _

theorem isToken_encodeJson (v : Json N) : IsToken (encodeJson platform v) := by
  refine ⟨?_, not_mem_encodeJson rfl v, not_mem_encodeJson rfl v⟩
  intro hnil
  obtain ⟨c, tail, htext, -⟩ := Json.text_lead platform.format v
  have hempty : Json.text platform.format.text v = [] := Str.bytes_injective (encode_injective hnil)
  rw [htext] at hempty
  cases hempty

variable {v : Json N}

theorem readJson_encodeJson (hv : platform.mapOrder.Holds v) : readJson platform (encodeJson platform v) = some v := by
  simp only [readJson, encodeJson, decode_encode, Option.bind_eq_bind, Option.bind_some, platform.fromSlice_text v hv]
  rfl

theorem decodeJson_encodeJson {decodeError jsonError : String} (hv : platform.mapOrder.Holds v) :
    decodeJson platform decodeError jsonError (encodeJson platform v) = .ok v := by
  simp only [decodeJson, encodeJson, decode_encode, orFail_some_bind, platform.fromSlice_text v hv]

/-- The value of a disclosure. -/
def disclosureValue (salt : Bytes) (name : Str) (v : Json N) : Json N := .arr [.str (Base64.encode salt), .str name, v]

variable {salt : Bytes} {name : Str}

theorem holds_disclosureValue (hv : platform.mapOrder.Holds v) :
    platform.mapOrder.Holds (disclosureValue salt name v) := by
  refine holds_arr ?_
  simp [holds_str, hv]

theorem opens_disclosureText (hv : platform.mapOrder.Holds v) :
    opens platform (disclosureText platform salt name v) = some (name, v) := by
  have hread : readJson platform (disclosureText platform salt name v) = some (disclosureValue salt name v) :=
    readJson_encodeJson (holds_disclosureValue hv)
  rw [opens, hread]
  rfl

theorem disclosureField_disclosureText {hashes : List Str}
    (hv : platform.mapOrder.Holds v) (hlisted : digestText platform (disclosureText platform salt name v) ∈ hashes) :
    disclosureField platform hashes (disclosureText platform salt name v) = .ok name := by
  have hread : decodeJson platform "Disclosure decode failed: " "Disclosure is not JSON: "
      (disclosureText platform salt name v) = .ok (disclosureValue salt name v) :=
    decodeJson_encodeJson (holds_disclosureValue hv)
  rw [disclosureField, hread]
  show (Exec.reject (digestText platform (disclosureText platform salt name v) ∉ hashes) _ >>= fun _ => .ok name) = _
  rw [reject_neg_bind (not_not_intro hlisted)]

end

/-! ## The loops of the holder -/

section

variable {platform : Platform N}

theorem mem_memberHashes {members : Members N} {m : Str × Json N} (hm : m ∈ members) {s : Str}
    (hs : s ∈ collectHashes m.2) : s ∈ memberHashes members := by
  induction members with
  | nil => cases hm
  | cons m' rest ih =>
    rw [memberHashes, mem_append]
    rcases mem_cons.mp hm with rfl | hm
    · exact .inl hs
    · exact .inr (ih hm)

theorem listedDigests_subset_collectHashes {t : SdJwtDisclosureTarget} {payload : Json N} {target : Members N}
    (h : disclosureTarget t payload = .ok target) : ∀ s ∈ listedDigests target, s ∈ collectHashes payload := by
  have hhere : ∀ s ∈ listedDigests target, s ∈ collectHashes (.obj target) := by
    intro s hs
    exact mem_append_left _ hs
  intro s hs
  cases t with
  | topLevel =>
    rw [disclosureTarget_topLevel_ok_iff.mp h]
    exact hhere s hs
  | credentialSubject =>
    obtain ⟨members, rfl, hlookup⟩ := disclosureTarget_subject_ok_iff.mp h
    exact mem_append_right _ (mem_memberHashes (mem_of_lookup hlookup) (hhere s hs))

theorem checkSegments_ok {segments : List Str} {count : Nat}
    (hcount : count + (segments.filter (fun segment => !segment.isEmpty)).length ≤ platform.maxSdJwtDisclosures)
    (hlen : ∀ segment ∈ segments, segment.len ≤ platform.maxSdJwtDisclosureBytes) :
    checkSegments platform count segments = .ok () := by
  induction segments generalizing count with
  | nil => rfl
  | cons segment rest ih =>
    rw [forall_mem_cons] at hlen
    rw [checkSegments]
    cases hempty : segment.isEmpty with
    | true =>
      rw [filter_cons_of_neg (by simp [hempty])] at hcount
      exact ih hcount hlen.2
    | false =>
      rw [filter_cons_of_pos (by simp [hempty]), length_cons] at hcount
      rw [if_neg Bool.false_ne_true, reject_neg_bind (by omega), reject_neg_bind (Nat.not_lt.mpr hlen.1)]
      exact ih (by omega) hlen.2

/-- The loop over disclosures with different names. -/
theorem collectAvailable_eq {hashes : List Str} {pairs available : List (Str × Str)}
    (hfield : ∀ p ∈ pairs, disclosureField platform hashes p.2 = .ok p.1)
    (hfresh : (pairs.map Prod.fst).Nodup ∧ ∀ name ∈ pairs.map Prod.fst, name ∉ available.map Prod.fst) :
    collectAvailable platform hashes (pairs.map Prod.snd) available = .ok (pairs.reverse ++ available) := by
  induction pairs generalizing available with
  | nil => rfl
  | cons p rest ih =>
    obtain ⟨hnew, hnodup, hrest⟩ := nodup_fresh_cons_iff.mp hfresh
    rw [forall_mem_cons] at hfield
    rw [map_cons, collectAvailable, hfield.1]
    show (Exec.reject (p.1 ∈ available.map Prod.fst) _ >>= fun _ => _) = _
    rw [reject_neg_bind hnew]
    refine (@ih (p :: available) hfield.2 ⟨hnodup, hrest⟩).trans ?_
    simp

/-- The loop over the requested names accepts new ones for which there is a disclosure. -/
theorem selectDisclosures_ok_iff {available : List (Str × Str)} {names requested picked : List Str} :
    selectDisclosures available names requested = .ok picked ↔
      (names.Nodup ∧ ∀ name ∈ names, name ∉ requested) ∧
        List.Forall₂ (fun name text => lookup name available = some text) names picked := by
  induction names generalizing requested picked with
  | nil => simp [selectDisclosures, eq_comm]
  | cons name rest ih =>
    rw [selectDisclosures, reject_bind_ok_iff, nodup_fresh_cons_iff, forall₂_cons_left_iff]
    simp only [bind_ok_iff, orFail_ok_iff, ih]
    constructor
    · rintro ⟨hnew, text, htext, rest', ⟨hfresh, hrest⟩, h⟩
      cases h
      exact ⟨⟨hnew, hfresh⟩, text, rest', htext, hrest, rfl⟩
    · rintro ⟨⟨hnew, hfresh⟩, text, rest', htext, hrest, rfl⟩
      exact ⟨hnew, text, htext, rest', ⟨hfresh, hrest⟩, rfl⟩

end

/-! ## Adding disclosures back -/

section

variable {platform : Platform N}

/-- Disclosures that open to the values of one map either give a name its value or leave it as it was. -/
theorem lookup_foldl_addBack {digests given : List Str} {value : Str → Option (Json N)} {members : Members N}
    (hopens : ∀ text ∈ given, digestText platform text ∈ digests →
      ∃ name v, opens platform text = some (name, v) ∧ value name = some v) (q : Str) :
    (∃ text ∈ given, digestText platform text ∈ digests ∧ (opens platform text).map Prod.fst = some q ∧
        lookup q (given.foldl (addBack platform digests) members) = value q) ∨
      ((∀ text ∈ given, digestText platform text ∈ digests → (opens platform text).map Prod.fst ≠ some q) ∧
        lookup q (given.foldl (addBack platform digests) members) = lookup q members) := by
  induction given generalizing members with
  | nil => exact .inr ⟨nofun, rfl⟩
  | cons text rest ih =>
    rw [forall_mem_cons] at hopens
    rw [foldl_cons]
    rcases @ih (addBack platform digests members text) hopens.2 with
      ⟨text', htext', hlisted, hopen, hlookup⟩ | ⟨hothers, hlookup⟩
    · exact .inl ⟨text', mem_cons_of_mem _ htext', hlisted, hopen, hlookup⟩
    rw [hlookup]
    by_cases hlisted : digestText platform text ∈ digests
    · obtain ⟨name, v, hopen, hv⟩ := hopens.1 hlisted
      have hadd : addBack platform digests members text = platform.mapOrder.insert name v members := by
        rw [addBack, if_pos hlisted, hopen]
      rw [hadd, lookup_insert]
      by_cases hq : q = name
      · rw [if_pos hq, hq]
        exact .inl ⟨text, mem_cons_self, hlisted, by rw [hopen]; rfl, hv.symm⟩
      · rw [if_neg hq]
        refine .inr ⟨?_, rfl⟩
        rw [forall_mem_cons]
        refine ⟨?_, hothers⟩
        intro _ heq
        rw [hopen] at heq
        exact hq (Option.some.inj heq).symm
    · rw [addBack, if_neg hlisted]
      refine .inr ⟨?_, rfl⟩
      rw [forall_mem_cons]
      exact ⟨fun h => absurd h hlisted, hothers⟩

/-- The selected claims with their disclosures. -/
def namedTexts (platform : Platform N) (salts : Nat → Bytes) (sdClaims : List Str) (f : Str → Option (Json N)) :
    List (Str × Str) :=
  (selectedClaims sdClaims f).zip (disclosureTexts platform salts sdClaims f)

variable {salts : Nat → Bytes} {sdClaims : List Str} {f : Str → Option (Json N)}

theorem getElem?_disclosureTexts {i : Nat} {name : Str} (h : (selectedClaims sdClaims f)[i]? = some name) :
    ∃ v, f name = some v ∧
      (disclosureTexts platform salts sdClaims f)[i]? = some (disclosureText platform (salts i) name v) := by
  obtain ⟨v, hv⟩ := Option.isSome_iff_exists.mp (mem_selectedClaims.mp (mem_of_getElem? h)).2
  refine ⟨v, hv, ?_⟩
  rw [disclosureTexts, getElem?_mapIdx, h, Option.map_some, hv]
  rfl

theorem map_fst_namedTexts : (namedTexts platform salts sdClaims f).map Prod.fst = selectedClaims sdClaims f :=
  map_fst_zip (Nat.le_of_eq length_mapIdx.symm)

theorem map_snd_namedTexts :
    (namedTexts platform salts sdClaims f).map Prod.snd = disclosureTexts platform salts sdClaims f :=
  map_snd_zip (Nat.le_of_eq length_mapIdx)

variable {p : Str × Str}

theorem exists_of_mem_namedTexts (hp : p ∈ namedTexts platform salts sdClaims f) :
    ∃ salt v, f p.1 = some v ∧ p.2 = disclosureText platform salt p.1 v := by
  obtain ⟨i, hi⟩ := mem_iff_getElem?.mp hp
  obtain ⟨hname, htext⟩ := getElem?_zip_eq_some.mp hi
  obtain ⟨v, hv, htext'⟩ := @getElem?_disclosureTexts N platform salts sdClaims f i p.1 hname
  rw [htext] at htext'
  exact ⟨salts i, v, hv, Option.some.inj htext'⟩

theorem nodup_namedTexts : ((namedTexts platform salts sdClaims f).map Prod.fst).Nodup := by
  rw [map_fst_namedTexts]
  exact nodup_eraseDups _

variable {q : Str}

theorem exists_namedText_iff :
    (∃ text, (q, text) ∈ namedTexts platform salts sdClaims f) ↔ q ∈ selectedClaims sdClaims f := by
  rw [← @map_fst_namedTexts N platform salts, mem_map]
  constructor
  · rintro ⟨text, hp⟩
    exact ⟨_, hp, rfl⟩
  · rintro ⟨⟨_, text⟩, hp, rfl⟩
    exact ⟨text, hp⟩

theorem namedTexts_functional {text text' : Str} (hp : (q, text) ∈ namedTexts platform salts sdClaims f)
    (hp' : (q, text') ∈ namedTexts platform salts sdClaims f) : text = text' := by
  have hlookup := (lookup_eq_some_iff_of_nodup nodup_namedTexts).mpr hp
  rw [(lookup_eq_some_iff_of_nodup nodup_namedTexts).mpr hp'] at hlookup
  exact (Option.some.inj hlookup).symm

theorem mem_disclosureTexts (hp : p ∈ namedTexts platform salts sdClaims f) :
    p.2 ∈ disclosureTexts platform salts sdClaims f := by
  rw [← map_snd_namedTexts]
  exact mem_map_of_mem hp

theorem isToken_disclosureTexts : ∀ text ∈ disclosureTexts platform salts sdClaims f, IsToken text := by
  intro text htext
  rw [← map_snd_namedTexts] at htext
  obtain ⟨p, hp, rfl⟩ := mem_map.mp htext
  obtain ⟨salt, v, -, htext⟩ := exists_of_mem_namedTexts hp
  rw [htext]
  exact isToken_encodeJson (disclosureValue salt p.1 v)

variable {planned : PlannedSdJwtPreparation platform.mapOrder N} {claims : CredentialClaims platform.mapOrder N}

/-- The members of the target of a payload from which nothing was taken out. -/
def originalMember (platform : Platform N) (planned : PlannedSdJwtPreparation platform.mapOrder N)
    (f : Str → Option (Json N)) (q : Str) : Option (Json N) :=
  (protocolMember platform planned q).or (f q)

/-- The signed disclosure target of an accepted plan. -/
structure Signed (claims : CredentialClaims platform.mapOrder N) (planned : PlannedSdJwtPreparation platform.mapOrder N)
    (salts : Nat → Bytes) (f : Str → Option (Json N)) (target : Members N) : Prop where
  plans : Plans claims planned f
  holds : platform.mapOrder.Holds (.obj target)
  member : ∀ q, lookup q target =
    signedMember platform planned claims.selectiveDisclosureClaims
      (disclosureTexts platform salts claims.selectiveDisclosureClaims f) f q

theorem Plans.holds (h : Plans claims planned f) {v : Json N} (hv : f q = some v) :
    platform.mapOrder.Holds v := by
  obtain ⟨hp, target, htarget, hlookup⟩ := h.shows_payload
  exact (holds_disclosureTarget hp htarget).of_lookup ((hlookup q).trans hv)

theorem digestMember_of_ne (h : q ≠ "_sd".toList) : digestMember platform texts q = none :=
  if_neg (fun hq => h hq.1)

theorem algorithmMember_of_ne {t : SdJwtDisclosureTarget} (h : q ≠ "_sd_alg".toList) :
    (algorithmMember t texts q : Option (Json N)) = none :=
  if_neg (fun hq => h hq.2.1)

theorem protocolMember_marker (hq : q ∈ sdJwtStructuralMarkers) : protocolMember platform planned q = none := by
  refine protocolMember_eq_none_of_selector (fun _ => ?_)
  revert q
  decide

namespace Signed

variable {target : Members N} (h : Signed claims planned salts f target)

include h

theorem opens_of_mem (hp : p ∈ namedTexts platform salts claims.selectiveDisclosureClaims f) :
    ∃ v, opens platform p.2 = some (p.1, v) ∧ f p.1 = some v := by
  obtain ⟨salt, v, hv, htext⟩ := exists_of_mem_namedTexts hp
  refine ⟨v, ?_, hv⟩
  rw [htext]
  exact opens_disclosureText (h.plans.holds hv)

/-- The digest list, which is no member where nothing is selected. -/
theorem lookup_sd : lookup "_sd".toList target =
    digestMember platform (disclosureTexts platform salts claims.selectiveDisclosureClaims f) "_sd".toList := by
  have hmarker : "_sd".toList ∈ sdJwtStructuralMarkers := by decide
  have hselector : "_sd".toList ∉ claims.selectiveDisclosureClaims :=
    fun hmem => h.plans.selector_unmarked _ hmem hmarker
  rw [h.member, signedMember, protocolMember_marker hmarker, algorithmMember_of_ne (by decide), if_neg hselector,
    h.plans.unmarked _ hmarker]
  simp

theorem listedDigests_eq : listedDigests target =
    (disclosureTexts platform salts claims.selectiveDisclosureClaims f).map (digestText platform) := by
  rw [listedDigests, h.lookup_sd]
  generalize disclosureTexts platform salts claims.selectiveDisclosureClaims f = texts
  cases texts with
  | nil => simp [digestMember]
  | cons text rest =>
    show ((text :: rest).map (fun text => (Json.str (digestText platform text) : Json N))).filterMap Json.asStr = _
    rw [filterMap_map]
    exact congrFun filterMap_eq_map (text :: rest)

/-- Only the issuer's own disclosures count. -/
theorem exists_namedText_of_listed {text : Str} (hlisted : digestText platform text ∈ listedDigests target) :
    ∃ name, (name, text) ∈ namedTexts platform salts claims.selectiveDisclosureClaims f := by
  rw [h.listedDigests_eq] at hlisted
  obtain ⟨text', htext', hdigest⟩ := mem_map.mp hlisted
  rw [Str.bytes_injective (platform.sha256_injective (encode_injective hdigest)), ← map_snd_namedTexts] at htext'
  obtain ⟨⟨name, _⟩, hp, rfl⟩ := mem_map.mp htext'
  exact ⟨name, hp⟩

theorem listed_of_mem (hp : p ∈ namedTexts platform salts claims.selectiveDisclosureClaims f) :
    digestText platform p.2 ∈ listedDigests target := by
  rw [h.listedDigests_eq, ← map_snd_namedTexts]
  exact mem_map_of_mem (mem_map_of_mem hp)

/-- What is left of the target before anything is added back. -/
theorem lookup_stripped (q : Str) :
    lookup q (platform.mapOrder.remove "_sd".toList (platform.mapOrder.remove "_sd_alg".toList target)) =
      (protocolMember platform planned q).or (if q ∈ claims.selectiveDisclosureClaims then none else f q) := by
  rw [lookup_remove (holds_remove h.holds), lookup_remove h.holds]
  have hmarker : q ∈ sdJwtStructuralMarkers →
      (protocolMember platform planned q).or (if q ∈ claims.selectiveDisclosureClaims then none else f q) = none := by
    intro hq
    have hselector : q ∉ claims.selectiveDisclosureClaims := fun hmem => h.plans.selector_unmarked q hmem hq
    rw [protocolMember_marker hq, if_neg hselector, h.plans.unmarked q hq]
    rfl
  by_cases hsd : q = "_sd".toList
  · rw [if_pos hsd, hmarker (by simp [hsd, sdJwtStructuralMarkers])]
  by_cases halgorithm : q = "_sd_alg".toList
  · rw [if_neg hsd, if_pos halgorithm, hmarker (by simp [halgorithm, sdJwtStructuralMarkers])]
  rw [if_neg hsd, if_neg halgorithm, h.member, signedMember, algorithmMember_of_ne halgorithm, digestMember_of_ne hsd]
  rfl

/-- **What is added back**: a selected claim comes back with its own disclosure, and nothing else changes. -/
theorem lookup_reconstruct (given : List Str) (q : Str) :
    (∀ text, (q, text) ∈ namedTexts platform salts claims.selectiveDisclosureClaims f → text ∉ given →
      lookup q (reconstruct platform target given) = none) ∧
    ((∀ text, (q, text) ∈ namedTexts platform salts claims.selectiveDisclosureClaims f → text ∈ given) →
      lookup q (reconstruct platform target given) = originalMember platform planned f q) := by
  have hopens : ∀ text ∈ given, digestText platform text ∈ listedDigests target →
      ∃ name v, opens platform text = some (name, v) ∧ f name = some v := by
    intro text _ hlisted
    obtain ⟨name, hp⟩ := h.exists_namedText_of_listed hlisted
    obtain ⟨v, hopen, hv⟩ := h.opens_of_mem hp
    exact ⟨name, v, hopen, hv⟩
  have hselected : ∀ {text}, (q, text) ∈ namedTexts platform salts claims.selectiveDisclosureClaims f →
      protocolMember platform planned q = none ∧ q ∈ claims.selectiveDisclosureClaims := by
    intro text hp
    have hselector := (mem_selectedClaims.mp (exists_namedText_iff.mp ⟨text, hp⟩)).1
    exact ⟨h.plans.selector_protocol q hselector, hselector⟩
  rcases @lookup_foldl_addBack N platform _ given f
      (platform.mapOrder.remove "_sd".toList (platform.mapOrder.remove "_sd_alg".toList target)) hopens q with
    ⟨text, htext, hlisted, hopen, hlookup⟩ | ⟨hnone, hlookup⟩
  · -- the added texts are the issuer's, so a text added under `q` is the disclosure of `q`
    obtain ⟨name, hp⟩ := h.exists_namedText_of_listed hlisted
    obtain ⟨v, hopen', -⟩ := h.opens_of_mem hp
    rw [hopen'] at hopen
    obtain rfl : name = q := Option.some.inj hopen
    constructor
    · intro text' hp' hnot
      exact absurd (namedTexts_functional hp hp' ▸ htext) hnot
    · intro _
      rw [originalMember, (hselected hp).1]
      exact hlookup
  · rw [h.lookup_stripped] at hlookup
    constructor
    · intro text hp _
      obtain ⟨hprotocol, hselector⟩ := hselected hp
      refine hlookup.trans ?_
      rw [hprotocol, if_pos hselector]
      rfl
    · intro hall
      refine hlookup.trans (congrArg (Option.or _) ?_)
      by_cases hselector : q ∈ claims.selectiveDisclosureClaims
      · rw [if_pos hselector]
        by_contra habsent
        have hq : q ∈ selectedClaims claims.selectiveDisclosureClaims f :=
          mem_selectedClaims.mpr ⟨hselector, Option.isSome_iff_ne_none.mpr (Ne.symm habsent)⟩
        obtain ⟨text, hp⟩ := (@exists_namedText_iff N platform salts _ f q).mpr hq
        obtain ⟨v, hopen, -⟩ := h.opens_of_mem hp
        exact hnone text (hall text hp) (h.listed_of_mem hp) (by rw [hopen]; rfl)
      · rw [if_neg hselector]

/-- With some of the disclosures, the other selected claims stay hidden. -/
theorem lookup_reconstruct_picked {names picked : List Str} (hpicked : List.Forall₂ (fun name text =>
      (name, text) ∈ namedTexts platform salts claims.selectiveDisclosureClaims f) names picked) (q : Str) :
    lookup q (reconstruct platform target picked) =
      if q ∈ selectedClaims claims.selectiveDisclosureClaims f ∧ q ∉ names then none
      else originalMember platform planned f q := by
  by_cases hhidden : q ∈ selectedClaims claims.selectiveDisclosureClaims f ∧ q ∉ names
  · rw [if_pos hhidden]
    obtain ⟨text, hp⟩ := (@exists_namedText_iff N platform salts _ f q).mpr hhidden.1
    refine (h.lookup_reconstruct picked q).1 text hp ?_
    -- a picked text opens to one of the names that were asked for
    intro htext
    obtain ⟨name, hnames, hp'⟩ := exists_of_mem_forall₂ hpicked.flip htext
    obtain ⟨v, hopen, -⟩ := h.opens_of_mem hp
    obtain ⟨v', hopen', -⟩ := h.opens_of_mem hp'
    rw [hopen] at hopen'
    have hsame : q = name := congrArg Prod.fst (Option.some.inj hopen')
    exact hhidden.2 (hsame ▸ hnames)
  · rw [if_neg hhidden]
    refine (h.lookup_reconstruct picked q).2 (fun text hp => ?_)
    have hname : q ∈ names := by
      by_contra hname
      exact hhidden ⟨exists_namedText_iff.mp ⟨text, hp⟩, hname⟩
    obtain ⟨text', htext', hp'⟩ := exists_of_mem_forall₂ hpicked hname
    exact namedTexts_functional hp' hp ▸ htext'

end Signed

end

/-! ## From a plan to its presentations -/

section

variable {platform : Platform N}

/-- The size limits of the library for SD-JWTs. -/
structure WithinLimits (platform : Platform N) (compact : Str) : Prop where
  input : compact.len ≤ platform.maxSdJwtInputBytes
  count : (disclosuresOf compact).length ≤ platform.maxSdJwtDisclosures
  disclosure : ∀ text ∈ disclosuresOf compact, text.len ≤ platform.maxSdJwtDisclosureBytes

/-- The target of the payload that would be signed if nothing were selected. -/
def originalTarget (platform : Platform N) (planned : PlannedSdJwtPreparation platform.mapOrder N) : Option (Members N) :=
  (disclosureTarget planned.disclosureTarget (setProtocolMembers platform planned planned.payload)).toOption

/-- **Selective disclosure of `selected` in the signed target and the disclosures of a compact text.** -/
structure Discloses (platform : Platform N) (salts : Nat → Bytes) (t : SdJwtDisclosureTarget) (selected : List Str)
    (original target : Members N) (compact : Str) : Prop where
  signed : signedTarget platform t compact = some target
  hidden : ∀ name ∈ selected, lookup name target = none
  count : (disclosuresOf compact).length = selected.length
  disclosure : ∀ i name, selected[i]? = some name → ∃ v, lookup name original = some v ∧
    (disclosuresOf compact)[i]? = some (disclosureText platform (salts i) name v)
  digests : listedDigests target = (disclosuresOf compact).map (digestText platform)
  unlisted : selected = [] → lookup "_sd".toList target = none
  /-- With all disclosures, among whatever other texts, the target is the original one. -/
  restored : ∀ given, (∀ text ∈ disclosuresOf compact, text ∈ given) →
    ∀ q, lookup q (reconstruct platform target given) = lookup q original
  /-- A presentation has the disclosures that were asked for, and the original target without the others. -/
  presented : ∀ names : List Str, names.Nodup → (∀ name ∈ names, name ∈ selected) → WithinLimits platform compact →
    ∃ presentation, createSdJwtPresentation platform compact names = .ok presentation ∧
      issuerJwt presentation = issuerJwt compact ∧
      List.Forall₂ (fun name text => (name, text) ∈ selected.zip (disclosuresOf compact)) names
        (disclosuresOf presentation) ∧
      signedTarget platform t presentation = some target ∧
      ∀ q, lookup q (reconstruct platform target (disclosuresOf presentation)) =
        if q ∈ selected ∧ q ∉ names then none else lookup q original

section

variable {header : Str} {payload : Json N} {signature : Bytes} {texts : List Str}

/-- The issuer's part of a compact text. -/
def jwtText (platform : Platform N) (header : Str) (payload : Json N) (signature : Bytes) : Str :=
  header ++ ['.'] ++ encodeJson platform payload ++ ['.'] ++ Base64.encode signature

theorem not_mem_jwtText (hheader : '~' ∉ header) : '~' ∉ jwtText platform header payload signature := by
  have hpayload : '~' ∉ encodeJson platform payload := not_mem_encodeJson rfl payload
  have hsignature : '~' ∉ Base64.encode signature := not_mem_encode rfl signature
  simp [jwtText, hheader, hpayload, hsignature]

theorem splitOn_jwtText (hheader : '.' ∉ header) :
    (jwtText platform header payload signature).splitOn '.' =
      [header, encodeJson platform payload, Base64.encode signature] := by
  have hjoin : jwtText platform header payload signature =
      ['.'].intercalate [header, encodeJson platform payload, Base64.encode signature] := by
    simp [jwtText, List.intercalate]
  rw [hjoin]
  refine splitOn_intercalate '.' ?_ (cons_ne_nil _ _)
  simp only [forall_mem_cons]
  exact ⟨hheader, not_mem_encodeJson rfl payload, not_mem_encode rfl signature, nofun⟩

theorem signedTarget_compact {t : SdJwtDisclosureTarget} {target : Members N} (hheader : IsToken header)
    (htexts : ∀ text ∈ texts, IsToken text) (hpayload : platform.mapOrder.Holds payload)
    (htarget : disclosureTarget t payload = .ok target) :
    signedTarget platform t (jwtText platform header payload signature ++ disclosuresSuffix texts) = some target := by
  rw [signedTarget, issuerJwt_compact (not_mem_jwtText hheader.2.1) htexts, splitOn_jwtText hheader.2.2]
  show (readJson platform (encodeJson platform payload)).bind (fun payload => (disclosureTarget t payload).toOption) = _
  rw [readJson_encodeJson hpayload, Option.bind_some, htarget]
  rfl

theorem validate_compact {compact : Str} (htexts : ∀ text ∈ texts, IsToken text)
    (hsplit : compact.splitOn '~' = jwtText platform header payload signature :: (texts ++ [[]]))
    (hlimits : WithinLimits platform compact) : validateSdJwtPresentationInput platform compact = .ok () := by
  have hdisclosures : disclosuresOf compact = texts := by
    rw [disclosuresOf, hsplit]
    exact filter_texts htexts
  rw [validateSdJwtPresentationInput, reject_neg_bind (Nat.not_lt.mpr hlimits.input), hsplit]
  refine checkSegments_ok ?_ ?_
  · rw [tail_cons, filter_texts htexts, Nat.zero_add, ← hdisclosures]
    exact hlimits.count
  · intro segment hsegment
    rcases mem_append.mp hsegment with hsegment | hsegment
    · exact hlimits.disclosure segment (hdisclosures ▸ hsegment)
    · rw [mem_singleton.mp hsegment]
      exact Nat.zero_le _

/-- **The holder's function picks the disclosures of the names it is given.** -/
theorem createSdJwtPresentation_compact {claims : CredentialClaims platform.mapOrder N}
    {planned : PlannedSdJwtPreparation platform.mapOrder N} {salts : Nat → Bytes} {f : Str → Option (Json N)}
    {target : Members N} (h : Signed claims planned salts f target) (hheader : IsToken header)
    (hpayload : platform.mapOrder.Holds payload)
    (htarget : disclosureTarget planned.disclosureTarget payload = .ok target) {names : List Str} (hnodup : names.Nodup)
    (hnames : ∀ name ∈ names, name ∈ selectedClaims claims.selectiveDisclosureClaims f)
    (hlimits : WithinLimits platform (jwtText platform header payload signature ++
      disclosuresSuffix (disclosureTexts platform salts claims.selectiveDisclosureClaims f))) :
    ∃ picked,
      createSdJwtPresentation platform (jwtText platform header payload signature ++
          disclosuresSuffix (disclosureTexts platform salts claims.selectiveDisclosureClaims f)) names =
        .ok (jwtText platform header payload signature ++ disclosuresSuffix picked) ∧
      List.Forall₂ (fun name text => (name, text) ∈ namedTexts platform salts claims.selectiveDisclosureClaims f)
        names picked := by
  have hjwt : '~' ∉ jwtText platform header payload signature := not_mem_jwtText hheader.2.1
  have hne : jwtText platform header payload signature ≠ [] := by simp [jwtText]
  have htexts := @isToken_disclosureTexts N platform salts claims.selectiveDisclosureClaims f
  have havailable : collectAvailable platform (collectHashes payload)
      (disclosureTexts platform salts claims.selectiveDisclosureClaims f) [] =
      .ok (namedTexts platform salts claims.selectiveDisclosureClaims f).reverse := by
    rw [← map_snd_namedTexts]
    refine (collectAvailable_eq ?_ ⟨nodup_namedTexts, fun _ _ => not_mem_nil⟩).trans (by rw [append_nil])
    intro p hp
    obtain ⟨salt, v, hv, htext⟩ := exists_of_mem_namedTexts hp
    have hlisted := listedDigests_subset_collectHashes htarget _ (h.listed_of_mem hp)
    rw [htext] at hlisted ⊢
    exact disclosureField_disclosureText (h.plans.holds hv) hlisted
  have hlookup : ∀ name text,
      lookup name (namedTexts platform salts claims.selectiveDisclosureClaims f).reverse = some text ↔
        (name, text) ∈ namedTexts platform salts claims.selectiveDisclosureClaims f := by
    intro name text
    rw [lookup_eq_some_iff_of_nodup, mem_reverse]
    rw [map_reverse, nodup_reverse]
    exact nodup_namedTexts
  obtain ⟨picked, hpicked⟩ :=
    exists_forall₂_iff.mpr (fun name hname => (@exists_namedText_iff N platform salts _ f name).mpr (hnames name hname))
  refine ⟨picked, ?_, hpicked⟩
  have hselect : selectDisclosures (namedTexts platform salts claims.selectiveDisclosureClaims f).reverse names [] =
      .ok picked :=
    selectDisclosures_ok_iff.mpr
      ⟨⟨hnodup, fun _ _ => not_mem_nil⟩, hpicked.imp (fun name text hp => (hlookup name text).mpr hp)⟩
  have hunbound : ¬ ∃ segment ∈ disclosureTexts platform salts claims.selectiveDisclosureClaims f,
      (segment.splitOn '.').length = 3 := by
    rintro ⟨segment, hsegment, hlength⟩
    rw [splitOn_eq_singleton (htexts segment hsegment).2.2] at hlength
    cases hlength
  rw [createSdJwtPresentation, validate_compact htexts (splitOn_compact hjwt htexts) hlimits,
    segments_compact hne hjwt htexts]
  show (Exec.reject (((jwtText platform header payload signature).splitOn '.').length ≠ 3) _ >>= fun _ => _) = _
  rw [splitOn_jwtText hheader.2.2, reject_neg_bind (by simp), tail_cons, reject_neg_bind hunbound]
  show (decodeJson platform _ _ (encodeJson platform payload) >>= fun _ => _) = _
  rw [decodeJson_encodeJson hpayload, Result.ok_bind, havailable, Result.ok_bind, hselect]
  rfl

end

variable {signer : CredentialSigner} {claims : CredentialClaims platform.mapOrder N}
  {options : SdJwtPreparationOptions platform.mapOrder N} {uuid : Str} {now : Instant}
  {planned : PlannedSdJwtPreparation platform.mapOrder N} {f : Str → Option (Json N)}

theorem Plans.exists_original (h : Plans claims planned f) :
    ∃ original, originalTarget platform planned = some original ∧
      ∀ q, lookup q original = originalMember platform planned f q := by
  obtain ⟨-, original, htarget, hlookup⟩ := setProtocolMembers_shows h.shows_payload
  refine ⟨original, ?_, hlookup⟩
  rw [originalTarget, htarget]
  rfl

/-- The selectors name no protocol member, so they select the same of the original target. -/
theorem Plans.selectedClaims_original (h : Plans claims planned f) :
    selectedClaims claims.selectiveDisclosureClaims (originalMember platform planned f) =
      selectedClaims claims.selectiveDisclosureClaims f := by
  unfold selectedClaims
  congr 1
  refine filter_congr ?_
  intro name hname
  rw [originalMember, h.selector_protocol name hname]
  rfl

theorem Signed.discloses {salts : Nat → Bytes} {header : Str} {payload : Json N} {signature : Bytes}
    {original target : Members N} (h : Signed claims planned salts f target) (hheader : IsToken header)
    (hpayload : platform.mapOrder.Holds payload)
    (htarget : disclosureTarget planned.disclosureTarget payload = .ok target)
    (horiginal : ∀ q, lookup q original = originalMember platform planned f q) :
    Discloses platform salts planned.disclosureTarget (selectedClaims claims.selectiveDisclosureClaims f) original target
      (jwtText platform header payload signature ++
        disclosuresSuffix (disclosureTexts platform salts claims.selectiveDisclosureClaims f)) := by
  have hjwt : '~' ∉ jwtText platform header payload signature := not_mem_jwtText hheader.2.1
  have htexts := @isToken_disclosureTexts N platform salts claims.selectiveDisclosureClaims f
  have hdisclosures := disclosuresOf_compact hjwt htexts
  have hselector : ∀ name ∈ selectedClaims claims.selectiveDisclosureClaims f,
      protocolMember platform planned name = none ∧ name ∈ claims.selectiveDisclosureClaims ∧
        name ∉ sdJwtStructuralMarkers := by
    intro name hname
    have hmem := (mem_selectedClaims.mp hname).1
    exact ⟨h.plans.selector_protocol name hmem, hmem, h.plans.selector_unmarked name hmem⟩
  refine
    { signed := signedTarget_compact hheader htexts hpayload htarget
      hidden := ?_, count := ?_, disclosure := ?_, digests := ?_, unlisted := ?_, restored := ?_, presented := ?_ }
  · intro name hname
    obtain ⟨hprotocol, hmem, hmarker⟩ := hselector name hname
    simp only [sdJwtStructuralMarkers, mem_cons, not_or] at hmarker
    rw [h.member, signedMember, hprotocol, algorithmMember_of_ne hmarker.2.1, digestMember_of_ne hmarker.1, if_pos hmem]
    rfl
  · rw [hdisclosures]
    exact length_mapIdx
  · intro i name hname
    obtain ⟨v, hv, htext⟩ := @getElem?_disclosureTexts N platform salts _ f i name hname
    refine ⟨v, ?_, by rw [hdisclosures]; exact htext⟩
    rw [horiginal, originalMember, (hselector name (mem_of_getElem? hname)).1, hv]
    rfl
  · rw [hdisclosures]
    exact h.listedDigests_eq
  · intro hnone
    have hempty : disclosureTexts platform salts claims.selectiveDisclosureClaims f = [] := by
      rw [disclosureTexts, hnone]
      rfl
    rw [h.lookup_sd, hempty]
    simp [digestMember]
  · intro given hall q
    rw [hdisclosures] at hall
    rw [horiginal]
    exact (h.lookup_reconstruct given q).2 (fun text hp => hall text (mem_disclosureTexts hp))
  · intro names hnodup hnames hlimits
    obtain ⟨picked, hcreate, hpicked⟩ := createSdJwtPresentation_compact h hheader hpayload htarget hnodup hnames hlimits
    have hpickedTexts : ∀ text ∈ picked, IsToken text := by
      intro text htext
      obtain ⟨name, hname, hp⟩ := exists_of_mem_forall₂ hpicked.flip htext
      exact htexts text (mem_disclosureTexts hp)
    refine ⟨_, hcreate, ?_, ?_, signedTarget_compact hheader hpickedTexts hpayload htarget, ?_⟩
    · rw [issuerJwt_compact hjwt hpickedTexts, issuerJwt_compact hjwt htexts]
    · rw [disclosuresOf_compact hjwt hpickedTexts, hdisclosures]
      exact hpicked
    · intro q
      rw [disclosuresOf_compact hjwt hpickedTexts, horiginal]
      exact h.lookup_reconstruct_picked hpicked q

/-- **Selective disclosure hides and loses nothing.** Behind an accepted plan, with a signer whose public key is
    accepted, a credential is prepared, and with a valid signature it is assembled. Its signed target has no member of a
    selected name, it lists one digest for each of them in the order they are first named, the disclosures restore the
    original target, and a presentation of any choice of them restores the original target without the others. -/
theorem selective_disclosure_lossless (platform : Platform N) (signer : CredentialSigner)
    (claims : CredentialClaims platform.mapOrder N) (options : SdJwtPreparationOptions platform.mapOrder N) (uuid : Str)
    (now : Instant) (salts : Nat → Bytes) {planned : PlannedSdJwtPreparation platform.mapOrder N} {publicJwk : Str}
    (hplan : planSdJwtPreparation platform signer claims options uuid now = .ok planned)
    (hkey : platform.validateSignerPublicJwk signer = .ok publicJwk) :
    ∃ original, originalTarget platform planned = some original ∧
      (∀ m ∈ claims.claims, lookup m.1 original = some m.2) ∧
      ∃ prepared, prepareSdJwtWithOptionsAndSources platform signer claims options uuid now salts = .ok prepared ∧
        ∀ signature, prepared.validateSignature platform signature = .ok () →
          ∃ compact target, assembleSdJwt platform prepared signature = .ok (.sdJwt compact planned.credentialId) ∧
            Discloses platform salts planned.disclosureTarget
              (selectedClaims claims.selectiveDisclosureClaims (fun q => lookup q original))
              original target compact := by
  obtain ⟨f, hplans⟩ := plans_of_ok hplan
  obtain ⟨original, horiginal, hlookup⟩ := hplans.exists_original
  have hselected : selectedClaims claims.selectiveDisclosureClaims (fun q => lookup q original) =
      selectedClaims claims.selectiveDisclosureClaims f := by
    rw [← hplans.selectedClaims_original]
    exact congrArg (selectedClaims claims.selectiveDisclosureClaims) (funext hlookup)
  obtain ⟨digested, staged, payload, hstage, hassemble, hholds, target, htarget, hmember⟩ :=
    exists_signed claims.selectiveDisclosureClaims salts hplans.shows_payload
  have hsigned : Signed claims planned salts f target :=
    ⟨hplans, holds_disclosureTarget hholds htarget, hmember⟩
  have hprepare : prepareSdJwtWithOptionsAndSources platform signer claims options uuid now salts =
      .ok { signingInput := encodeJson platform (headerOf platform signer { planned with payload := staged }) ++ ['.'] ++
              encodeJson platform payload
            disclosuresSuffix := disclosuresSuffix (disclosureTexts platform salts claims.selectiveDisclosureClaims f)
            credentialId := planned.credentialId
            algorithm := signer.algorithm
            issuerPublicJwk := publicJwk } := by
    rw [prepareSdJwtWithOptionsAndSources, hplan, Result.ok_bind, hstage, Result.ok_bind]
    show assembleSdJwtPreparation platform signer { planned with payload := staged } digested = _
    rw [assembleSdJwtPreparation, hassemble, Result.ok_bind, hkey]
    rfl
  refine ⟨original, horiginal, ?_, _, hprepare, ?_⟩
  · intro m hm
    rw [hlookup, originalMember, hplans.claim_protocol m hm, hplans.claim m hm]
    rfl
  · intro signature hsignature
    refine ⟨_, target, by rw [assembleSdJwt, hsignature, Result.ok_bind], ?_⟩
    rw [hselected]
    exact hsigned.discloses (isToken_encodeJson _) hholds htarget hlookup

/-! ### A credential -/

noncomputable def samplePlatform : Platform Int where
  mapOrder := .insertion
  format := Json.integer
  ofI64 n := n
  fromSlice bytes :=
    match Function.partialInv (fun v => Str.bytes (Json.text Json.integer.text v)) bytes with
    | some v => .ok v
    | none => .error "expected value"
  fromSlice_text v _ := by
    have hinjective : Function.Injective (fun v => Str.bytes (Json.text Json.integer.text v)) :=
      fun _ _ h => Json.text_injective Json.integer (Str.bytes_injective h)
    have hread := Function.partialInv_left hinjective v
    rw [hread]
  sha256 := id
  sha256_injective := Function.injective_id
  base64Error _ := "Invalid symbol"
  formatTime t := Json.integer.text t.seconds
  validateSignerPublicJwk signer := signer.publicJwk
  verifyRemoteSignature _ _ _ _ := .ok ()
  maxSdJwtInputBytes := 2 ^ 20
  maxSdJwtDisclosures := 1024
  maxSdJwtDisclosureBytes := 2 ^ 16

def sampleSigner : CredentialSigner where
  sign _ := .ok [1]
  algorithm := .es256
  issuerId := "did:web:issuer".toList
  kidUrl := "did:web:issuer#key".toList
  publicJwk := .ok []

/-- One of the two claims is selected, twice, and so is one that is not there. -/
def sampleClaims : CredentialClaims .insertion Int where
  subjectId := none
  credentialType := "pid".toList
  claims := [("name".toList, .str "Ada".toList), ("age".toList, .num 36)]
  nodup := by decide
  held m hm := by
    rcases mem_cons.mp hm with rfl | hm
    · exact holds_str _
    · rw [mem_singleton.mp hm]
      exact holds_num _
  expirationSeconds := some 3600
  selectiveDisclosureClaims := ["name".toList, "email".toList, "name".toList]
  credentialPayloadFormat := .ietfSdJwt
  w3cContext := []
  w3cTypes := []

def sampleOptions : SdJwtPreparationOptions .insertion Int where
  credentialId := none
  typ := none
  confirmation := none
  held := nofun
  x5c := []
  includeNbf := true

/-- The credential is presented with the selected claim. -/
theorem selective_disclosure_lossless_sampleClaims :
    ∃ planned, planSdJwtPreparation samplePlatform sampleSigner sampleClaims sampleOptions [] Instant.epoch = .ok planned ∧
      ∃ original prepared compact target presentation,
        prepareSdJwtWithOptionsAndSources samplePlatform sampleSigner sampleClaims sampleOptions [] Instant.epoch
          (fun i => [UInt8.ofNat i]) = .ok prepared ∧
        assembleSdJwt samplePlatform prepared [1] = .ok (.sdJwt compact planned.credentialId) ∧
        Discloses samplePlatform (fun i => [UInt8.ofNat i]) planned.disclosureTarget
          (selectedClaims sampleClaims.selectiveDisclosureClaims (fun q => lookup q original))
          original target compact ∧
        createSdJwtPresentation samplePlatform compact ["name".toList] = .ok presentation ∧
        (disclosuresOf presentation).length = 1 := by
  refine ⟨_, rfl, ?_⟩
  obtain ⟨original, -, hclaims, prepared, hprepare, hassemble⟩ :=
    selective_disclosure_lossless samplePlatform sampleSigner sampleClaims sampleOptions [] Instant.epoch
      (fun i => [UInt8.ofNat i]) rfl rfl
  obtain ⟨compact, target, hcompact, hdiscloses⟩ := hassemble [1] rfl
  have hlimits : WithinLimits samplePlatform compact := by
    have hfits : (prepareSdJwtWithOptionsAndSources samplePlatform sampleSigner sampleClaims sampleOptions [] Instant.epoch
        (fun i => [UInt8.ofNat i]) >>= fun prepared => assembleSdJwt samplePlatform prepared [1]).toOption.all (fun
          | .sdJwt compact _ => decide (compact.len ≤ 2 ^ 20 ∧ (disclosuresOf compact).length ≤ 1024 ∧
              ∀ text ∈ disclosuresOf compact, text.len ≤ 2 ^ 16)
          | _ => false) = true := by decide +kernel
    rw [hprepare, Result.ok_bind, hcompact] at hfits
    obtain ⟨hinput, hcount, hdisclosure⟩ := of_decide_eq_true hfits
    exact ⟨hinput, hcount, hdisclosure⟩
  have hselected : "name".toList ∈ selectedClaims sampleClaims.selectiveDisclosureClaims (fun q => lookup q original) :=
    mem_selectedClaims.mpr ⟨mem_cons_self, by rw [hclaims _ mem_cons_self]; rfl⟩
  obtain ⟨presentation, hcreate, -, hpicked, -⟩ :=
    hdiscloses.presented ["name".toList] (nodup_singleton _) (fun _ h => mem_singleton.mp h ▸ hselected) hlimits
  exact ⟨original, prepared, compact, target, presentation, hprepare, hcompact, hdiscloses, hcreate,
    hpicked.length_eq.symm⟩

end

end SdJwt
end MartyCore.Oid4vci
