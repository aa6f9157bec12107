import MartyCore.Oid4vci.SdJwt

/-!
# `Oid4vci.Disclosure` — what an issuer signs

A payload is followed through the preparation by what its disclosure target says under each name (`Shows`): planning
gives it the claims, the stages take the selected claims out (`planSdJwtDisclosuresFrom_spec`), and the assembly adds
the digests and the protocol's members. No stage fails behind an accepted plan (`exists_signed`), and none depends on
the order of the items of the one before (`staging_independent_of_schedule`).
-/

namespace MartyCore.Oid4vci
namespace SdJwt

open Json.MapOrder Result SortedMap
open List hiding lookup

variable {N : Type} {order : Json.MapOrder}

/-! ## The disclosure target -/

/-- The payload is one the JSON library holds, and its disclosure target has these members. -/
def Shows (order : Json.MapOrder) (t : SdJwtDisclosureTarget) (payload : Json N) (f : Str → Option (Json N)) : Prop :=
  order.Holds payload ∧ ∃ target, disclosureTarget t payload = .ok target ∧ ∀ q, lookup q target = f q

variable {target : Members N} {payload : Json N}

theorem disclosureTarget_topLevel_ok_iff :
    disclosureTarget .topLevel payload = .ok target ↔ payload = .obj target := by
  cases payload with
  | _ => simp [disclosureTarget]

theorem disclosureTarget_subject_ok_iff :
    disclosureTarget .credentialSubject payload = .ok target ↔
      ∃ members, payload = .obj members ∧ lookup "credentialSubject".toList members = some (.obj target) := by
  unfold disclosureTarget
  generalize "credentialSubject".toList = key
  cases payload with
  | obj members =>
    simp only [Json.get?, Json.obj.injEq, exists_eq_left']
    rcases lookup key members with _ | v
    · simp
    · cases v <;> simp
  | _ => simp [Json.get?]

theorem holds_disclosureTarget {t : SdJwtDisclosureTarget}
    (hp : order.Holds payload) (h : disclosureTarget t payload = .ok target) : order.Holds (.obj target) := by
  cases t with
  | topLevel => exact disclosureTarget_topLevel_ok_iff.mp h ▸ hp
  | credentialSubject =>
    obtain ⟨members, rfl, hlookup⟩ := disclosureTarget_subject_ok_iff.mp h
    exact hp.of_lookup hlookup

variable {t : SdJwtDisclosureTarget} {payload : Json N} {f : Str → Option (Json N)}

/-- The target written back. -/
theorem Shows.writeTarget (h : Shows order t payload f) (htarget : order.Holds (.obj target)) :
    Shows order t (writeTarget t target payload) (fun q => lookup q target) := by
  obtain ⟨hp, old, hold, -⟩ := h
  cases t with
  | topLevel => exact ⟨htarget, target, rfl, fun _ => rfl⟩
  | credentialSubject =>
    obtain ⟨members, rfl, hlookup⟩ := disclosureTarget_subject_ok_iff.mp hold
    refine ⟨holds_modify hp htarget, target, ?_, fun _ => rfl⟩
    refine disclosureTarget_subject_ok_iff.mpr ⟨_, rfl, ?_⟩
    refine (Json.lookup_modify _ (fun _ => Json.obj target) _ _).trans ?_
    rw [if_pos rfl, hlookup]
    rfl

/-- A member set at the top level is one of the target only if that is the target. -/
theorem Shows.setMember (h : Shows order t payload f) (key : String) {v : Json N} (hv : order.Holds v)
    (hkey : "credentialSubject".toList ≠ key.toList) :
    Shows order t (setMember order key v payload)
      (fun q => (if t = .topLevel ∧ q = key.toList then some v else none).or (f q)) := by
  obtain ⟨hp, old, hold, hf⟩ := h
  cases t with
  | topLevel =>
    cases disclosureTarget_topLevel_ok_iff.mp hold
    refine ⟨holds_insert hp hv, _, rfl, ?_⟩
    intro q
    rw [lookup_insert, hf q]
    by_cases hq : q = key.toList
    · simp [hq]
    · simp [hq]
  | credentialSubject =>
    obtain ⟨members, rfl, hlookup⟩ := disclosureTarget_subject_ok_iff.mp hold
    refine ⟨holds_insert hp hv, old, ?_, by simpa using hf⟩
    refine disclosureTarget_subject_ok_iff.mpr ⟨_, rfl, ?_⟩
    rw [lookup_insert, if_neg hkey, hlookup]

theorem Shows.congr {g : Str → Option (Json N)} (h : Shows order t payload f) (hfg : ∀ q, f q = g q) :
    Shows order t payload g := by
  obtain ⟨hp, target, htarget, hf⟩ := h
  exact ⟨hp, target, htarget, fun q => (hf q).trans (hfg q)⟩

variable {members : Members N}

theorem Shows.insertOption (h : Shows order t (.obj members) f) (key : String)
    {value : Option (Json N)} (hvalue : ∀ v ∈ value, order.Holds v) (hkey : "credentialSubject".toList ≠ key.toList) :
    Shows order t (.obj (insertOption order key value members))
      (fun q => (if t = .topLevel ∧ q = key.toList then value else none).or (f q)) := by
  cases value with
  | none => exact h.congr (by simp)
  | some v => exact h.setMember key (hvalue v rfl) hkey

theorem holds_str (s : Str) : order.Holds (.str s : Json N) := by
  cases order with
  | sorted | insertion => exact .str s

theorem holds_num (n : N) : order.Holds (.num n) := by
  cases order with
  | sorted | insertion => exact .num n

theorem holds_arr {values : List (Json N)} (h : ∀ v ∈ values, order.Holds v) : order.Holds (.arr values) := by
  cases order with
  | sorted | insertion => exact .arr h

theorem holds_texts (texts : List Str) : order.Holds (.arr (texts.map .str) : Json N) := by
  refine holds_arr ?_
  intro v hv
  obtain ⟨s, -, rfl⟩ := mem_map.mp hv
  exact holds_str s

theorem holds_map_str {α : Type} (s : α → Str) (x : Option α) :
    ∀ v ∈ x.map (fun a => (Json.str (s a) : Json N)), order.Holds v := by
  intro v hv
  obtain ⟨a, -, rfl⟩ := Option.mem_map.mp hv
  exact holds_str (s a)

theorem holds_map_num {α : Type} (n : α → N) (x : Option α) : ∀ v ∈ x.map (fun a => Json.num (n a)), order.Holds v := by
  intro v hv
  obtain ⟨a, -, rfl⟩ := Option.mem_map.mp hv
  exact holds_num (n a)

/-! ## The plan -/

/-- The claims hide what was there before them. -/
theorem insertClaims_spec {claims : Members N} (hnodup : (claims.map Prod.fst).Nodup)
    (hheld : ∀ m ∈ claims, order.Holds m.2) (hmembers : order.Holds (.obj members)) :
    order.Holds (.obj (insertClaims order claims members)) ∧
      ∀ q, lookup q (insertClaims order claims members) = (lookup q claims).or (lookup q members) := by
  induction claims generalizing members with
  | nil => exact ⟨hmembers, fun q => rfl⟩
  | cons m rest ih =>
    obtain ⟨name, v⟩ := m
    obtain ⟨hfresh, hrest⟩ := nodup_cons.mp hnodup
    rw [forall_mem_cons] at hheld
    obtain ⟨hholds, hlookup⟩ := ih hrest hheld.2 (holds_insert hmembers hheld.1)
    refine ⟨hholds, ?_⟩
    intro q
    show lookup q (insertClaims order rest (order.insert name v members)) = _
    rw [hlookup q, lookup_insert]
    by_cases hq : name = q
    · subst hq
      rw [Json.lookup_eq_none hfresh]
      simp [lookup]
    · simp [lookup, hq, Ne.symm hq]

theorem not_mem_markers_of_membersContainMarker (h : membersContainMarker members = false) :
    ∀ name ∈ members.map Prod.fst, name ∉ sdJwtStructuralMarkers := by
  induction members with
  | nil => simp
  | cons m rest ih =>
    simp only [membersContainMarker, Bool.or_eq_false_iff, decide_eq_false_iff_not] at h
    rw [map_cons, forall_mem_cons]
    exact ⟨h.1.1, ih h.2⟩

section

variable {platform : Platform N} {signer : CredentialSigner} {claims : CredentialClaims platform.mapOrder N}
  {options : SdJwtPreparationOptions platform.mapOrder N} {uuid : Str} {now : Instant}
  {planned : PlannedSdJwtPreparation platform.mapOrder N}

/-- The protocol's members of the disclosure target. -/
def protocolMember (platform : Platform N) (planned : PlannedSdJwtPreparation platform.mapOrder N) (q : Str) :
    Option (Json N) :=
  (if planned.disclosureTarget = .topLevel ∧ q = "cnf".toList then planned.options.confirmation else none).or
    (if planned.disclosureTarget = .topLevel ∧ q = "nbf".toList ∧ planned.options.includeNbf = true then
      some (.num (platform.ofI64 planned.issuedAt.seconds)) else none)

/-- What an accepted plan guarantees of the claims and of the selectors. -/
structure Plans (claims : CredentialClaims platform.mapOrder N) (planned : PlannedSdJwtPreparation platform.mapOrder N)
    (f : Str → Option (Json N)) : Prop where
  shows_payload : Shows platform.mapOrder planned.disclosureTarget planned.payload f
  claim : ∀ m ∈ claims.claims, f m.1 = some m.2
  claim_protocol : ∀ m ∈ claims.claims, protocolMember platform planned m.1 = none
  unmarked : ∀ q ∈ sdJwtStructuralMarkers, f q = none
  selector_unmarked : ∀ name ∈ claims.selectiveDisclosureClaims, name ∉ sdJwtStructuralMarkers
  selector_protocol : ∀ name ∈ claims.selectiveDisclosureClaims, protocolMember platform planned name = none

theorem validateSdJwtManagedClaims_ok_iff {includeNbf includeConfirmation : Bool} {u : Unit} :
    validateSdJwtManagedClaims claims includeNbf includeConfirmation = .ok u ↔
      collides claims includeNbf includeConfirmation = false ∧
        (claims.credentialPayloadFormat = .ietfSdJwt →
          ∀ name ∈ claims.selectiveDisclosureClaims, name ∉ ietfNonDisclosableClaims) := by
  rw [validateSdJwtManagedClaims, reject_bind_ok_iff, reject_ok_iff]
  simp

theorem validateSdJwtStructuralMarkers_ok {confirmation : Option (Json N)} {u : Unit}
    (hformat : claims.credentialPayloadFormat ≠ .w3cVcdmV2JwtVc)
    (h : validateSdJwtStructuralMarkers claims confirmation = .ok u) :
    (∀ name ∈ claims.claims.map Prod.fst, name ∉ sdJwtStructuralMarkers) ∧
      ∀ name ∈ claims.selectiveDisclosureClaims, name ∉ sdJwtStructuralMarkers := by
  rw [validateSdJwtStructuralMarkers, if_neg hformat, reject_ok_iff] at h
  simp only [not_or, not_exists, not_and, Bool.not_eq_true] at h
  exact ⟨not_mem_markers_of_membersContainMarker h.1, h.2.1⟩

/-- A payload has the claims, and what else it has is no marker. -/
def ShowsClaims (claims : CredentialClaims platform.mapOrder N) (target : SdJwtDisclosureTarget) (payload : Json N) :
    Prop :=
  ∃ f : Str → Option (Json N),
    Shows platform.mapOrder target payload (fun q => (lookup q claims.claims).or (f q)) ∧
    ∀ q ∈ sdJwtStructuralMarkers, f q = none

variable {credentialId vct : Str} {payload : Json N}

theorem ietfPayload_shows (h : ietfPayload platform signer claims credentialId now vct = .ok payload) :
    ShowsClaims claims .topLevel payload := by
  rw [ietfPayload, bind_ok_iff] at h
  obtain ⟨expiration, -, h⟩ := h
  cases h
  have hfixed : ((ietfMembers platform signer credentialId now vct).map Prod.fst).Nodup := by
    show (["iss".toList, "iat".toList, "jti".toList, "vct".toList] : List Str).Nodup
    decide
  have hshows : Shows platform.mapOrder .topLevel
      (.obj (platform.mapOrder.arrange (ietfMembers platform signer credentialId now vct)))
      (fun q => lookup q (ietfMembers platform signer credentialId now vct)) := by
    refine ⟨platform.mapOrder.holds_arrange hfixed ?_, _, rfl, platform.mapOrder.lookup_arrange hfixed⟩
    simp [ietfMembers, holds_str, holds_num]
  have hsub := hshows.insertOption "sub" (holds_map_str (fun s => s) claims.subjectId) (by decide)
  have hexp := hsub.insertOption "exp" (holds_map_num platform.ofI64 expiration) (by decide)
  obtain ⟨hholds, target, htarget, hlookup⟩ := hexp
  cases disclosureTarget_topLevel_ok_iff.mp htarget
  obtain ⟨hall, hclaims⟩ := insertClaims_spec claims.nodup claims.held hholds
  refine ⟨_, ⟨hall, _, rfl, fun q => (hclaims q).trans (by rw [hlookup q])⟩, ?_⟩
  intro q hq
  simp only [sdJwtStructuralMarkers, mem_cons, not_mem_nil, or_false] at hq
  rcases hq with rfl | rfl | rfl <;> simp [ietfMembers, lookup]

theorem w3cPayload_shows (h : w3cPayload platform signer claims credentialId now vct = .ok payload) :
    ShowsClaims claims .credentialSubject payload := by
  rw [w3cPayload, bind_ok_iff] at h
  obtain ⟨expiration, -, h⟩ := h
  cases h
  have hempty : Shows platform.mapOrder .topLevel (.obj [] : Json N) (fun _ => none) :=
    ⟨platform.mapOrder.holds_obj empty (fun _ he => nomatch he), [], rfl, fun _ => rfl⟩
  obtain ⟨hid, target, htarget, hlookup⟩ := hempty.insertOption "id" (holds_map_str (fun s => s) claims.subjectId) (by decide)
  cases disclosureTarget_topLevel_ok_iff.mp htarget
  obtain ⟨hsubject, hclaims⟩ := insertClaims_spec claims.nodup claims.held hid
  have hshows : Shows platform.mapOrder .credentialSubject
      (.obj (platform.mapOrder.arrange (w3cMembers platform signer claims credentialId now vct)))
      (fun q => lookup q (credentialSubject platform claims)) := by
    have hnodup : ((w3cMembers platform signer claims credentialId now vct).map Prod.fst).Nodup := by
      show (["iss".toList, "iat".toList, "jti".toList, "vct".toList, "@context".toList, "type".toList, "issuer".toList,
        "validFrom".toList, "credentialSubject".toList] : List Str).Nodup
      decide
    refine ⟨platform.mapOrder.holds_arrange hnodup ?_, _, ?_, fun _ => rfl⟩
    · simp only [w3cMembers, forall_mem_cons]
      exact ⟨holds_str _, holds_num _, holds_str _, holds_str _, holds_texts _, holds_texts _, holds_str _, holds_str _,
        hsubject, fun _ hm => nomatch hm⟩
    · refine disclosureTarget_subject_ok_iff.mpr ⟨_, rfl, ?_⟩
      rw [platform.mapOrder.lookup_arrange hnodup, lookup_eq_some_iff_of_nodup hnodup]
      simp [w3cMembers]
  have hsub := hshows.insertOption "sub" (holds_map_str (fun s => s) claims.subjectId) (by decide)
  have hexp := hsub.insertOption "exp" (holds_map_num (fun e => platform.ofI64 e.1) expiration) (by decide)
  have huntil := hexp.insertOption "validUntil" (holds_map_str (fun e => platform.formatTime e.2) expiration)
    (by decide)
  refine ⟨_, huntil.congr (fun q => (hclaims q).trans (by rw [hlookup q])), ?_⟩
  intro q hq
  simp only [sdJwtStructuralMarkers, mem_cons, not_mem_nil, or_false] at hq
  rcases hq with rfl | rfl | rfl <;> simp

/-- Where the target is the top level, the claims have no name of a member that is set behind them. -/
theorem protocolMember_eq_none_of_claim (hplanned : planned.options = options)
    (hformat : planned.disclosureTarget = .topLevel → claims.credentialPayloadFormat = .ietfSdJwt)
    (hcollides : collides claims options.includeNbf options.confirmation.isSome = false) {name : Str}
    (hname : name ∈ claims.claims.map Prod.fst) : protocolMember platform planned name = none := by
  unfold protocolMember
  by_cases htarget : planned.disclosureTarget = .topLevel
  · simp only [collides, hformat htarget, Bool.or_eq_false_iff, Bool.and_eq_false_iff, CredentialClaims.has,
      decide_eq_false_iff_not, ← hplanned] at hcollides
    obtain ⟨⟨-, hnbf⟩, hcnf⟩ := hcollides
    rw [Option.or_eq_none_iff]
    constructor
    · split
      · rename_i hq
        rw [hq.2] at hname
        rcases hcnf with hcnf | hcnf
        · simpa using hcnf
        · exact absurd hname hcnf
      · rfl
    · rw [if_neg]
      rintro ⟨-, rfl, hinclude⟩
      rcases hnbf with hnbf | hnbf
      · rw [hinclude] at hnbf
        cases hnbf
      · exact absurd hname hnbf
  · simp [htarget]

theorem protocolMember_eq_none_of_selector {name : Str}
    (hname : planned.disclosureTarget = .topLevel → name ∉ ietfNonDisclosableClaims) :
    protocolMember platform planned name = none := by
  unfold protocolMember
  by_cases htarget : planned.disclosureTarget = .topLevel
  · have hnot := hname htarget
    simp only [ietfNonDisclosableClaims, mem_cons, not_or] at hnot
    rw [if_neg (fun h => hnot.2.2.2.1 h.2), if_neg (fun h => hnot.2.1 h.2.1)]
    rfl
  · simp [htarget]

/-- **An accepted plan shows every claim, and nothing of it collides with the members that are set later.** -/
theorem plans_of_ok (h : planSdJwtPreparation platform signer claims options uuid now = .ok planned) :
    ∃ f, Plans claims planned f := by
  simp only [planSdJwtPreparation, bind_ok_iff] at h
  obtain ⟨_, hmanaged, _, hmarkers, _, -, plan, hplan, h⟩ := h
  cases h
  obtain ⟨hcollides, hselectors⟩ := validateSdJwtManagedClaims_ok_iff.mp hmanaged
  have hpayload : claims.credentialPayloadFormat ≠ .w3cVcdmV2JwtVc ∧
      (plan.2 = .topLevel → claims.credentialPayloadFormat = .ietfSdJwt) ∧ ShowsClaims claims plan.2 plan.1 := by
    rw [planPayload] at hplan
    cases hformat : claims.credentialPayloadFormat with
    | ietfSdJwt =>
      rw [hformat] at hplan
      obtain ⟨payload, hok, rfl⟩ := Result.map_ok_iff.mp hplan
      exact ⟨nofun, fun _ => rfl, ietfPayload_shows hok⟩
    | w3cVcdmV2SdJwt =>
      rw [hformat] at hplan
      obtain ⟨payload, hok, rfl⟩ := Result.map_ok_iff.mp hplan
      exact ⟨nofun, nofun, w3cPayload_shows hok⟩
    | w3cVcdmV2JwtVc =>
      rw [hformat] at hplan
      cases hplan
  obtain ⟨hsupported, htop, f, hshows, hf⟩ := hpayload
  obtain ⟨hnames, hunmarked⟩ := validateSdJwtStructuralMarkers_ok hsupported hmarkers
  refine ⟨_, hshows, ?_, ?_, ?_, hunmarked, ?_⟩
  · intro m hm
    rw [(lookup_eq_some_iff_of_nodup claims.nodup).mpr hm]
    rfl
  · intro m hm
    exact protocolMember_eq_none_of_claim rfl htop hcollides (mem_map_of_mem hm)
  · intro q hq
    rw [Json.lookup_eq_none (fun hmem => hnames q hmem hq), hf q hq]
    rfl
  · intro name hname
    exact protocolMember_eq_none_of_selector (fun htarget => hselectors (htop htarget) name hname)

end

/-! ## The stages -/

/-- The claims that are disclosed selectively: the selectors that are there, each where it is first named. -/
def selectedClaims (sdClaims : List Str) (f : Str → Option (Json N)) : List Str :=
  (sdClaims.filter (fun name => (f name).isSome)).eraseDups

theorem mem_selectedClaims {sdClaims : List Str} {name : Str} :
    name ∈ selectedClaims sdClaims f ↔ name ∈ sdClaims ∧ (f name).isSome = true := by
  rw [selectedClaims, mem_eraseDups, mem_filter]

/-- Name, value and salt of a planned disclosure. -/
def PlannedSdJwtDisclosure.content (planned : PlannedSdJwtDisclosure N) : Str × Json N × Bytes :=
  (planned.claimName, planned.claimValue, planned.saltBytes)

/-- A selected claim is not selected again. -/
theorem selectedClaims_cons_some {name : Str} {rest : List Str} {v : Json N} (h : f name = some v) :
    selectedClaims (name :: rest) f = name :: selectedClaims rest (fun q => if q = name then none else f q) := by
  rw [selectedClaims, filter_cons_of_pos (by simp [h]), eraseDups_cons, filter_filter, selectedClaims]
  congr 2
  refine filter_congr ?_
  intro q _
  by_cases hq : q = name
  · simp [hq]
  · simp [hq]

/-- **The loop takes the selected claims out of the map, with one salt each, in the order of their first selectors.** -/
theorem planSdJwtDisclosuresFrom_spec {salts : Nat → Bytes} {sdClaims : List Str} {ordinal used : Nat}
    (htarget : order.Holds (.obj target)) (hf : ∀ q, lookup q target = f q) :
    let result := planSdJwtDisclosuresFrom order salts ordinal used sdClaims target
    order.Holds (.obj result.2) ∧
      (∀ q, lookup q result.2 = if q ∈ sdClaims then none else f q) ∧
      result.1.items.map PlannedSdJwtDisclosure.content =
        (selectedClaims sdClaims f).mapIdx (fun i name => (name, (f name).getD .null, salts (used + i))) := by
  induction sdClaims generalizing ordinal used target f with
  | nil => exact ⟨htarget, by simpa [planSdJwtDisclosuresFrom] using hf, rfl⟩
  | cons name rest ih =>
    rw [planSdJwtDisclosuresFrom, planSdJwtDisclosure, hf name]
    rcases Option.eq_none_or_eq_some (f name) with hnone | ⟨v, hv⟩
    · rw [hnone]
      obtain ⟨hholds, hlookup, hitems⟩ := @ih target f (ordinal + 1) used htarget hf
      refine ⟨hholds, ?_, ?_⟩
      · intro q
        rw [hlookup q]
        by_cases hq : q = name
        · simp [hq, hnone]
        · simp [hq]
      · rw [selectedClaims, filter_cons_of_neg (by simp [hnone])]
        exact hitems
    · rw [hv]
      obtain ⟨hholds, hlookup, hitems⟩ :=
        @ih (order.remove name target) (fun q => if q = name then none else f q) (ordinal + 1) (used + 1)
          (holds_remove htarget)
          (fun q => (lookup_remove htarget q).trans (by rw [hf q]))
      refine ⟨hholds, ?_, ?_⟩
      · intro q
        rw [hlookup q]
        by_cases hq : q = name
        · simp [hq]
        · simp [hq]
      · rw [selectedClaims_cons_some hv, mapIdx_cons, hv]
        refine congrArg₂ List.cons rfl (hitems.trans ?_)
        refine mapIdx_eq_mapIdx_iff.mpr ?_
        intro i hi
        have hthere := (mem_selectedClaims.mp (getElem_mem hi)).2
        split at hthere
        · cases hthere
        · rename_i hne
          rw [if_neg hne, Nat.add_right_comm, Nat.add_assoc]

/-- The ordinals are those of the selectors that were found. -/
theorem planSdJwtDisclosuresFrom_ordinals {salts : Nat → Bytes} {sdClaims : List Str} {ordinal used : Nat} :
    let stage := (planSdJwtDisclosuresFrom order salts ordinal used sdClaims target).1
    stage.expectedSourceOrdinals = stage.items.map PlannedSdJwtDisclosure.sourceOrdinal ∧
      stage.expectedSourceOrdinals.Pairwise (· < ·) ∧ ∀ i ∈ stage.expectedSourceOrdinals, ordinal ≤ i := by
  induction sdClaims generalizing ordinal used target with
  | nil => exact ⟨rfl, .nil, nofun⟩
  | cons name rest ih =>
    rw [planSdJwtDisclosuresFrom, planSdJwtDisclosure]
    cases lookup name target with
    | none =>
      obtain ⟨hordinals, hincrease, hbound⟩ := @ih target (ordinal + 1) used
      exact ⟨hordinals, hincrease, fun i hi => Nat.le_of_succ_le (hbound i hi)⟩
    | some v =>
      obtain ⟨hordinals, hincrease, hbound⟩ := @ih (order.remove name target) (ordinal + 1) (used + 1)
      refine ⟨congrArg (List.cons ordinal) hordinals, .cons (fun i hi => hbound i hi) hincrease, ?_⟩
      intro i hi
      rcases mem_cons.mp hi with rfl | hi
      · exact Nat.le_refl _
      · exact Nat.le_of_succ_le (hbound i hi)

theorem windowsIncrease_iff {ordinals : List Nat} : windowsIncrease ordinals = true ↔ ordinals.Pairwise (· < ·) := by
  rw [← isChain_iff_pairwise]
  fun_induction windowsIncrease ordinals with
  | case1 a b rest ih => simp [ih]
  | case2 ordinals hshort =>
    rcases ordinals with _ | ⟨a, _ | ⟨b, rest⟩⟩
    · simp
    · simp
    · exact absurd rfl (hshort a b rest)

/-- **What is restored**: the items in the order of the expected identities, if those are theirs. -/
theorem restoreSdJwtDisclosures_ok_iff {expected : List Nat} {items restored : List DigestedSdJwtDisclosure} :
    restoreSdJwtDisclosures ⟨expected, items⟩ = .ok restored ↔
      expected.Pairwise (· < ·) ∧ restored.Perm items ∧
      restored.map DigestedSdJwtDisclosure.sourceOrdinal = expected := by
  have hzip : ∀ (ordinals : List Nat) (l : List DigestedSdJwtDisclosure), ordinals.length = l.length →
      ((ordinals.zip l).any (fun p => decide (p.1 ≠ p.2.sourceOrdinal)) = true ↔
        l.map DigestedSdJwtDisclosure.sourceOrdinal ≠ ordinals) := by
    intro ordinals l hlength
    induction l generalizing ordinals with
    | nil => simp_all
    | cons item rest ih =>
      cases ordinals with
      | nil => cases hlength
      | cons ordinal ordinals =>
        simp only [zip_cons_cons, any_cons, Bool.or_eq_true, ih ordinals (Nat.succ.inj hlength),
          map_cons, decide_eq_true_eq, ne_eq, List.cons.injEq, not_and_or, eq_comm (a := ordinal)]
  have hsorted := mergeSort_perm items (fun a b => decide (a.sourceOrdinal ≤ b.sourceOrdinal))
  simp only [restoreSdJwtDisclosures, reject_bind_ok_iff, not_not, Bool.not_eq_false, windowsIncrease_iff]
  constructor
  · rintro ⟨hlength, hincrease, hsame, h⟩
    rw [hzip _ _ (hlength.trans hsorted.length_eq.symm), not_not] at hsame
    cases h
    exact ⟨hincrease, hsorted, hsame⟩
  · rintro ⟨hincrease, hperm, rfl⟩
    have heq : items.mergeSort (fun a b => decide (a.sourceOrdinal ≤ b.sourceOrdinal)) = restored := by
      refine (hsorted.trans hperm.symm).eq_of_pairwise ?_
        (pairwise_mergeSort (by simp; omega) (by simp; omega) items)
        ((pairwise_map.mp hincrease).imp (fun hab => decide_eq_true hab.le))
      intro a b ha hb hab hba
      have hkey := Nat.le_antisymm (of_decide_eq_true hab) (of_decide_eq_true hba)
      exact inj_on_of_nodup_map (hincrease.imp Nat.ne_of_lt) (hperm.mem_iff.mpr (hsorted.mem_iff.mp ha)) hb hkey
    rw [heq]
    exact ⟨by simpa using hperm.length_eq, hincrease, by rw [hzip _ _ (by simp)]; exact fun h => h rfl, rfl⟩

/-- **The order in which the items are digested does not matter**: their order in the plan is restored, the disclosures
    and their digests are put out in it, and items that are not those of the plan, each once, are refused. -/
theorem staging_independent_of_schedule (platform : Platform N) (salts : Nat → Bytes) (sdClaims : List Str)
    (target : Members N) :
    let digested := (prepareSdJwtDisclosures platform salts sdClaims target).1
    restoreSdJwtDisclosures digested = .ok digested.items ∧
    ∀ (order : Json.MapOrder) (target : Members N) (items : List DigestedSdJwtDisclosure),
      (items.Perm digested.items → assembleSdJwtDisclosures order target { digested with items := items } =
        .ok (digested.items.map DigestedSdJwtDisclosure.disclosure,
          if digested.items = [] then target
          else order.insert "_sd".toList (.arr (digested.items.map (fun item => .str item.digestB64))) target)) ∧
      (¬(items.map DigestedSdJwtDisclosure.sourceOrdinal).Perm digested.expectedSourceOrdinals →
        ∃ error, assembleSdJwtDisclosures order target { digested with items := items } = .error error) := by
  intro digested
  obtain ⟨hordinals, hincrease, -⟩ := @planSdJwtDisclosuresFrom_ordinals N platform.mapOrder target salts sdClaims 0 0
  have hplan : digested.items.map DigestedSdJwtDisclosure.sourceOrdinal = digested.expectedSourceOrdinals := by
    refine Eq.trans ?_ hordinals.symm
    simp [digested, prepareSdJwtDisclosures, planSdJwtDisclosures, digestSdJwtDisclosures, encodeSdJwtDisclosures,
      digestSdJwtDisclosure, encodeSdJwtDisclosure, Function.comp_def]
  have hrestore : ∀ items : List DigestedSdJwtDisclosure, items.Perm digested.items →
      restoreSdJwtDisclosures { digested with items := items } = .ok digested.items :=
    fun items hperm => restoreSdJwtDisclosures_ok_iff.mpr ⟨hincrease, hperm.symm, hplan⟩
  refine ⟨hrestore _ (.refl _), fun order target items => ⟨?_, ?_⟩⟩
  · intro hperm
    rw [assembleSdJwtDisclosures, hrestore items hperm, ok_bind]
    simp
  · intro hother
    cases hrun : restoreSdJwtDisclosures { digested with items := items } with
    | error error =>
      refine ⟨error, ?_⟩
      rw [assembleSdJwtDisclosures, hrun]
      rfl
    | ok restored =>
      obtain ⟨-, hperm, hmap⟩ := restoreSdJwtDisclosures_ok_iff.mp hrun
      exact absurd (hmap ▸ (hperm.map _).symm) hother

section

variable {platform : Platform N} {planned : PlannedSdJwtPreparation platform.mapOrder N}

/-- The disclosures of the selected claims, with one salt each. -/
def disclosureTexts (platform : Platform N) (salts : Nat → Bytes) (sdClaims : List Str) (f : Str → Option (Json N)) :
    List Str :=
  (selectedClaims sdClaims f).mapIdx (fun i name => disclosureText platform (salts i) name ((f name).getD .null))

/-- The list of the digests. -/
def digestMember (platform : Platform N) (texts : List Str) (q : Str) : Option (Json N) :=
  if q = "_sd".toList ∧ texts ≠ [] then some (.arr (texts.map (fun text => .str (digestText platform text)))) else none

/-- The name of the hash function, where the target is the top level. -/
def algorithmMember (t : SdJwtDisclosureTarget) (texts : List Str) (q : Str) : Option (Json N) :=
  if t = .topLevel ∧ q = "_sd_alg".toList ∧ texts ≠ [] then some (.str "sha-256".toList) else none

/-- The members of the signed disclosure target. -/
def signedMember (platform : Platform N) (planned : PlannedSdJwtPreparation platform.mapOrder N) (sdClaims texts : List Str)
    (f : Str → Option (Json N)) (q : Str) : Option (Json N) :=
  (protocolMember platform planned q).or ((algorithmMember planned.disclosureTarget texts q).or
    ((digestMember platform texts q).or (if q ∈ sdClaims then none else f q)))

theorem setProtocolMembers_shows (h : Shows platform.mapOrder planned.disclosureTarget payload f) :
    Shows platform.mapOrder planned.disclosureTarget (setProtocolMembers platform planned payload)
      (fun q => (protocolMember platform planned q).or (f q)) := by
  have hnbf : Shows platform.mapOrder planned.disclosureTarget
      (if planned.options.includeNbf then
        setMember platform.mapOrder "nbf" (.num (platform.ofI64 planned.issuedAt.seconds)) payload
      else payload)
      (fun q => (if planned.disclosureTarget = .topLevel ∧ q = "nbf".toList ∧ planned.options.includeNbf = true then
        some (.num (platform.ofI64 planned.issuedAt.seconds)) else none).or (f q)) := by
    cases hinclude : planned.options.includeNbf with
    | false => exact h.congr (by simp)
    | true => exact (h.setMember "nbf" (holds_num _) (by decide)).congr (by simp)
  unfold setProtocolMembers
  cases hcnf : planned.options.confirmation with
  | none =>
    refine hnbf.congr ?_
    intro q
    simp [protocolMember, hcnf]
  | some confirmation =>
    refine (hnbf.setMember "cnf" (planned.options.held confirmation hcnf) (by decide)).congr ?_
    intro q
    rw [protocolMember, hcnf, Option.or_assoc]

/-- The items of the last stage are in the order of their selectors, and hold the disclosures and their digests. -/
structure Digests (platform : Platform N) (texts : List Str) (items : List DigestedSdJwtDisclosure) : Prop where
  increasing : (items.map DigestedSdJwtDisclosure.sourceOrdinal).Pairwise (· < ·)
  disclosure : items.map DigestedSdJwtDisclosure.disclosure = texts
  digest : items.map DigestedSdJwtDisclosure.digestB64 = texts.map (digestText platform)

variable {f : Str → Option (Json N)}

theorem prepareSdJwtDisclosures_spec {sdClaims : List Str} (salts : Nat → Bytes)
    (htarget : platform.mapOrder.Holds (.obj target)) (hf : ∀ q, lookup q target = f q) :
    ∃ items rest,
      prepareSdJwtDisclosures platform salts sdClaims target =
        (⟨items.map DigestedSdJwtDisclosure.sourceOrdinal, items⟩, rest) ∧
      platform.mapOrder.Holds (.obj rest) ∧
      (∀ q, lookup q rest = if q ∈ sdClaims then none else f q) ∧
      Digests platform (disclosureTexts platform salts sdClaims f) items := by
  have hspec := @planSdJwtDisclosuresFrom_spec N platform.mapOrder target f salts sdClaims 0 0 htarget hf
  have hordinals := @planSdJwtDisclosuresFrom_ordinals N platform.mapOrder target salts sdClaims 0 0
  unfold prepareSdJwtDisclosures planSdJwtDisclosures
  generalize planSdJwtDisclosuresFrom platform.mapOrder salts 0 0 sdClaims target = result at hspec hordinals ⊢
  obtain ⟨⟨expected, planned⟩, rest⟩ := result
  simp only at hspec hordinals
  obtain ⟨hholds, hlookup, hcontent⟩ := hspec
  obtain ⟨rfl, hincrease, -⟩ := hordinals
  have htexts : planned.map (fun p => disclosureText platform p.saltBytes p.claimName p.claimValue) =
      disclosureTexts platform salts sdClaims f := by
    have hmap := congrArg (List.map (fun c => disclosureText platform c.2.2 c.1 c.2.1)) hcontent
    rw [map_map, map_mapIdx] at hmap
    simpa [disclosureTexts, Function.comp_def, PlannedSdJwtDisclosure.content] using hmap
  refine ⟨planned.map (fun p => digestSdJwtDisclosure platform (encodeSdJwtDisclosure platform p)), rest, ?_, hholds,
    hlookup, ?_, ?_, ?_⟩
  · simp [digestSdJwtDisclosures, encodeSdJwtDisclosures, digestSdJwtDisclosure, encodeSdJwtDisclosure, Function.comp_def]
  · rw [map_map]
    exact hincrease
  · rw [map_map, ← htexts]
    rfl
  · rw [map_map, ← htexts, map_map]
    rfl

theorem stageDisclosures_spec (sdClaims : List Str) (salts : Nat → Bytes)
    (h : Shows platform.mapOrder planned.disclosureTarget planned.payload f) :
    ∃ items staged,
      stageDisclosures platform planned sdClaims salts =
        .ok (⟨items.map DigestedSdJwtDisclosure.sourceOrdinal, items⟩, { planned with payload := staged }) ∧
      Shows platform.mapOrder planned.disclosureTarget staged (fun q => if q ∈ sdClaims then none else f q) ∧
      Digests platform (disclosureTexts platform salts sdClaims f) items := by
  unfold stageDisclosures
  cases sdClaims with
  | nil => exact ⟨[], planned.payload, rfl, h.congr (by simp), .nil, rfl, rfl⟩
  | cons name rest =>
    obtain ⟨hp, target, htarget, hf⟩ := id h
    obtain ⟨items, left, hprepare, hholds, hlookup, hdigests⟩ :=
      @prepareSdJwtDisclosures_spec N target platform f (name :: rest) salts (holds_disclosureTarget hp htarget) hf
    refine ⟨items, _, ?_, (h.writeTarget hholds).congr hlookup, hdigests⟩
    rw [htarget]
    simp [hprepare]

/-- The digests, where there are any, are a member of the target. -/
theorem insertDigests_spec {texts : List Str} {items : List DigestedSdJwtDisclosure} {f : Str → Option (Json N)}
    (h : Shows platform.mapOrder planned.disclosureTarget planned.payload f) (hdigests : Digests platform texts items) :
    ∃ payload, insertDigests platform planned ⟨items.map DigestedSdJwtDisclosure.sourceOrdinal, items⟩ = .ok (texts, payload) ∧
      Shows platform.mapOrder planned.disclosureTarget payload (fun q => (digestMember platform texts q).or (f q)) := by
  unfold insertDigests
  cases items with
  | nil =>
    obtain rfl : texts = [] := hdigests.disclosure.symm
    exact ⟨planned.payload, rfl, h.congr (by simp [digestMember])⟩
  | cons item rest =>
    obtain ⟨hp, target, htarget, hf⟩ := id h
    have hne : texts ≠ [] := by
      rw [← hdigests.disclosure]
      simp
    have hhashes : (item :: rest).map (fun d => (Json.str d.digestB64 : Json N)) =
        texts.map (fun text => .str (digestText platform text)) := by
      have hmap := congrArg (List.map (Json.str : Str → Json N)) hdigests.digest
      simpa [map_map, Function.comp_def] using hmap
    have hholds := @holds_insert N platform.mapOrder "_sd".toList _ _ (holds_disclosureTarget hp htarget)
      (holds_texts (texts.map (digestText platform)))
    refine ⟨_, ?_, (h.writeTarget hholds).congr ?_⟩
    · have hrestore := restoreSdJwtDisclosures_ok_iff.mpr ⟨hdigests.increasing, .refl _, rfl⟩
      rw [htarget]
      simp only [ok_bind, assembleSdJwtDisclosures, hrestore, hdigests.disclosure, hhashes]
      simp [SdJwtDisclosureStage.isEmpty, hne, Function.comp_def]
    · intro q
      rw [lookup_insert, hf q, digestMember]
      by_cases hq : q = "_sd".toList
      · rw [if_pos hq, if_pos ⟨hq, hne⟩, map_map]
        rfl
      · rw [if_neg hq, if_neg (fun h => hq h.1)]
        rfl

/-- **Behind an accepted plan no stage fails: the selected claims leave the payload, one disclosure each, and the
    payload lists the digests.** -/
theorem exists_signed (sdClaims : List Str) (salts : Nat → Bytes)
    (h : Shows platform.mapOrder planned.disclosureTarget planned.payload f) :
    ∃ digested staged payload,
      stageDisclosures platform planned sdClaims salts = .ok (digested, { planned with payload := staged }) ∧
      assemblePayload platform { planned with payload := staged } digested =
        .ok (disclosureTexts platform salts sdClaims f, payload) ∧
      Shows platform.mapOrder planned.disclosureTarget payload
        (signedMember platform planned sdClaims (disclosureTexts platform salts sdClaims f) f) := by
  obtain ⟨items, staged, hstage, hshows, hdigests⟩ := stageDisclosures_spec sdClaims salts h
  generalize disclosureTexts platform salts sdClaims f = texts at hdigests ⊢
  obtain ⟨digestPayload, hinsert, hdigest⟩ :=
    @insertDigests_spec N platform { planned with payload := staged } texts items _ hshows hdigests
  have halgorithm : Shows platform.mapOrder planned.disclosureTarget
      (if texts.isEmpty then digestPayload
        else setMember platform.mapOrder "_sd_alg" (.str "sha-256".toList) digestPayload)
      (fun q => (algorithmMember planned.disclosureTarget texts q).or
        ((digestMember platform texts q).or (if q ∈ sdClaims then none else f q))) := by
    cases texts with
    | nil => exact hdigest.congr (by simp [algorithmMember])
    | cons text rest =>
      refine (hdigest.setMember "_sd_alg" (holds_str "sha-256".toList) (by decide)).congr ?_
      intro q
      congr 2
      simp
  refine ⟨_, staged, _, hstage, ?_, @setProtocolMembers_shows N _ _ platform planned halgorithm⟩
  simp only [assemblePayload, hinsert, ok_bind]
  rfl

end

end SdJwt
end MartyCore.Oid4vci
