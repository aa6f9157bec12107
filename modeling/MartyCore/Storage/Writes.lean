import MartyCore.Storage.Model

/-!
# `Storage.Writes` — what a call writes

A write either fails and leaves the tables, or succeeds and leaves the tables its arguments determine
(`perform_cases`). For an application these are `replaced`: the records of the domain are those of the package and its
row in `trust_packages` is the package's, with the signers that `succeed` returns. What the validators have
admitted by then is `Admitted`.
-/

namespace MartyCore.Storage

open Exec Method.Commits List

variable {N : Type} {platform : Platform N} {clock : Clock} {provenance : TrustPackageProvenance}
variable {anchors : List TrustAnchor} {methods : List (OpenBadgeVerificationMethod N)}
variable {policy : Option TrustPackageSignerPolicy} {tables tables' : Tables}

/-! ## Validators -/

theorem addSeconds_ok_iff {ε : Type} {t t' : DateTime} {n : Nat} :
    (addSeconds t n : Exec ε DateTime) = .ok t' ↔ t.later n = some t' := by
  unfold addSeconds
  cases t.later n with
  | none | some t => simp

/-- What the texts of a package satisfy. -/
theorem validateProvenance_ok (h : validateProvenance provenance = .ok ()) :
    provenance.packageVersion ≠ [] ∧ Printable 512 provenance.signerKeyId ∧ provenance.packageDigest ≠ [] := by
  unfold validateProvenance at h
  simp only [reject_bind_ok_iff, reject_ok_iff, not_not] at h
  obtain ⟨-, -, -, hversion, hsigner, hdigest⟩ := h
  refine ⟨hversion.1, hsigner, ?_⟩
  intro hnil
  rw [hnil] at hdigest
  exact hdigest (.inl (by decide))

/-- What the times of a package satisfy at a clock. -/
structure Timely (clock : Clock) (provenance : TrustPackageProvenance) : Prop where
  imported : ∃ limit, provenance.importedAt.later maxPackageFutureSkewSeconds = some limit ∧ provenance.createdAt ≤ limit
  skew : ∃ limit, clock.now.later maxPackageFutureSkewSeconds = some limit ∧ provenance.createdAt ≤ limit ∧
    provenance.importedAt ≤ limit
  lasts : provenance.createdAt < provenance.expiresAt
  fresh : provenance.importedAt ≤ provenance.expiresAt
  unexpired : clock.later ≤ provenance.expiresAt

variable {u : Unit}

theorem validateTimes_ok_iff : validateTimes clock provenance = .ok u ↔ Timely clock provenance := by
  unfold validateTimes
  simp only [bind_ok_iff, addSeconds_ok_iff, reject_ok_iff, not_lt, not_le]
  constructor
  · rintro ⟨limit, hlimit, -, hcreated, now, hnow, -, hnowCreated, -, hnowImported, -, hlasts, -, hfresh, hunexpired⟩
    exact ⟨⟨limit, hlimit, hcreated⟩, ⟨now, hnow, hnowCreated, hnowImported⟩, hlasts, hfresh, hunexpired⟩
  · rintro ⟨⟨limit, hlimit, hcreated⟩, ⟨now, hnow, hnowCreated, hnowImported⟩, hlasts, hfresh, hunexpired⟩
    exact ⟨limit, hlimit, (), hcreated, now, hnow, (), hnowCreated, (), hnowImported, (), hlasts, (), hfresh, hunexpired⟩

/-- A package that was timely is so at a later clock, until it expires. -/
theorem Timely.mono {clock' : Clock} (h : Timely clock provenance) (hnow : clock.now ≤ clock'.now)
    (hrange : ∃ limit, clock'.now.later maxPackageFutureSkewSeconds = some limit)
    (hunexpired : clock'.later ≤ provenance.expiresAt) : Timely clock' provenance := by
  obtain ⟨limit, hlimit, hcreated, himported⟩ := h.skew
  obtain ⟨limit', hlimit'⟩ := hrange
  have hle : limit ≤ limit' := Instant.later_mono clock'.plain hnow clock.plain hlimit hlimit'
  exact ⟨h.imported, ⟨limit', hlimit', hcreated.trans hle, himported.trans hle⟩, h.lasts, h.fresh, hunexpired⟩

/-- The loop accepts records that pass and have new, pairwise distinct ids. -/
theorem validateRecords_ok_iff {α : Type} {label : String} {limit : Nat} {id : α → Str} {check : α → Exec Error Unit}
    {seen : List Str} {records : List α} :
    validateRecords label limit id check seen records = .ok u ↔
      (∀ r ∈ records, id r ≠ [] ∧ (id r).len ≤ limit ∧ check r = .ok ()) ∧
        (records.map id).Nodup ∧ ∀ i ∈ records.map id, i ∉ seen := by
  induction records generalizing seen with
  | nil => simp [validateRecords]
  | cons r rest ih =>
    rw [validateRecords, reject_bind_ok_iff, bind_ok_iff, map_cons, nodup_fresh_cons_iff,
      forall_mem_cons, not_or, not_or, not_lt]
    constructor
    · rintro ⟨⟨hne, hlen, hnew⟩, ⟨⟩, hcheck, hrest⟩
      obtain ⟨hall, hnodup, hfresh⟩ := ih.mp hrest
      exact ⟨⟨⟨hne, hlen, hcheck⟩, hall⟩, hnew, hnodup, hfresh⟩
    · rintro ⟨⟨⟨hne, hlen, hcheck⟩, hall⟩, hnew, hnodup, hfresh⟩
      exact ⟨⟨hne, hlen, hnew⟩, (), hcheck, ih.mpr ⟨hall, hnodup, hfresh⟩⟩

def AdmittedMethod (method : OpenBadgeVerificationMethod N) : Prop :=
  method.id ≠ [] ∧ method.id.len ≤ 2048 ∧ validateMethod method = .ok ()

variable (platform) in
def AdmittedAnchor (provenance : TrustPackageProvenance) (anchor : TrustAnchor) : Prop :=
  anchor.id ≠ [] ∧ anchor.id.len ≤ 512 ∧ validateAnchor platform provenance anchor = .ok ()

variable (platform clock provenance anchors methods) in
/-- A package that is valid at a clock. -/
structure Admitted : Prop where
  wellFormed : validateProvenance provenance = .ok ()
  timely : Timely clock provenance
  admittedMethods : ∀ m ∈ methods, AdmittedMethod m
  methodIds : (methods.map OpenBadgeVerificationMethod.id).Nodup
  admittedAnchors : ∀ a ∈ anchors, AdmittedAnchor platform provenance a
  anchorIds : (anchors.map TrustAnchor.id).Nodup

theorem validateOpenBadgePackage_ok_iff :
    validateOpenBadgePackage clock provenance methods = .ok u ↔
      validateProvenance provenance = .ok () ∧ Timely clock provenance ∧ (∀ m ∈ methods, AdmittedMethod m) ∧
        (methods.map OpenBadgeVerificationMethod.id).Nodup := by
  unfold validateOpenBadgePackage
  simp only [bind_ok_iff, validateTimes_ok_iff, validateRecords_ok_iff]
  constructor
  · rintro ⟨⟨⟩, hprovenance, -, htimes, hmethods, hids, -⟩
    exact ⟨hprovenance, htimes, hmethods, hids⟩
  · rintro ⟨hprovenance, htimes, hmethods, hids⟩
    exact ⟨(), hprovenance, (), htimes, hmethods, hids, fun _ _ => not_mem_nil⟩

theorem validateTrustPackage_ok_iff :
    validateTrustPackage platform clock provenance anchors methods = .ok u ↔
      Admitted platform clock provenance anchors methods := by
  unfold validateTrustPackage
  simp only [bind_ok_iff, validateOpenBadgePackage_ok_iff, validateRecords_ok_iff]
  constructor
  · rintro ⟨⟨⟩, ⟨hprovenance, htimes, hmethods, hmethodIds⟩, hanchors, hanchorIds, -⟩
    exact ⟨hprovenance, htimes, hmethods, hmethodIds, hanchors, hanchorIds⟩
  · rintro ⟨hprovenance, htimes, hmethods, hmethodIds, hanchors, hanchorIds⟩
    exact ⟨(), ⟨hprovenance, htimes, hmethods, hmethodIds⟩, hanchors, hanchorIds, fun _ _ => not_mem_nil⟩

/-! ## Records -/

namespace Table

variable {β : Type} {rows rows' new : List (Row β)} {row : Row β}

/-- Keys are distinct. -/
def Keyed (rows : List (Row β)) : Prop := (rows.map Row.id).Nodup

theorem find_eq_none_iff {id : Str} : find id rows = none ↔ id ∉ rows.map Row.id := by
  simp [find]

theorem Keyed.deleteDomain (h : Keyed rows) (domain : Str) : Keyed (deleteDomain domain rows) :=
  h.sublist (filter_sublist.map Row.id)

/-- A record is inserted when its key is new. -/
theorem insert_ok {name : String} (h : insert name row rows = .ok rows') :
    rows' = rows ++ [row] ∧ (Keyed rows → Keyed rows') := by
  obtain ⟨hfresh, h⟩ := of_reject h
  cases h
  exact ⟨rfl, fun hkeyed => nodup_map_concat_iff.mpr ⟨find_eq_none_iff.mp (by simpa using hfresh), hkeyed⟩⟩

theorem insertRows_ok {name : String} (h : insertRows name new rows = .ok rows') :
    rows' = rows ++ new ∧ (Keyed rows → Keyed rows') := by
  induction new generalizing rows with
  | nil =>
    cases h
    exact ⟨(append_nil _).symm, fun hkeyed => hkeyed⟩
  | cons row rest ih =>
    unfold insertRows at h
    rw [foldlM_cons, bind_ok_iff] at h
    obtain ⟨rows₁, hrow, hrest⟩ := h
    obtain ⟨rfl, hkeyed₁⟩ := insert_ok hrow
    obtain ⟨rfl, hkeyed⟩ := ih hrest
    exact ⟨by rw [append_assoc, singleton_append], fun h => hkeyed (hkeyed₁ h)⟩

/-- A write outside packages: the record is new, or takes the columns of one that has no domain. -/
structure Stored (row : Row β) (rows rows' : List (Row β)) : Prop where
  keyed : Keyed rows'
  mem : ∀ r ∈ rows', r ∈ rows ∨ r = row ∨
    ∃ old ∈ rows, old.provenance.domain = none ∧ r = { row with provenance := old.provenance }
  /-- Records with a domain stay, in their order. -/
  governed : rows'.filter (fun r => r.provenance.domain.isSome) = rows.filter (fun r => r.provenance.domain.isSome)

/-- The columns of a record written again. -/
def overwrite (row r : Row β) : Row β := if r.id = row.id then { row with provenance := r.provenance } else r

@[simp] theorem overwrite_id (r : Row β) : (overwrite row r).id = r.id := by
  unfold overwrite
  split
  · next h => exact h.symm
  · rfl

@[simp] theorem overwrite_provenance (r : Row β) : (overwrite row r).provenance = r.provenance := by
  unfold overwrite
  split <;> rfl

theorem stored_new (hkeyed : Keyed rows) (hrow : row.provenance.domain = none) (hnew : row.id ∉ rows.map Row.id) :
    Stored row rows (rows ++ [row]) where
  keyed := nodup_map_concat_iff.mpr ⟨hnew, hkeyed⟩
  mem := by
    intro r hr
    rcases mem_append.mp hr with hr | hr
    · exact .inl hr
    · exact .inr (.inl (mem_singleton.mp hr))
  governed := by simp [filter_append, hrow]

theorem stored_overwrite (hkeyed : Keyed rows) {old : Row β} (hold : find row.id rows = some old)
    (hdomain : old.provenance.domain = none) : Stored row rows (rows.map (overwrite row)) := by
  -- the key is that of one record only
  have hsole : ∀ r ∈ rows, r.id = row.id → r = old := by
    intro r hr hid
    have hfind : find r.id rows = some r := find?_eq_some_of_mem (atMostOne_of_nodup_map hkeyed r.id) hr (by simp)
    rw [hid, hold] at hfind
    exact (Option.some.inj hfind).symm
  refine ⟨?_, ?_, ?_⟩
  · unfold Keyed
    rw [map_map, show Row.id ∘ overwrite row = Row.id from funext (fun r => overwrite_id r)]
    exact hkeyed
  · intro r hr
    obtain ⟨r, hmem, rfl⟩ := mem_map.mp hr
    unfold overwrite
    split
    · next hid => exact .inr (.inr ⟨r, hmem, hsole r hmem hid ▸ hdomain, rfl⟩)
    · exact .inl hmem
  · rw [filter_map, show (fun r : Row β => r.provenance.domain.isSome) ∘ overwrite row
      = fun r => r.provenance.domain.isSome from funext (fun r => by simp)]
    have hid : ∀ r ∈ rows.filter (fun r => r.provenance.domain.isSome), overwrite row r = r := by
      intro r hr
      obtain ⟨hmem, hsome⟩ := mem_filter.mp hr
      unfold overwrite
      rw [if_neg]
      intro hid
      rw [hsole r hmem hid, hdomain] at hsome
      exact absurd hsome (by simp)
    rw [map_congr_left hid, map_id']

theorem storeLegacy_ok {conflict : Error} (hkeyed : Keyed rows) (hrow : row.provenance.domain = none)
    (h : storeLegacy conflict row rows = .ok rows') : Stored row rows rows' := by
  unfold storeLegacy upsertLegacy at h
  rw [reject_bind_ok_iff] at h
  replace h := h.2
  rcases Option.eq_none_or_eq_some (find row.id rows) with hfind | ⟨old, hfind⟩
  · rw [hfind] at h
    cases (of_reject h).2
    exact stored_new hkeyed hrow (find_eq_none_iff.mp hfind)
  · rw [hfind] at h
    by_cases hdomain : old.provenance.domain = none
    · simp only [hdomain, if_true] at h
      cases (of_reject h).2
      exact stored_overwrite hkeyed hfind hdomain
    -- a record with a domain is not changed, which is an error
    · simp only [hdomain, if_false] at h
      exact absurd trivial (of_reject h).1

end Table

/-! ## Calls -/

variable (platform) in
/-- The tables after a package has been applied. -/
def replaced (provenance : TrustPackageProvenance) (anchors : List TrustAnchor)
    (methods : List (OpenBadgeVerificationMethod N)) (next recovery : Option Str) (tables : Tables) : Tables where
  trustAnchors := Table.deleteDomain provenance.trustDomain tables.trustAnchors ++
    anchors.map (fun a => anchorRow platform a provenance.createdAt (.of platform provenance))
  openBadgeKeys := Table.deleteDomain provenance.trustDomain tables.openBadgeKeys ++
    methods.map (fun m => methodRow platform m provenance.createdAt (.of platform provenance))
  trustPackages := upsertPackage (packageRow platform provenance next recovery) tables.trustPackages

/-- Keys are distinct in both tables of records. -/
def Tables.Keyed (tables : Tables) : Prop := Table.Keyed tables.trustAnchors ∧ Table.Keyed tables.openBadgeKeys

theorem replaceDomain_ok
    (h : (replaceDomain platform provenance anchors methods policy).run tables = (.ok (), tables')) :
    ∃ next recovery, succeed platform provenance policy (tables.package provenance.trustDomain) = .ok (next, recovery) ∧
      tables' = replaced platform provenance anchors methods next recovery tables ∧ (tables.Keyed → tables'.Keyed) := by
  unfold replaceDomain at h
  simp only [Method.run_get_bind, Method.run_set_bind, Method.run_call_bind_ok_iff] at h
  obtain ⟨⟨next, recovery⟩, hsucceed, -, -, -, -, anchorRows, hanchors, methodRows, hmethods, h⟩ := h
  obtain ⟨rfl, hanchorKeys⟩ := Table.insertRows_ok hanchors
  obtain ⟨rfl, hmethodKeys⟩ := Table.insertRows_ok hmethods
  cases h
  exact ⟨next, recovery, hsucceed, rfl,
    fun hkeyed => ⟨hanchorKeys (hkeyed.1.deleteDomain _), hmethodKeys (hkeyed.2.deleteDomain _)⟩⟩

variable (platform clock provenance anchors methods policy tables tables') in
/-- What a successful application has found and done. -/
structure Applies : Prop where
  admitted : Admitted platform clock provenance anchors methods
  validPolicy : ∀ p, policy = some p → validateTrustPackageSignerPolicy p = .ok ()
  replaces : ∃ next recovery,
    succeed platform provenance policy (tables.package provenance.trustDomain) = .ok (next, recovery) ∧
      tables' = replaced platform provenance anchors methods next recovery tables
  keyed : tables.Keyed → tables'.Keyed

theorem applyTrustPackageInternal_commits
    (hpolicy : ∀ p, policy = some p → validateTrustPackageSignerPolicy p = .ok ()) :
    Method.Commits (applyTrustPackageInternal platform clock provenance anchors methods policy) tables
      (fun _ tables' => Applies platform clock provenance anchors methods policy tables tables') := by
  apply call_bind
  intro _ hvalid
  refine bind_pure (Method.commits_atomically ?_)
  intro _ tables' hrun
  obtain ⟨next, recovery, hsucceed, htables, hkeyed⟩ := replaceDomain_ok hrun
  exact ⟨validateTrustPackage_ok_iff.mp hvalid, hpolicy, ⟨next, recovery, hsucceed, htables⟩, hkeyed⟩

/-- What a successful call has done. -/
def Call.Done (platform : Platform N) (tables tables' : Tables) : Call N → Prop
  | .storeTrustAnchor anchor =>
    Table.storeLegacy (.trustPackageConflict ("legacy write cannot replace governed trust anchor " ++ name anchor.id))
      (anchorRow platform anchor anchor.syncedAt .legacy) tables.trustAnchors = .ok tables'.trustAnchors ∧
    tables'.openBadgeKeys = tables.openBadgeKeys ∧ tables'.trustPackages = tables.trustPackages
  | .storeOpenBadgeKey method =>
    Table.storeLegacy (.trustPackageConflict ("legacy write cannot replace governed method " ++ name method.id))
      (methodRow platform method method.syncedAt .legacy) tables.openBadgeKeys = .ok tables'.openBadgeKeys ∧
    tables'.trustAnchors = tables.trustAnchors ∧ tables'.trustPackages = tables.trustPackages
  | .apply clock provenance anchors methods policy =>
    Applies platform clock provenance anchors methods policy tables tables'

variable (platform) in
/-- **A call fails and leaves the tables, or does what its arguments say.** -/
theorem perform_cases (call : Call N) (tables : Tables) :
    (∃ e, call.perform platform tables = (.error e, tables)) ∨
      ∃ tables', call.perform platform tables = (.ok (), tables') ∧ call.Done platform tables tables' := by
  suffices h : ∃ x : Method Tables Error Unit, call.perform platform tables = x.run tables ∧
      Method.Commits x tables (fun _ tables' => call.Done platform tables tables') by
    obtain ⟨x, hx, h⟩ := h
    rw [hx]
    rcases h with h | ⟨_, tables', h, hdone⟩
    · exact .inl h
    · exact .inr ⟨tables', h, hdone⟩
  cases call with
  | storeTrustAnchor anchor | storeOpenBadgeKey method =>
    refine ⟨_, rfl, get_bind (call_bind ?_)⟩
    intro rows hrows
    exact .inr ⟨(), _, rfl, hrows, rfl, rfl⟩
  | apply clock provenance anchors methods policy =>
    cases policy with
    | none =>
      refine ⟨_, rfl, bind_pure ?_⟩
      apply applyTrustPackageInternal_commits
      intro p hp
      cases hp
    | some policy =>
      refine ⟨_, rfl, bind_pure (call_bind ?_)⟩
      intro _ hpolicy
      apply applyTrustPackageInternal_commits
      intro p hp
      cases hp
      exact hpolicy

end MartyCore.Storage
