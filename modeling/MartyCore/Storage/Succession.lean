import Mathlib.Data.List.Chain
import MartyCore.Storage.Writes

/-!
# `Storage.Succession` — the packages of a domain, one after another

Over any calls, the successful applications to a domain form a chain: each is newer than the one before it, and its
signer is the one before it, the next signer that one names or the recovery signer, which never changes (`Succeeds`).
The row in `trust_packages` is always that of the last of them, and its signers pass the checks made on stored rows.

Its times do so only in four-digit years. A package with an expiry time in the year 10000 or later is accepted and
written, and its text is not read back: from then on every application to the domain fails (`refused_of_not_passes`).
-/

namespace MartyCore.Storage

open Exec List

variable {N : Type} {platform : Platform N} {provenance : TrustPackageProvenance}
variable {policy : Option TrustPackageSignerPolicy} {next recovery : Option Str}

/-! ## The row of a domain -/

theorem find?_upsertPackage_self (row : PackageRow) (rows : List PackageRow) :
    (upsertPackage row rows).find? (fun r => r.trustDomain = row.trustDomain) = some row := by
  unfold upsertPackage
  split
  · next hany =>
      induction rows with
      | nil => simp at hany
      | cons r rest ih =>
        by_cases hr : r.trustDomain = row.trustDomain
        · simp [hr]
        · rw [any_cons, decide_eq_false hr, Bool.false_or] at hany
          rw [map_cons, if_neg hr, find?_cons_of_neg (by simpa using hr)]
          exact ih hany
  · next hany =>
      have hnone : rows.find? (fun r => decide (r.trustDomain = row.trustDomain)) = none := by
        simpa using hany
      rw [find?_append, hnone]
      simp

variable {row : PackageRow}

theorem find?_upsertPackage_of_ne {domain : Str} (h : row.trustDomain ≠ domain) (rows : List PackageRow) :
    (upsertPackage row rows).find? (fun r => r.trustDomain = domain) = rows.find? (fun r => r.trustDomain = domain) := by
  unfold upsertPackage
  split
  · have hsame : (fun r : PackageRow => decide (r.trustDomain = domain)) ∘
        (fun r => if r.trustDomain = row.trustDomain then row else r) = fun r => decide (r.trustDomain = domain) := by
      funext r
      by_cases hr : r.trustDomain = row.trustDomain
      · simp [hr]
      · simp [hr]
    rw [find?_map, hsame]
    cases hfind : rows.find? (fun r => decide (r.trustDomain = domain)) with
    | none => rfl
    | some r =>
      have hr : r.trustDomain = domain := by simpa using find?_some hfind
      rw [Option.map_some, if_neg (fun heq => h (heq.symm.trans hr))]
  · rw [find?_append, find?_singleton, if_neg (by simpa using h), Option.or_none]

/-! ## Signers -/

variable {u : Unit}

theorem validateTrustPackageSignerId_ok_iff {value : Str} {role : String} :
    validateTrustPackageSignerId value role = .ok u ↔ Printable 512 value := by
  unfold validateTrustPackageSignerId
  rw [reject_ok_iff, not_not]

/-- The signers of a domain that the checks on a stored row accept. -/
def SignersOk (signer : Str) : Option Str → Option Str → Prop
  | next, none => Printable 512 signer ∧ next = none
  | none, some recovery => Printable 512 signer ∧ Printable 512 recovery ∧ signer ≠ recovery
  | some next, some recovery =>
    Printable 512 signer ∧ Printable 512 recovery ∧ Printable 512 next ∧ next ≠ signer ∧ next ≠ recovery

variable {signer : Str}

theorem validateStoredTrustPackageSignerPolicy_ok_iff :
    validateStoredTrustPackageSignerPolicy signer next recovery = .ok u ↔ SignersOk signer next recovery := by
  unfold validateStoredTrustPackageSignerPolicy
  cases recovery with
  | none => simp [bind_ok_iff, reject_ok_iff, validateTrustPackageSignerId_ok_iff, SignersOk]
  | some recovery =>
    cases next with
    | none | some next => simp [bind_ok_iff, reject_ok_iff, validateTrustPackageSignerId_ok_iff, SignersOk]

theorem validateTrustPackageSignerPolicy_ok {policy : TrustPackageSignerPolicy}
    (h : validateTrustPackageSignerPolicy policy = .ok ()) :
    Printable 512 policy.recoverySignerKeyId ∧
      ∀ next, policy.nextSignerKeyId = some next → Printable 512 next ∧ next ≠ policy.recoverySignerKeyId := by
  obtain ⟨_, hrecovery, h⟩ := of_bind h
  refine ⟨validateTrustPackageSignerId_ok_iff.mp hrecovery, fun next hnext => ?_⟩
  rw [hnext] at h
  obtain ⟨_, hprintable, h⟩ := of_bind h
  exact ⟨validateTrustPackageSignerId_ok_iff.mp hprintable, reject_ok_iff.mp h⟩

theorem validateTrustPackageSignerRelationships_ok {policy : TrustPackageSignerPolicy} {recovers : Bool}
    (h : validateTrustPackageSignerRelationships policy signer recovers = .ok u) :
    policy.nextSignerKeyId ≠ some signer ∧ (policy.recoverySignerKeyId = signer → policy.nextSignerKeyId ≠ none) := by
  unfold validateTrustPackageSignerRelationships at h
  simp only [reject_bind_ok_iff, reject_ok_iff] at h
  obtain ⟨hnext, hdistinct, hrecovers⟩ := h
  refine ⟨hnext, fun hsigner hnone => ?_⟩
  cases recovers with
  | false => exact hdistinct ⟨hsigner, rfl⟩
  | true => exact hrecovers ⟨rfl, hnone⟩

/-- The signers of a policy suit a signer to which they relate. -/
theorem signersOk_of_policy {policy : TrustPackageSignerPolicy} (hsigner : Printable 512 signer)
    (hpolicy : validateTrustPackageSignerPolicy policy = .ok ()) (hrelated : policy.nextSignerKeyId ≠ some signer ∧
      (policy.recoverySignerKeyId = signer → policy.nextSignerKeyId ≠ none)) :
    SignersOk signer policy.nextSignerKeyId (some policy.recoverySignerKeyId) := by
  obtain ⟨hrecovery, hnext⟩ := validateTrustPackageSignerPolicy_ok hpolicy
  obtain ⟨hne, hrecovers⟩ := hrelated
  cases hn : policy.nextSignerKeyId with
  | none => exact ⟨hsigner, hrecovery, fun heq => hrecovers heq.symm hn⟩
  | some next =>
    obtain ⟨hprintable, hdistinct⟩ := hnext next hn
    refine ⟨hsigner, hrecovery, hprintable, ?_, hdistinct⟩
    rintro rfl
    exact hne hn

/-! ## One application -/

/-- The checks an application makes on the row that is stored. -/
structure PassesApplication (platform : Platform N) (row : PackageRow) : Prop where
  signers : validateStoredTrustPackageSignerPolicy row.signerKeyId row.nextSignerKeyId row.recoverySignerKeyId = .ok ()
  sequence : ¬ row.sequence < 0
  created : ∃ t, platform.parseRfc3339 row.packageCreatedAt = some t
  expires : ∃ text t, row.packageExpiresAt = some text ∧ platform.parseRfc3339 text = some t

/-- What an application with a policy, or without one, makes of the signers. -/
def SignersFollow (provenance : TrustPackageProvenance) (row : PackageRow) (next recovery : Option Str) :
    Option TrustPackageSignerPolicy → Prop
  | none => provenance.signerKeyId = row.signerKeyId ∧ next = row.nextSignerKeyId ∧ recovery = row.recoverySignerKeyId
  | some policy => next = policy.nextSignerKeyId ∧ recovery = some policy.recoverySignerKeyId ∧
    (∀ r, row.recoverySignerKeyId = some r → policy.recoverySignerKeyId = r) ∧
    policy.nextSignerKeyId ≠ some provenance.signerKeyId ∧
    (policy.recoverySignerKeyId = provenance.signerKeyId → policy.nextSignerKeyId ≠ none)

/-- What holds of an application to a domain that has a row. -/
structure Follows (platform : Platform N) (provenance : TrustPackageProvenance) (policy : Option TrustPackageSignerPolicy)
    (row : PackageRow) (next recovery : Option Str) : Prop where
  passes : PassesApplication platform row
  sequence : row.sequence < provenance.sequence
  created : ∀ t, platform.parseRfc3339 row.packageCreatedAt = some t → t < provenance.createdAt
  signer : provenance.signerKeyId = row.signerKeyId ∨ row.nextSignerKeyId = some provenance.signerKeyId ∨
    row.recoverySignerKeyId = some provenance.signerKeyId
  signers : SignersFollow provenance row next recovery policy

variable {role : SignerRole}

theorem signerRole_ok (h : signerRole provenance row = .ok role) :
    (role = .current → provenance.signerKeyId = row.signerKeyId) ∧
      (provenance.signerKeyId = row.signerKeyId ∨ row.nextSignerKeyId = some provenance.signerKeyId ∨
        row.recoverySignerKeyId = some provenance.signerKeyId) := by
  unfold signerRole at h
  split at h
  · next hsigner => exact ⟨fun _ => hsigner, .inl hsigner⟩
  · split at h
    · next hnext =>
        cases h
        exact ⟨fun hrole => (nomatch hrole), .inr (.inl hnext)⟩
    · split at h
      · next hrecovery =>
          cases h
          exact ⟨fun hrole => (nomatch hrole), .inr (.inr hrecovery)⟩
      · cases h

theorem effectiveSigners_ok (hrole : role = .current → provenance.signerKeyId = row.signerKeyId)
    (h : effectiveSigners provenance row role policy = .ok (next, recovery)) :
    SignersFollow provenance row next recovery policy := by
  cases policy with
  | none =>
    unfold effectiveSigners at h
    rw [reject_bind_ok_iff, not_not] at h
    obtain ⟨hcurrent, h⟩ := h
    cases h
    exact ⟨hrole hcurrent, rfl, rfl⟩
  | some policy =>
    obtain ⟨_, hstable, h⟩ := of_bind h
    obtain ⟨_, hrelated, h⟩ := of_bind h
    cases h
    refine ⟨rfl, rfl, fun r hr => ?_, validateTrustPackageSignerRelationships_ok hrelated⟩
    unfold checkRecoverySigner at hstable
    rw [hr] at hstable
    exact not_not.mp (reject_ok_iff.mp hstable)

theorem succeed_some_ok (h : succeed platform provenance policy (some row) = .ok (next, recovery)) :
    Follows platform provenance policy row next recovery := by
  unfold succeed at h
  simp only [bind_ok_iff, reject_ok_iff, orFail_ok_iff] at h
  obtain ⟨⟨⟩, hstored, -, hnonneg, -, hrollback, -, -, -, hsame, role, hrole, signers, hsigners, -, -, -, -, created,
    hcreated, text, htext, expires, hexpires, -, hadvances, h⟩ := h
  cases h
  obtain ⟨hcurrent, hsigner⟩ := signerRole_ok hrole
  refine ⟨⟨hstored, hnonneg, ⟨created, hcreated⟩, ⟨text, expires, htext, hexpires⟩⟩, by omega, ?_, hsigner,
    effectiveSigners_ok hcurrent hsigners⟩
  intro t ht
  rw [hcreated] at ht
  exact Option.some.inj ht ▸ not_le.mp hadvances

/-- The signers that an application stores pass the checks on stored rows. -/
theorem succeed_signersOk {row? : Option PackageRow} (hsigner : Printable 512 provenance.signerKeyId)
    (hpolicy : ∀ p, policy = some p → validateTrustPackageSignerPolicy p = .ok ())
    (h : succeed platform provenance policy row? = .ok (next, recovery)) :
    SignersOk provenance.signerKeyId next recovery := by
  cases row? with
  | none =>
    cases policy with
    | none =>
      cases h
      exact ⟨hsigner, rfl⟩
    | some policy =>
      obtain ⟨_, hrelated, h⟩ := of_bind h
      cases h
      exact signersOk_of_policy hsigner (hpolicy policy rfl) (validateTrustPackageSignerRelationships_ok hrelated)
  | some row =>
    have hfollows := succeed_some_ok h
    cases policy with
    | none =>
      obtain ⟨heq, rfl, rfl⟩ := hfollows.signers
      rw [heq]
      exact validateStoredTrustPackageSignerPolicy_ok_iff.mp hfollows.passes.signers
    | some policy =>
      obtain ⟨rfl, rfl, -, hrelated⟩ := hfollows.signers
      exact signersOk_of_policy hsigner (hpolicy policy rfl) hrelated

/-! ## Whole runs -/

/-- A successful application and the row it left. -/
structure Applied (N : Type) where
  clock : Clock
  provenance : TrustPackageProvenance
  anchors : List TrustAnchor
  methods : List (OpenBadgeVerificationMethod N)
  policy : Option TrustPackageSignerPolicy
  row : PackageRow

/-- The tables after some calls and the applications among them that succeeded. -/
structure History (N : Type) where
  tables : Tables
  applied : List (Applied N)

variable (platform) in
def History.extend (history : History N) (call : Call N) : History N :=
  match call.perform platform history.tables, call with
  | (.ok (), tables), .apply clock provenance anchors methods policy =>
    ⟨tables, history.applied ++ (tables.package provenance.trustDomain).toList.map
      (fun row => ⟨clock, provenance, anchors, methods, policy, row⟩)⟩
  | (_, tables), _ => ⟨tables, history.applied⟩

variable (platform) in
def History.of (calls : List (Call N)) : History N := calls.foldl (History.extend platform) ⟨.empty, []⟩

/-- The successful applications to a domain. -/
def History.domain (history : History N) (domain : Str) : List (Applied N) :=
  history.applied.filter (fun a => a.provenance.trustDomain = domain)

variable {a : Applied N}

variable {history history' : History N}

theorem History.domain_self (h : history'.applied = history.applied ++ [a]) :
    history'.domain a.provenance.trustDomain = history.domain a.provenance.trustDomain ++ [a] := by
  unfold History.domain
  rw [h, filter_append]
  simp

theorem History.domain_of_ne {d : Str} (h : history'.applied = history.applied ++ [a])
    (hd : a.provenance.trustDomain ≠ d) :
    history'.domain d = history.domain d := by
  unfold History.domain
  rw [h, filter_append]
  simp [hd]

variable {clock : Clock}

/-- The entry of a successful application. -/
theorem History.extend_apply {history : History N} {anchors : List TrustAnchor}
    {methods : List (OpenBadgeVerificationMethod N)}
    (hrun : (Call.apply clock provenance anchors methods policy).perform platform history.tables =
      (.ok (), replaced platform provenance anchors methods next recovery history.tables)) :
    history.extend platform (.apply clock provenance anchors methods policy) =
      ⟨replaced platform provenance anchors methods next recovery history.tables, history.applied ++
        [⟨clock, provenance, anchors, methods, policy, packageRow platform provenance next recovery⟩]⟩ := by
  have hrow : (replaced platform provenance anchors methods next recovery history.tables).package
      provenance.trustDomain = some (packageRow platform provenance next recovery) :=
    find?_upsertPackage_self (packageRow platform provenance next recovery) _
  unfold History.extend
  rw [hrun]
  show History.mk _ (history.applied ++ List.map _ (Option.toList _)) = _
  rw [hrow]
  rfl

/-- One application after another to the same domain. -/
structure Succeeds (a b : Applied N) : Prop where
  sequence : a.row.sequence < b.row.sequence
  created : a.provenance.createdAt < b.provenance.createdAt
  signer : b.row.signerKeyId = a.row.signerKeyId ∨ a.row.nextSignerKeyId = some b.row.signerKeyId ∨
    a.row.recoverySignerKeyId = some b.row.signerKeyId
  recovery : ∀ r, a.row.recoverySignerKeyId = some r → b.row.recoverySignerKeyId = some r
  withoutPolicy : b.policy = none → b.row.signerKeyId = a.row.signerKeyId ∧
    b.row.nextSignerKeyId = a.row.nextSignerKeyId ∧ b.row.recoverySignerKeyId = a.row.recoverySignerKeyId

variable (platform) in
/-- What holds of each application and its row. -/
structure Settled (a : Applied N) : Prop where
  row : ∃ next recovery, a.row = packageRow platform a.provenance next recovery
  wellFormed : validateProvenance a.provenance = .ok ()
  timely : Timely a.clock a.provenance
  signers : SignersOk a.row.signerKeyId a.row.nextSignerKeyId a.row.recoverySignerKeyId

variable (platform) in
/-- The invariant of whole runs. -/
structure Tracked (history : History N) : Prop where
  last : ∀ d, history.tables.package d = (history.domain d).getLast?.map Applied.row
  chain : ∀ d, (history.domain d).IsChain Succeeds
  settled : ∀ a ∈ history.applied, Settled platform a

variable (platform) in
/-- What a call does to the packages. -/
inductive Extends (history history' : History N) : Prop
  | same (applied : history'.applied = history.applied)
      (packages : history'.tables.trustPackages = history.tables.trustPackages)
  | applied (a : Applied N) (next recovery : Option Str) (row : a.row = packageRow platform a.provenance next recovery)
      (applied : history'.applied = history.applied ++ [a])
      (packages : history'.tables.trustPackages = upsertPackage a.row history.tables.trustPackages)
      (wellFormed : validateProvenance a.provenance = .ok ()) (timely : Timely a.clock a.provenance)
      (validPolicy : ∀ p, a.policy = some p → validateTrustPackageSignerPolicy p = .ok ())
      (succeeds : succeed platform a.provenance a.policy (history.tables.package a.provenance.trustDomain) =
        .ok (next, recovery))

theorem extends_extend (history : History N) (call : Call N) : Extends platform history (history.extend platform call) := by
  rcases perform_cases platform call history.tables with ⟨e, hrun⟩ | ⟨tables, hrun, hdone⟩
  · unfold History.extend
    rw [hrun]
    exact .same rfl rfl
  · cases call with
    | storeTrustAnchor anchor | storeOpenBadgeKey method =>
      unfold History.extend
      rw [hrun]
      exact .same rfl hdone.2.2
    | apply clock provenance anchors methods policy =>
      obtain ⟨next, recovery, hsucceed, rfl⟩ := hdone.replaces
      rw [History.extend_apply hrun]
      exact .applied _ next recovery rfl rfl rfl hdone.admitted.wellFormed hdone.admitted.timely hdone.validPolicy hsucceed

theorem read_iff {t t' : DateTime} : platform.parseRfc3339 (platform.toRfc3339 t) = some t' ↔ t.InYears ∧ t = t' := by
  rw [platform.parse_toRfc3339]
  by_cases h : t.InYears
  · simp [h]
  · simp [h]

/-- An application that is compared with the row of another follows it. -/
theorem succeeds_of_succeed {a b : Applied N} (ha : Settled platform a)
    (hrow : b.row = packageRow platform b.provenance next recovery)
    (h : succeed platform b.provenance b.policy (some a.row) = .ok (next, recovery)) : Succeeds a b := by
  have hfollows := succeed_some_ok h
  obtain ⟨n, r, harow⟩ := ha.row
  refine ⟨?_, ?_, ?_, ?_, ?_⟩
  · rw [hrow]
    exact hfollows.sequence
  · obtain ⟨t, ht⟩ := hfollows.passes.created
    have hlt := hfollows.created t ht
    rw [harow] at ht
    -- the time is read back as it was written, since it is read at all
    exact (read_iff.mp ht).2 ▸ hlt
  · rw [hrow]
    exact hfollows.signer
  · intro r hr
    rw [hrow]
    cases hpolicy : b.policy with
    | none =>
      have hsigners := hfollows.signers
      rw [hpolicy] at hsigners
      exact hsigners.2.2.trans hr
    | some policy =>
      have hsigners := hfollows.signers
      rw [hpolicy] at hsigners
      exact hsigners.2.1.trans (congrArg some (hsigners.2.2.1 r hr))
  · intro hpolicy
    have hsigners := hfollows.signers
    rw [hpolicy] at hsigners
    rw [hrow]
    exact hsigners

/-- **Every call keeps the invariant.** -/
theorem Tracked.extend (h : Tracked platform history) (hext : Extends platform history history') :
    Tracked platform history' := by
  cases hext with
  | same happlied hpackages =>
    have hdomain : ∀ d, history'.domain d = history.domain d := fun d => by
      unfold History.domain
      rw [happlied]
    refine ⟨fun d => ?_, fun d => hdomain d ▸ h.chain d, happlied ▸ h.settled⟩
    rw [hdomain, ← h.last d]
    unfold Tables.package
    rw [hpackages]
  | applied a next recovery hrow happlied hpackages hwell htimely hpolicy hsucceed =>
    have hself := History.domain_self happlied
    have hother := fun d (hd : a.provenance.trustDomain ≠ d) => History.domain_of_ne happlied hd
    have hkey : a.row.trustDomain = a.provenance.trustDomain := by
      rw [hrow]
      rfl
    refine ⟨fun d => ?_, fun d => ?_, fun b hb => ?_⟩
    · unfold Tables.package
      rw [hpackages]
      by_cases hd : a.provenance.trustDomain = d
      · subst hd
        rw [hself, getLast?_concat, ← hkey, find?_upsertPackage_self]
        rfl
      · rw [hother d hd, find?_upsertPackage_of_ne (hkey ▸ hd)]
        exact h.last d
    · by_cases hd : a.provenance.trustDomain = d
      · subst hd
        rw [hself, isChain_append]
        refine ⟨h.chain _, isChain_singleton a, fun b hb c hc => ?_⟩
        cases hc
        have hstored := h.last a.provenance.trustDomain
        rw [hb] at hstored
        rw [hstored] at hsucceed
        have hmem : b ∈ history.applied := mem_of_mem_filter (mem_of_getLast? hb)
        exact succeeds_of_succeed (h.settled b hmem) hrow hsucceed
      · rw [hother d hd]
        exact h.chain d
    · rw [happlied] at hb
      rcases mem_append.mp hb with hb | hb
      · exact h.settled b hb
      · rw [mem_singleton.mp hb]
        refine ⟨⟨next, recovery, hrow⟩, hwell, htimely, ?_⟩
        rw [hrow]
        exact succeed_signersOk (validateProvenance_ok hwell).2.1 hpolicy hsucceed

theorem tracked_of (calls : List (Call N)) : Tracked platform (History.of platform calls) := by
  unfold History.of
  induction calls using List.reverseRecOn with
  | nil => exact ⟨fun _ => rfl, fun _ => isChain_nil, fun _ h => nomatch h⟩
  | append_singleton calls call ih =>
    rw [foldl_append]
    exact ih.extend (extends_extend _ call)

/-! ## What is read back -/

/-- **The stored row passes the checks of the next application exactly when its times have four-digit years.** -/
theorem Settled.passes_iff (h : Settled platform a) :
    PassesApplication platform a.row ↔ a.provenance.createdAt.InYears ∧ a.provenance.expiresAt.InYears := by
  obtain ⟨next, recovery, hrow⟩ := h.row
  have hsigners := h.signers
  rw [hrow] at hsigners ⊢
  constructor
  · rintro ⟨-, -, ⟨t, hcreated⟩, text, t', htext, hexpires⟩
    cases htext
    exact ⟨(read_iff.mp hcreated).1, (read_iff.mp hexpires).1⟩
  · rintro ⟨hcreated, hexpires⟩
    exact ⟨validateStoredTrustPackageSignerPolicy_ok_iff.mpr hsigners, Int.not_lt.mpr (Int.natCast_nonneg _),
      ⟨_, read_iff.mpr ⟨hcreated, rfl⟩⟩, ⟨_, _, rfl, read_iff.mpr ⟨hexpires, rfl⟩⟩⟩

variable {tables : Tables}

/-- **At a later clock and until the package expires, the package is loaded exactly when all its times have four-digit
    years.** -/
theorem Settled.load_iff (h : Settled platform a)
    (hrow : tables.package a.provenance.trustDomain = some a.row) (hnow : a.clock.now ≤ clock.now)
    (horder : clock.now ≤ clock.later) (hunexpired : clock.later ≤ a.provenance.expiresAt) :
    loadOpenBadgePackageProvenance platform clock a.provenance.trustDomain tables = .ok (some a.provenance) ↔
      a.provenance.createdAt.InYears ∧ a.provenance.expiresAt.InYears ∧ a.provenance.importedAt.InYears := by
  obtain ⟨next, recovery, heq⟩ := h.row
  have hsigners := h.signers
  rw [heq] at hrow hsigners
  unfold loadOpenBadgePackageProvenance
  rw [hrow]
  simp only [bind_ok_iff, reject_ok_iff, orFail_ok_iff]
  simp only [packageRow, read_iff]
  constructor
  · rintro ⟨-, -, -, -, _, ⟨hcreated, -⟩, _, htext, _, hexpires, _, ⟨himported, -⟩, -⟩
    cases htext
    exact ⟨hcreated, (read_iff.mp hexpires).1, himported⟩
  · rintro ⟨hcreated, hexpires, himported⟩
    have hrange := Instant.exists_later (n := maxPackageFutureSkewSeconds) (by decide) (horder.trans hunexpired) hexpires
    refine ⟨(), validateStoredTrustPackageSignerPolicy_ok_iff.mpr hsigners, (), Int.not_lt.mpr (Int.natCast_nonneg _), _,
      ⟨hcreated, rfl⟩, _, rfl, _, read_iff.mpr ⟨hexpires, rfl⟩, _, ⟨himported, rfl⟩, (), ?_, rfl⟩
    exact validateOpenBadgePackage_ok_iff.mpr
      ⟨h.wellFormed, h.timely.mono hnow hrange hunexpired, by simp, nodup_nil⟩

/-- **Where the row does not pass, every application to the domain fails.** -/
theorem refused_of_not_passes {domain : Str} (hrow : tables.package domain = some row)
    (h : ¬ PassesApplication platform row) (clock : Clock) (anchors : List TrustAnchor)
    (methods : List (OpenBadgeVerificationMethod N)) (hdomain : provenance.trustDomain = domain) :
    ∃ e, (Call.apply clock provenance anchors methods policy).perform platform tables = (.error e, tables) := by
  rcases perform_cases platform (.apply clock provenance anchors methods policy) tables with
    hfails | ⟨tables', -, hdone⟩
  · exact hfails
  · obtain ⟨next, recovery, hsucceed, -⟩ := hdone.replaces
    rw [hdomain, hrow] at hsucceed
    exact absurd (succeed_some_ok hsucceed).passes h

/-- **Succession is safe, and a domain is locked out exactly when a time of its last package has not a four-digit year.**
    The successful applications to a domain form a chain that ends in the stored row, and the recovery signer never acts
    without a next signer. The stored row passes the checks of the next application just when the creation and the
    expiry time are in the years 0 to 9999, and otherwise no application to the domain succeeds any more; until it
    expires it is loaded just when the import time is as well. -/
theorem succession_safe (platform : Platform N) (calls : List (Call N)) (domain : Str) :
    ((History.of platform calls).domain domain).IsChain Succeeds ∧
    (∀ a ∈ (History.of platform calls).domain domain,
      (∃ next recovery, a.row = packageRow platform a.provenance next recovery) ∧
      (a.row.recoverySignerKeyId = some a.row.signerKeyId → a.row.nextSignerKeyId ≠ none)) ∧
    (History.of platform calls).tables.package domain =
      ((History.of platform calls).domain domain).getLast?.map Applied.row ∧
    ∀ a, ((History.of platform calls).domain domain).getLast? = some a →
      (PassesApplication platform a.row ↔ a.provenance.createdAt.InYears ∧ a.provenance.expiresAt.InYears) ∧
      (¬ (a.provenance.createdAt.InYears ∧ a.provenance.expiresAt.InYears) →
        ∀ clock provenance anchors methods policy, provenance.trustDomain = domain →
          ∃ e, (Call.apply clock provenance anchors methods policy).perform platform (History.of platform calls).tables =
            (.error e, (History.of platform calls).tables)) ∧
      ∀ clock, a.clock.now ≤ clock.now → clock.now ≤ clock.later → clock.later ≤ a.provenance.expiresAt →
        (loadOpenBadgePackageProvenance platform clock domain (History.of platform calls).tables =
            .ok (some a.provenance) ↔
          a.provenance.createdAt.InYears ∧ a.provenance.expiresAt.InYears ∧ a.provenance.importedAt.InYears) := by
  have htracked : Tracked platform (History.of platform calls) := tracked_of calls
  have hsettled : ∀ a ∈ (History.of platform calls).domain domain, Settled platform a :=
    fun a ha => htracked.settled a (mem_of_mem_filter ha)
  refine ⟨htracked.chain domain, fun a ha => ⟨(hsettled a ha).row, ?_⟩, htracked.last domain, fun a ha => ?_⟩
  · intro hrecovering
    have hsigners := (hsettled a ha).signers
    rw [hrecovering] at hsigners
    exact fun hnone => (hnone ▸ hsigners).2.2 rfl
  · have hmem := mem_of_getLast? ha
    have hdomain : a.provenance.trustDomain = domain := by simpa using (mem_filter.mp hmem).2
    have hrow : (History.of platform calls).tables.package domain = some a.row := by
      rw [htracked.last domain, ha]
      rfl
    refine ⟨(hsettled a hmem).passes_iff, ?_, ?_⟩
    · intro hyears clock provenance anchors methods policy hprovenance
      exact refused_of_not_passes hrow (fun h => hyears ((hsettled a hmem).passes_iff.mp h)) clock anchors methods
        hprovenance
    · intro clock hnow horder hunexpired
      rw [← hdomain] at hrow ⊢
      exact (hsettled a hmem).load_iff hrow hnow horder hunexpired

/-! ## A package that expires in the year 10000 -/

/-- The beginning of the year 10000. -/
def yearTenThousand : DateTime := ⟨253402300800, 0, by decide, by decide⟩

def sampleClock : Clock := ⟨epoch, epoch, (by decide : (0 : Nat) < 10 ^ 9)⟩

def sampleProvenance : TrustPackageProvenance where
  trustDomain := "d".toList
  sequence := 1
  packageVersion := "1".toList
  createdAt := epoch
  expiresAt := yearTenThousand
  signerKeyId := "k".toList
  packageDigest := List.replicate 64 '0'
  importedAt := epoch

def sampleApplication : Call Int := .apply sampleClock sampleProvenance [] [] none

/-- The package is applied, and no later application to its domain succeeds. -/
theorem late_expiry_locks_domain :
    (sampleApplication.perform samplePlatform .empty).1 = .ok () ∧
      ∀ clock provenance anchors methods policy, provenance.trustDomain = "d".toList →
        ∃ e, (Call.apply clock provenance anchors methods policy).perform samplePlatform
            (sampleApplication.perform samplePlatform .empty).2 =
          (.error e, (sampleApplication.perform samplePlatform .empty).2) := by
  refine ⟨by decide, ?_⟩
  intro clock provenance anchors methods policy hdomain
  have hrow : (sampleApplication.perform samplePlatform .empty).2.package "d".toList =
      some (packageRow samplePlatform sampleProvenance none none) := by decide
  refine refused_of_not_passes hrow ?_ clock anchors methods hdomain
  rintro ⟨-, -, -, text, t, htext, hread⟩
  cases htext
  have hyears := (read_iff.mp hread).1
  exact absurd hyears (by decide)

end MartyCore.Storage
