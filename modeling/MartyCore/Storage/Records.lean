import MartyCore.Storage.Succession

/-!
# `Storage.Records` — a package replaces the records of one domain

The records of a domain are those of the package applied to it last, and every other record is one that was stored outside
packages (`Holds`). Both tables of records keep this the same way, so the invariant and its steps are stated once, for the
`Layout` of a table.

What was written is read back: every reader decodes the rows to the values they were written from, validates the governed
ones again and finds their package in force (`Kept.readsBack`), as long as the
clock has not gone backwards and no package has expired.
-/

namespace MartyCore.Storage

open Exec Table List

variable {N α β : Type} {platform : Platform N} {history history' : History N}

/-! ## The records of a domain -/

/-- How the items of packages are kept in a table. -/
structure Layout (N α β : Type) where
  render : α → DateTime → StoredProvenance → Row β
  items : Applied N → List α
  syncedAt : α → DateTime
  /-- The times of an item have four-digit years. -/
  InYears : α → Prop
  render_provenance : ∀ x t s, (render x t s).provenance = s

/-- The row of an item of a package. -/
def Layout.row (platform : Platform N) (layout : Layout N α β) (a : Applied N) (x : α) : Row β :=
  layout.render x a.provenance.createdAt (.of platform a.provenance)

/-- The rows of an application. -/
def Layout.governed (platform : Platform N) (layout : Layout N α β) (a : Applied N) : List (Row β) :=
  (layout.items a).map (layout.row platform a)

variable {layout : Layout N α β} {rows rows' : List (Row β)} {a : Applied N}

theorem domain_governed {r : Row β} (hr : r ∈ layout.governed platform a) :
    r.provenance.domain = some a.provenance.trustDomain := by
  obtain ⟨x, -, rfl⟩ := mem_map.mp hr
  rw [Layout.row, layout.render_provenance]
  rfl

variable (platform layout) in
/-- **The records of each domain are those of its last package, and the others have no package columns.** -/
structure Holds (history : History N) (rows : List (Row β)) : Prop where
  keyed : Keyed rows
  governed : ∀ d, rows.filter (fun r => r.provenance.domain = some d) =
    (history.domain d).getLast?.elim [] (layout.governed platform)
  legacy : ∀ row ∈ rows, row.provenance.domain = none →
    ∃ x, layout.InYears x ∧ row = layout.render x (layout.syncedAt x) .legacy

theorem Holds.same (h : Holds platform layout history rows) (happlied : history'.applied = history.applied) :
    Holds platform layout history' rows := by
  refine ⟨h.keyed, fun d => ?_, h.legacy⟩
  rw [h.governed d]
  unfold History.domain
  rw [happlied]

/-- A record stored outside packages. -/
theorem Holds.stored {x : α} (h : Holds platform layout history rows) (hx : layout.InYears x)
    (hstored : Stored (layout.render x (layout.syncedAt x) .legacy) rows rows') :
    Holds platform layout history rows' := by
  refine ⟨hstored.keyed, fun d => ?_, fun row hrow hnone => ?_⟩
  · have hsome : ∀ l : List (Row β), l.filter (fun r => r.provenance.domain = some d) =
        (l.filter (fun r => r.provenance.domain.isSome)).filter (fun r => r.provenance.domain = some d) := by
      intro l
      rw [filter_filter]
      refine filter_congr (fun r _ => ?_)
      by_cases hd : r.provenance.domain = some d
      · simp [hd]
      · simp [hd]
    rw [← h.governed d, hsome rows', hsome rows, hstored.governed]
  · rcases hstored.mem row hrow with hold | rfl | ⟨old, hold, hdomain, rfl⟩
    · exact h.legacy row hold hnone
    · exact ⟨x, hx, rfl⟩
    -- the columns it takes over are empty
    · obtain ⟨y, -, hy⟩ := h.legacy old hold hdomain
      have hlegacy : old.provenance = .legacy := by rw [hy, layout.render_provenance]
      have hsame := layout.render_provenance x (layout.syncedAt x) .legacy
      refine ⟨x, hx, ?_⟩
      rw [hlegacy]
      cases hrender : layout.render x (layout.syncedAt x) .legacy with
      | mk id body provenance =>
        rw [hrender] at hsame
        exact congrArg (Row.mk id body) hsame.symm

/-- Deleting a domain and appending its new rows. -/
theorem filter_replaced {domain : Str} {new : List (Row β)} (hnew : ∀ r ∈ new, r.provenance.domain = some domain) :
    (deleteDomain domain rows ++ new).filter (fun r => r.provenance.domain = some domain) = new ∧
      (deleteDomain domain rows ++ new).filter (fun r => r.provenance.domain ≠ some domain) =
        rows.filter (fun r => r.provenance.domain ≠ some domain) := by
  have hall : new.filter (fun r => r.provenance.domain = some domain) = new :=
    filter_eq_self.mpr (fun r hr => decide_eq_true (hnew r hr))
  have hnone : new.filter (fun r => r.provenance.domain ≠ some domain) = [] :=
    filter_eq_nil_iff.mpr (fun r hr => by simp [hnew r hr])
  constructor
  · rw [filter_append, hall, deleteDomain, filter_filter]
    simp
  · rw [filter_append, hnone, append_nil, deleteDomain, filter_filter]
    simp

/-- An application. -/
theorem Holds.applied (h : Holds platform layout history rows)
    (happlied : history'.applied = history.applied ++ [a])
    (hkeyed : Keyed (deleteDomain a.provenance.trustDomain rows ++ layout.governed platform a)) :
    Holds platform layout history'
      (deleteDomain a.provenance.trustDomain rows ++ layout.governed platform a) := by
  refine ⟨hkeyed, fun d => ?_, fun row hrow hnone => ?_⟩
  · by_cases hd : a.provenance.trustDomain = d
    · subst hd
      rw [History.domain_self happlied, getLast?_concat]
      exact (filter_replaced (fun r hr => domain_governed hr)).1
    · rw [History.domain_of_ne happlied hd, ← h.governed d, filter_append, deleteDomain, filter_filter]
      have hnone : (layout.governed platform a).filter (fun r => decide (r.provenance.domain = some d)) = [] := by
        refine filter_eq_nil_iff.mpr (fun r hr => ?_)
        rw [domain_governed hr]
        simpa using hd
      rw [hnone, append_nil]
      refine filter_congr (fun r _ => ?_)
      by_cases hr : r.provenance.domain = some d
      · simp [hr, Ne.symm hd]
      · simp [hr]
  · rcases mem_append.mp hrow with hold | hnew
    · exact h.legacy row (mem_of_mem_filter hold) hnone
    · rw [domain_governed hnew] at hnone
      cases hnone

/-! ## Whole runs -/

def TrustAnchor.InYears (anchor : TrustAnchor) : Prop :=
  (∀ t ∈ anchor.notBefore, t.InYears) ∧ (∀ t ∈ anchor.notAfter, t.InYears) ∧ anchor.syncedAt.InYears

def OpenBadgeVerificationMethod.InYears (method : OpenBadgeVerificationMethod N) : Prop :=
  (∀ t ∈ method.notBefore, t.InYears) ∧ (∀ t ∈ method.notAfter, t.InYears) ∧ method.syncedAt.InYears

def TrustPackageProvenance.InYears (provenance : TrustPackageProvenance) : Prop :=
  provenance.createdAt.InYears ∧ provenance.expiresAt.InYears ∧ provenance.importedAt.InYears

/-- The times in the arguments of a call have four-digit years. -/
def Call.InYears : Call N → Prop
  | .storeTrustAnchor anchor => anchor.InYears
  | .storeOpenBadgeKey method => method.InYears
  | .apply _ provenance anchors methods _ =>
    provenance.InYears ∧ (∀ a ∈ anchors, a.InYears) ∧ ∀ m ∈ methods, m.InYears

variable (platform) in
def anchorLayout : Layout N TrustAnchor AnchorColumns where
  render := anchorRow platform
  items := Applied.anchors
  syncedAt := TrustAnchor.syncedAt
  InYears := TrustAnchor.InYears
  render_provenance _ _ _ := rfl

variable (platform) in
def methodLayout : Layout N (OpenBadgeVerificationMethod N) MethodColumns where
  render := methodRow platform
  items := Applied.methods
  syncedAt := OpenBadgeVerificationMethod.syncedAt
  InYears := OpenBadgeVerificationMethod.InYears
  render_provenance _ _ _ := rfl

variable (platform) in
/-- An application of a valid package with times in four-digit years. -/
structure Sound (a : Applied N) : Prop where
  admitted : Admitted platform a.clock a.provenance a.anchors a.methods
  provenance : a.provenance.InYears
  anchors : ∀ x ∈ a.anchors, x.InYears
  methods : ∀ x ∈ a.methods, x.InYears

variable (platform) in
/-- The invariant of whole runs. -/
structure Kept (history : History N) : Prop where
  tracked : Tracked platform history
  sound : ∀ a ∈ history.applied, Sound platform a
  anchors : Holds platform (anchorLayout platform) history history.tables.trustAnchors
  methods : Holds platform (methodLayout platform) history history.tables.openBadgeKeys

theorem kept_start : Kept platform (History.of platform ([] : List (Call N))) := by
  have hempty : ∀ {α β : Type} (layout : Layout N α β), Holds platform layout (History.of platform []) [] :=
    fun layout => ⟨nodup_nil, fun _ => rfl, fun _ h => nomatch h⟩
  exact ⟨tracked_of [], fun _ h => (nomatch h), hempty _, hempty _⟩

/-- **Every call keeps the invariant.** -/
theorem Kept.extend (h : Kept platform history) (call : Call N) (hyears : call.InYears) :
    Kept platform (history.extend platform call) := by
  have htracked := h.tracked.extend (extends_extend history call)
  rcases perform_cases platform call history.tables with ⟨e, hrun⟩ | ⟨tables, hrun, hdone⟩
  · have hsame : history.extend platform call = history := by
      unfold History.extend
      rw [hrun]
    rw [hsame]
    exact h
  · cases call with
    | storeTrustAnchor anchor =>
      have hext : history.extend platform (.storeTrustAnchor anchor) = ⟨tables, history.applied⟩ := by
        unfold History.extend
        rw [hrun]
      rw [hext] at htracked ⊢
      obtain ⟨hanchors, hmethods, -⟩ := hdone
      refine ⟨htracked, h.sound, ?_, ?_⟩
      · exact (h.anchors.stored hyears (storeLegacy_ok h.anchors.keyed rfl hanchors)).same rfl
      · show Holds platform (methodLayout platform) _ tables.openBadgeKeys
        rw [hmethods]
        exact h.methods.same rfl
    | storeOpenBadgeKey method =>
      have hext : history.extend platform (.storeOpenBadgeKey method) = ⟨tables, history.applied⟩ := by
        unfold History.extend
        rw [hrun]
      rw [hext] at htracked ⊢
      obtain ⟨hmethods, hanchors, -⟩ := hdone
      refine ⟨htracked, h.sound, ?_, ?_⟩
      · show Holds platform (anchorLayout platform) _ tables.trustAnchors
        rw [hanchors]
        exact h.anchors.same rfl
      · exact (h.methods.stored hyears (storeLegacy_ok h.methods.keyed rfl hmethods)).same rfl
    | apply clock provenance anchors methods policy =>
      obtain ⟨next, recovery, -, rfl⟩ := hdone.replaces
      have hkeyed := hdone.keyed ⟨h.anchors.keyed, h.methods.keyed⟩
      rw [History.extend_apply hrun] at htracked ⊢
      let a : Applied N :=
        ⟨clock, provenance, anchors, methods, policy, packageRow platform provenance next recovery⟩
      refine ⟨htracked, fun b hb => ?_, h.anchors.applied (a := a) rfl hkeyed.1, h.methods.applied (a := a) rfl hkeyed.2⟩
      rcases mem_append.mp hb with hb | hb
      · exact h.sound b hb
      · rw [mem_singleton.mp hb]
        exact ⟨hdone.admitted, hyears.1, hyears.2.1, hyears.2.2⟩

theorem kept_of {calls : List (Call N)} (hyears : ∀ call ∈ calls, call.InYears) :
    Kept platform (History.of platform calls) := by
  induction calls using List.reverseRecOn with
  | nil => exact kept_start
  | append_singleton calls call ih =>
    have hbefore : Kept platform (History.of platform calls) :=
      ih (fun c hc => hyears c (mem_append_left _ hc))
    have hstep : History.of platform (calls ++ [call]) = (History.of platform calls).extend platform call := by
      unfold History.of
      rw [foldl_append]
      rfl
    rw [hstep]
    exact hbefore.extend call (hyears call (mem_append_right _ mem_cons_self))

/-! ## Decoding -/

variable {t : DateTime}

theorem parseStoredTimestamp_of (h : t.InYears) (id : Str) (field : String) :
    parseStoredTimestamp platform id field (some (platform.toRfc3339 t)) = .ok t := by
  show Exec.orFail _ (platform.parseRfc3339 (platform.toRfc3339 t)) = _
  rw [read_iff.mpr ⟨h, rfl⟩]
  rfl

theorem parseOptionalStoredTimestamp_of {t : Option DateTime} (h : ∀ t' ∈ t, t'.InYears) (id : Str) (field : String) :
    parseOptionalStoredTimestamp platform id field (t.map platform.toRfc3339) = .ok t := by
  cases t with
  | none => rfl
  | some t =>
    show (parseStoredTimestamp platform id field (some (platform.toRfc3339 t)) >>= fun t' => .ok (some t')) = _
    rw [parseStoredTimestamp_of (h t rfl)]
    rfl

theorem requiredStoredValue_of {v : Str} (h : v ≠ []) (id : Str) (field : String) :
    requiredStoredValue id field (some v) = .ok v := by
  cases v with
  | nil => exact absurd rfl h
  | cons c rest => rfl

variable {provenance : TrustPackageProvenance}

/-- **The package columns written by an application are read back, for either kind of record.** -/
theorem decode_of (hyears : provenance.InYears)
    (hvalid : validateProvenance provenance = .ok ()) (kind : RecordKind) (id : Str) :
    (StoredProvenance.of platform provenance).decode platform kind id = .ok (some provenance) := by
  obtain ⟨hversion, hsigner, hdigest⟩ := validateProvenance_ok hvalid
  have hsequence : ¬ ((provenance.sequence : Int) < 0) := Int.not_lt.mpr (Int.natCast_nonneg _)
  cases kind with
  | anchor =>
    simp only [StoredProvenance.decode, StoredProvenance.of, bind_ok_iff]
    refine ⟨_, rfl, (), reject_ok_iff.mpr hsequence, none, rfl, _, requiredStoredValue_of hversion id _, _,
      parseStoredTimestamp_of hyears.1 id _, _, parseStoredTimestamp_of hyears.2.1 id _, _,
      requiredStoredValue_of hsigner.1 id _, _, requiredStoredValue_of hdigest id _, _,
      parseStoredTimestamp_of hyears.2.2 id _, rfl⟩
  | method =>
    have htimes : methodTimes platform .method id (.of platform provenance) =
        .ok (some (provenance.createdAt, provenance.importedAt)) := by
      simp only [methodTimes, StoredProvenance.of, bind_ok_iff]
      exact ⟨_, parseStoredTimestamp_of hyears.1 id _, _, parseStoredTimestamp_of hyears.2.2 id _, rfl⟩
    simp only [StoredProvenance.decode, StoredProvenance.of, bind_ok_iff]
    exact ⟨_, rfl, (), reject_ok_iff.mpr hsequence, _, htimes, _, requiredStoredValue_of hversion id _, _, rfl, _,
      parseStoredTimestamp_of hyears.2.1 id _, _, requiredStoredValue_of hsigner.1 id _, _,
      requiredStoredValue_of hdigest id _, _, rfl, rfl⟩

variable {anchor : TrustAnchor}

theorem readAnchor_anchorRow (h : anchor.InYears) (ht : t.InYears) (stored : StoredProvenance) :
    readAnchor platform (anchorRow platform anchor t stored) = .ok { anchor with syncedAt := t } := by
  simp only [readAnchor, anchorRow, bind_ok_iff]
  exact ⟨_, by cases anchor.anchorType <;> rfl, _, by cases anchor.source <;> rfl, _, parseOptionalStoredTimestamp_of h.1 _ _, _,
    parseOptionalStoredTimestamp_of h.2.1 _ _, _, parseStoredTimestamp_of ht _ _, rfl⟩

variable {method : OpenBadgeVerificationMethod N}

theorem mapOpenBadgeKeyStrict_methodRow (h : method.InYears) (ht : t.InYears)
    (stored : StoredProvenance) :
    mapOpenBadgeKeyStrict platform (methodRow platform method t stored) = .ok { method with syncedAt := t } := by
  simp only [mapOpenBadgeKeyStrict, methodRow, platform.fromJson_toJson, bind_ok_iff]
  exact ⟨_, rfl, _, by cases method.source <;> rfl, _, parseOptionalStoredTimestamp_of h.1 _ _, _,
    parseOptionalStoredTimestamp_of h.2.1 _ _, _, parseStoredTimestamp_of ht _ _, rfl⟩

/-! ## One record -/

theorem AdmittedAnchor.syncedAt (h : AdmittedAnchor platform provenance anchor) :
    anchor.syncedAt = provenance.createdAt := by
  have hcheck := h.2.2
  unfold validateAnchor at hcheck
  simp only [reject_bind_ok_iff, not_not] at hcheck
  exact hcheck.2.2.1

theorem isObject_of_validateMethod (h : validateMethod method = .ok ()) : isObject method.document = true := by
  unfold validateMethod at h
  simp only [reject_bind_ok_iff] at h
  obtain ⟨-, -, h⟩ := h
  cases hdoc : method.document with
  | obj members => rfl
  | null | bool b | num n | str s | arr values => rw [hdoc] at h; cases h

variable {clock : Clock} {a : Applied N}

theorem mapTrustAnchorRecord_governed (h : Sound platform a) (htimely : Timely clock a.provenance)
    (hanchor : anchor ∈ a.anchors) :
    mapTrustAnchorRecord platform clock (anchorRow platform anchor a.provenance.createdAt (.of platform a.provenance)) =
      .ok ⟨anchor, some a.provenance⟩ := by
  have hadmitted := h.admitted.admittedAnchors anchor hanchor
  have hread : readAnchor platform (anchorRow platform anchor a.provenance.createdAt (.of platform a.provenance)) =
      .ok anchor := by
    rw [← hadmitted.syncedAt]
    exact readAnchor_anchorRow (h.anchors anchor hanchor) (h.anchors anchor hanchor).2.2 _
  have hvalid : validateTrustPackage platform clock a.provenance [anchor] ([] : List (OpenBadgeVerificationMethod N)) =
      .ok () :=
    validateTrustPackage_ok_iff.mpr ⟨h.admitted.wellFormed, htimely, by simp, nodup_nil, by simpa using hadmitted,
      nodup_singleton _⟩
  simp only [mapTrustAnchorRecord, bind_ok_iff]
  exact ⟨_, hread, _, decode_of h.provenance h.admitted.wellFormed _ _, (), hvalid, rfl⟩

theorem mapTrustAnchorRecord_legacy (h : anchor.InYears) :
    mapTrustAnchorRecord platform clock (anchorRow platform anchor anchor.syncedAt .legacy) = .ok ⟨anchor, none⟩ := by
  simp only [mapTrustAnchorRecord, bind_ok_iff]
  exact ⟨_, readAnchor_anchorRow h h.2.2 .legacy, _, rfl, (), rfl, rfl⟩

theorem mapOpenBadgeTrustRecord_governed (h : Sound platform a) (htimely : Timely clock a.provenance)
    (hmethod : method ∈ a.methods) :
    mapOpenBadgeTrustRecord platform clock
        (methodRow platform method a.provenance.createdAt (.of platform a.provenance)) =
      .ok ⟨{ method with syncedAt := a.provenance.createdAt }, some a.provenance⟩ := by
  have hadmitted := h.admitted.admittedMethods method hmethod
  have hobject : ¬ ((StoredProvenance.of platform a.provenance).domain.isSome = true ∧
      isObject method.document = false) := by
    rw [isObject_of_validateMethod hadmitted.2.2]
    simp
  have hvalid : validateOpenBadgePackage clock a.provenance [{ method with syncedAt := a.provenance.createdAt }] =
      .ok () :=
    validateOpenBadgePackage_ok_iff.mpr
      ⟨h.admitted.wellFormed, htimely, forall_mem_singleton.mpr hadmitted, nodup_singleton _⟩
  simp only [mapOpenBadgeTrustRecord, bind_ok_iff]
  refine ⟨_, mapOpenBadgeKeyStrict_methodRow (h.methods method hmethod) h.provenance.1 _, (),
    reject_ok_iff.mpr hobject, _, decode_of h.provenance h.admitted.wellFormed _ _, (), ?_, rfl⟩
  exact reject_bind_ok_iff.mpr ⟨fun hne => hne rfl, hvalid⟩

theorem mapOpenBadgeTrustRecord_legacy (h : method.InYears) :
    mapOpenBadgeTrustRecord platform clock (methodRow platform method method.syncedAt .legacy) = .ok ⟨method, none⟩ := by
  simp only [mapOpenBadgeTrustRecord, bind_ok_iff]
  exact ⟨_, mapOpenBadgeKeyStrict_methodRow h h.2.2 .legacy, (), reject_ok_iff.mpr (by rintro ⟨⟨⟩, -⟩), _, rfl, (),
    rfl, rfl⟩

/-! ## Readers -/

/-- The readings that a reader makes. -/
def ReaderClock.Reads (clock : ReaderClock) (c : Clock) : Prop :=
  (∃ id, c = clock.record id) ∨ ∃ domain, c = clock.package domain

/-- The clock has not gone backwards since the applications, and no stored package has expired. -/
structure ReaderClock.Follows (clock : ReaderClock) (history : History N) : Prop where
  now : ∀ c, clock.Reads c → ∀ a ∈ history.applied, a.clock.now ≤ c.now
  later : ∀ c, clock.Reads c → c.now ≤ c.later
  unexpired : ∀ c, clock.Reads c → ∀ domain a, (history.domain domain).getLast? = some a →
    c.later ≤ a.provenance.expiresAt

/-- The application whose package is in force in a domain. -/
def History.InForce (history : History N) (a : Applied N) : Prop :=
  (history.domain a.provenance.trustDomain).getLast? = some a

theorem History.InForce.mem (h : history.InForce a) : a ∈ history.applied :=
  mem_of_mem_filter (mem_of_getLast? h)

section

variable {reader : ReaderClock} (h : Kept platform history) (hclock : reader.Follows history) (ha : history.InForce a)

include h hclock ha

/-- A package in force is timely at every reading. -/
theorem timely_of_follows {c : Clock} (hc : reader.Reads c) : Timely c a.provenance := by
  have hsound := h.sound a ha.mem
  have hunexpired := hclock.unexpired c hc _ a ha
  exact hsound.admitted.timely.mono (hclock.now c hc a ha.mem)
    (Instant.exists_later (by decide) ((hclock.later c hc).trans hunexpired) hsound.provenance.2.1) hunexpired

/-- A package in force is loaded. -/
theorem load_of_follows :
    loadOpenBadgePackageProvenance platform (reader.package a.provenance.trustDomain) a.provenance.trustDomain
      history.tables = .ok (some a.provenance) := by
  have hc : reader.Reads (reader.package a.provenance.trustDomain) := .inr ⟨_, rfl⟩
  have hrow : history.tables.package a.provenance.trustDomain = some a.row := by
    rw [h.tracked.last, ha]
    rfl
  exact ((h.tracked.settled a ha.mem).load_iff hrow (hclock.now _ hc a ha.mem) (hclock.later _ hc)
    (hclock.unexpired _ hc _ a ha)).mpr (h.sound a ha.mem).provenance

end

/-- The packages of records are in force. -/
theorem checkPackageStates_ok {clock : Str → Clock} {kind : RecordKind} {tables : Tables}
    {states : List (Str × TrustPackageProvenance)} {records : List (Str × Option TrustPackageProvenance)}
    (hstates : ∀ d p, SortedMap.lookup d states = some p →
      loadOpenBadgePackageProvenance platform (clock d) d tables = .ok (some p))
    (hrecords : ∀ id p, (id, some p) ∈ records →
      loadOpenBadgePackageProvenance platform (clock p.trustDomain) p.trustDomain tables = .ok (some p)) :
    checkPackageStates platform clock kind tables states records = .ok () := by
  induction records generalizing states with
  | nil => rfl
  | cons record rest ih =>
    obtain ⟨id, provenance⟩ := record
    have hrest := fun id p hmem => hrecords id p (mem_cons_of_mem _ hmem)
    cases provenance with
    | none => exact ih hstates hrest
    | some p =>
      have hload := hrecords id p mem_cons_self
      have hstate : packageState platform clock kind tables states id p.trustDomain = .ok p := by
        unfold packageState
        cases hlookup : SortedMap.lookup p.trustDomain states with
        | none =>
          show (loadOpenBadgePackageProvenance platform (clock p.trustDomain) p.trustDomain tables >>= _) = _
          rw [hload]
          rfl
        | some q =>
          have hq := hstates _ q hlookup
          rw [hload] at hq
          cases hq
          rfl
      rw [checkPackageStates, hstate]
      refine reject_bind_ok_iff.mpr ⟨fun hne => hne rfl, ih ?_ hrest⟩
      intro d q hlookup
      unfold SortedMap.lookup at hlookup
      split at hlookup
      · next hd =>
          cases hlookup
          exact hd ▸ hload
      · exact hstates d q hlookup

/-- A record and the row it was read from. -/
inductive Entry (platform : Platform N) (layout : Layout N α β) (history : History N) {ρ : Type} (legacyRecord : α → ρ)
    (record : Applied N → α → ρ) : Row β → ρ → Prop
  | legacy (x : α) (years : layout.InYears x) :
      Entry platform layout history legacyRecord record (layout.render x (layout.syncedAt x) .legacy) (legacyRecord x)
  | governed (a : Applied N) (x : α) (inForce : history.InForce a) (mem : x ∈ layout.items a) :
      Entry platform layout history legacyRecord record (layout.row platform a x) (record a x)

/-- A row of a table is a record without package columns or one of a package in force. -/
theorem Holds.cases (h : Holds platform layout history rows) {row : Row β} (hrow : row ∈ rows) :
    (∃ x, layout.InYears x ∧ row = layout.render x (layout.syncedAt x) .legacy) ∨
      ∃ a x, history.InForce a ∧ x ∈ layout.items a ∧ row = layout.row platform a x := by
  cases hdomain : row.provenance.domain with
  | none => exact .inl (h.legacy row hrow hdomain)
  | some d =>
    have hmem : row ∈ rows.filter (fun r => r.provenance.domain = some d) :=
      mem_filter.mpr ⟨hrow, decide_eq_true hdomain⟩
    rw [h.governed d] at hmem
    cases hlast : (history.domain d).getLast? with
    | none =>
      rw [hlast] at hmem
      exact nomatch hmem
    | some a =>
      rw [hlast] at hmem
      have hd : a.provenance.trustDomain = d := Option.some.inj ((domain_governed hmem).symm.trans hdomain)
      obtain ⟨x, hx, rfl⟩ := mem_map.mp hmem
      refine .inr ⟨a, x, ?_, hx, rfl⟩
      unfold History.InForce
      rw [hd]
      exact hlast

section

variable {ρ : Type} (legacyRecord : α → ρ) (record : Applied N → α → ρ) (readRow : Row β → Exec Error ρ)
  (provenance : ρ → Option TrustPackageProvenance) (rowOf : ρ → Row β) {select : Row β → Bool}

/-- The selected rows of a domain are those of its package. -/
theorem Holds.rows_of_domain (h : Holds platform layout history rows) (ha : history.InForce a) :
    (rows.filter select).filter (fun row => row.provenance.domain = some a.provenance.trustDomain) =
      ((layout.items a).filter (fun x => select (layout.row platform a x))).map (layout.row platform a) := by
  have hswap : (rows.filter select).filter (fun row => row.provenance.domain = some a.provenance.trustDomain) =
      (rows.filter (fun row => row.provenance.domain = some a.provenance.trustDomain)).filter select := by
    rw [filter_filter, filter_filter]
    exact filter_congr (fun row _ => Bool.and_comm _ _)
  rw [hswap, h.governed, ha]
  show (layout.governed platform a).filter select = _
  rw [Layout.governed, filter_map]
  rfl

/-- **The rows of a table that a query selects, read one by one.** The records stand for these rows, their packages are
    in force, and those of a domain are the ones of its package. -/
theorem Holds.readAll (h : Holds platform layout history rows) (select : Row β → Bool)
    (hlegacy : ∀ x, layout.InYears x → readRow (layout.render x (layout.syncedAt x) .legacy) = .ok (legacyRecord x))
    (hgoverned : ∀ a x, history.InForce a → x ∈ layout.items a → readRow (layout.row platform a x) = .ok (record a x))
    (hrowLegacy : ∀ x, layout.render x (layout.syncedAt x) .legacy = rowOf (legacyRecord x))
    (hrow : ∀ a x, history.InForce a → x ∈ layout.items a → layout.row platform a x = rowOf (record a x))
    (hnone : ∀ x, provenance (legacyRecord x) = none) (hsome : ∀ a x, provenance (record a x) = some a.provenance) :
    ∃ records, (rows.filter select).mapM readRow = .ok records ∧ records.map rowOf = rows.filter select ∧
      (∀ r ∈ records, ∀ p, provenance r = some p → ∃ a, history.InForce a ∧ a.provenance = p) ∧
      ∀ a, history.InForce a →
        records.filter (fun r => (provenance r).map TrustPackageProvenance.trustDomain = some a.provenance.trustDomain) =
          ((layout.items a).filter (fun x => select (layout.row platform a x))).map (record a) := by
  obtain ⟨records, hmap, hread⟩ : ∃ records, (rows.filter select).mapM readRow = .ok records ∧
      List.Forall₂ (fun row r => readRow row = .ok r ∧ Entry platform layout history legacyRecord record row r)
        (rows.filter select) records := by
    refine Result.exists_mapM_ok (fun row hrow => ?_)
    rcases h.cases (mem_of_mem_filter hrow) with ⟨x, hx, rfl⟩ | ⟨a, x, ha, hx, rfl⟩
    · exact ⟨_, hlegacy x hx, .legacy x hx⟩
    · exact ⟨_, hgoverned a x ha hx, .governed a x ha hx⟩
  refine ⟨records, hmap, (eq_map_of_forall₂ hread.flip ?_).symm, fun r hr p hp => ?_, fun a ha => ?_⟩
  · rintro r - row ⟨-, hentry⟩
    cases hentry with
    | legacy x _ => exact hrowLegacy x
    | governed a x ha hx => exact hrow a x ha hx
  · obtain ⟨row, -, -, hentry⟩ := exists_of_mem_forall₂ hread.flip hr
    cases hentry with
    | legacy x _ =>
      rw [hnone] at hp
      cases hp
    | governed a x ha _ =>
      rw [hsome] at hp
      exact ⟨a, ha, Option.some.inj hp⟩
  · have hfiltered := rel_filter (p := fun row => decide (row.provenance.domain = some a.provenance.trustDomain))
      (q := fun r => decide ((provenance r).map TrustPackageProvenance.trustDomain = some a.provenance.trustDomain)) (by
        rintro row r ⟨-, hentry⟩
        cases hentry with
        | legacy x _ => simp [layout.render_provenance, hnone, StoredProvenance.legacy]
        | governed b x _ _ => simp [Layout.row, layout.render_provenance, hsome, StoredProvenance.of]) hread
    rw [h.rows_of_domain ha, forall₂_map_left_iff] at hfiltered
    refine eq_map_of_forall₂ hfiltered ?_
    rintro x hx r ⟨hr, -⟩
    rw [hgoverned a x ha (mem_of_mem_filter hx)] at hr
    exact (Except.ok.inj hr).symm

variable {provenance} in
/-- Records whose packages are in force pass the check of the packages. -/
theorem Kept.checkPackageStates_ok (h : Kept platform history) {reader : ReaderClock}
    (hclock : reader.Follows history) {kind : RecordKind} {id : ρ → Str} {records : List ρ}
    (hrecords : ∀ r ∈ records, ∀ p, provenance r = some p → ∃ a, history.InForce a ∧ a.provenance = p) :
    checkPackageStates platform reader.package kind history.tables []
      (records.map (fun r => (id r, provenance r))) = .ok () := by
  refine Storage.checkPackageStates_ok (fun _ _ h => nomatch h) (fun id p hmem => ?_)
  obtain ⟨r, hr, heq⟩ := mem_map.mp hmem
  obtain ⟨a, ha, rfl⟩ := hrecords r hr p (Prod.mk.inj heq).2
  exact load_of_follows h hclock ha

end

variable (platform) in
/-- The row that a record stands for. -/
def TrustAnchorRecord.row (r : TrustAnchorRecord) : Row AnchorColumns :=
  anchorRow platform r.anchor r.anchor.syncedAt (r.provenance.elim .legacy (.of platform))

variable (platform) in
def OpenBadgeTrustRecord.row (r : OpenBadgeTrustRecord N) : Row MethodColumns :=
  methodRow platform r.method r.method.syncedAt (r.provenance.elim .legacy (.of platform))

/-- The anchors a query asks for. -/
def TrustAnchor.Matches (anchorType : TrustAnchorType) (jurisdiction : Option Str) (anchor : TrustAnchor) : Bool :=
  anchor.anchorType = anchorType && jurisdiction.all (fun j => anchor.jurisdiction = j)

theorem TrustAnchorType.text_injective {s t : TrustAnchorType} (h : s.text = t.text) : s = t := by
  cases s <;> cases t <;> first | rfl | exact absurd h (by decide)

variable {reader : ReaderClock}

/-! ## A package replaces one domain -/

variable (platform) in
/-- The records of the package's domain are those of the package, and everything else is as it was. -/
structure DomainReplaced (provenance : TrustPackageProvenance) (anchors : List TrustAnchor)
    (methods : List (OpenBadgeVerificationMethod N)) (tables tables' : Tables) : Prop where
  anchors : tables'.trustAnchors.filter (fun r => r.provenance.domain = some provenance.trustDomain) =
    anchors.map (fun x => anchorRow platform x provenance.createdAt (.of platform provenance))
  methods : tables'.openBadgeKeys.filter (fun r => r.provenance.domain = some provenance.trustDomain) =
    methods.map (fun x => methodRow platform x provenance.createdAt (.of platform provenance))
  otherAnchors : tables'.trustAnchors.filter (fun r => r.provenance.domain ≠ some provenance.trustDomain) =
    tables.trustAnchors.filter (fun r => r.provenance.domain ≠ some provenance.trustDomain)
  otherMethods : tables'.openBadgeKeys.filter (fun r => r.provenance.domain ≠ some provenance.trustDomain) =
    tables.openBadgeKeys.filter (fun r => r.provenance.domain ≠ some provenance.trustDomain)
  package : ∃ next recovery, tables'.package provenance.trustDomain = some (packageRow platform provenance next recovery)
  otherPackages : ∀ d, provenance.trustDomain ≠ d → tables'.package d = tables.package d

/-- Records with a domain and the packages are as they were. -/
structure GovernedKept (tables tables' : Tables) : Prop where
  anchors : tables'.trustAnchors.filter (fun r => r.provenance.domain.isSome) =
    tables.trustAnchors.filter (fun r => r.provenance.domain.isSome)
  methods : tables'.openBadgeKeys.filter (fun r => r.provenance.domain.isSome) =
    tables.openBadgeKeys.filter (fun r => r.provenance.domain.isSome)
  packages : tables'.trustPackages = tables.trustPackages

variable (platform) in
/-- What the readers return: every row that is selected, and of each domain what was applied last. -/
structure ReadsBack (reader : ReaderClock) (history : History N) : Prop where
  anchors : ∀ anchorType jurisdiction, ∃ records,
    getTrustAnchorRecords platform reader anchorType jurisdiction history.tables = .ok records ∧
    records.map (TrustAnchorRecord.row platform) = history.tables.trustAnchors.filter (fun row =>
      row.body.anchorType = anchorType.text && jurisdiction.all (fun j => row.body.jurisdiction = j)) ∧
    ∀ a, history.InForce a →
      records.filter (fun r => r.provenance.map TrustPackageProvenance.trustDomain = some a.provenance.trustDomain) =
        (a.anchors.filter (TrustAnchor.Matches anchorType jurisdiction)).map (fun x => ⟨x, some a.provenance⟩)
  methods : ∃ records, getOpenBadgeTrustRecords platform reader history.tables = .ok records ∧
    records.map (OpenBadgeTrustRecord.row platform) = history.tables.openBadgeKeys ∧
    ∀ a, history.InForce a →
      records.filter (fun r => r.provenance.map TrustPackageProvenance.trustDomain = some a.provenance.trustDomain) =
        a.methods.map (fun x => ⟨{ x with syncedAt := a.provenance.createdAt }, some a.provenance⟩)

/-- **Anchors and methods are read back as they were applied and stored**, methods with the creation time of their
    package. -/
theorem Kept.readsBack (h : Kept platform history) (hclock : reader.Follows history) :
    ReadsBack platform reader history where
  anchors := by
    intro anchorType jurisdiction
    have hrow : ∀ a x, history.InForce a → x ∈ a.anchors →
        anchorRow platform x a.provenance.createdAt (.of platform a.provenance) =
          TrustAnchorRecord.row platform ⟨x, some a.provenance⟩ := by
      intro a x ha hx
      rw [← ((h.sound a ha.mem).admitted.admittedAnchors x hx).syncedAt]
      rfl
    obtain ⟨records, hmap, hrows, hpackages, hdomain⟩ := h.anchors.readAll (fun x => TrustAnchorRecord.mk x none)
      (fun a x => ⟨x, some a.provenance⟩) (fun row => mapTrustAnchorRecord platform (reader.record row.id) row)
      TrustAnchorRecord.provenance (TrustAnchorRecord.row platform)
      (fun row => row.body.anchorType = anchorType.text && jurisdiction.all (fun j => row.body.jurisdiction = j))
      (fun x hx => mapTrustAnchorRecord_legacy hx)
      (fun a x ha hx =>
        mapTrustAnchorRecord_governed (h.sound a ha.mem) (timely_of_follows h hclock ha (.inl ⟨_, rfl⟩)) hx)
      (fun _ => rfl) hrow (fun _ => rfl) (fun _ _ => rfl)
    refine ⟨records, ?_, hrows, fun a ha => ?_⟩
    · exact bind_ok_iff.mpr ⟨records, hmap,
        bind_ok_iff.mpr ⟨(), h.checkPackageStates_ok hclock hpackages, rfl⟩⟩
    · rw [hdomain a ha]
      refine congrArg _ (filter_congr (fun x _ => ?_))
      show (decide (x.anchorType.text = anchorType.text) && _) = (decide (x.anchorType = anchorType) && _)
      rw [decide_eq_decide.mpr ⟨TrustAnchorType.text_injective, congrArg _⟩]
      rfl
  methods := by
    obtain ⟨records, hmap, hrows, hpackages, hdomain⟩ := h.methods.readAll (fun x => OpenBadgeTrustRecord.mk x none)
      (fun a x => ⟨{ x with syncedAt := a.provenance.createdAt }, some a.provenance⟩)
      (fun row => mapOpenBadgeTrustRecord platform (reader.record row.id) row) OpenBadgeTrustRecord.provenance
      (OpenBadgeTrustRecord.row platform) (fun _ => true) (fun x hx => mapOpenBadgeTrustRecord_legacy hx)
      (fun a x ha hx =>
        mapOpenBadgeTrustRecord_governed (h.sound a ha.mem) (timely_of_follows h hclock ha (.inl ⟨_, rfl⟩)) hx)
      (fun _ => rfl) (fun _ _ _ _ => rfl) (fun _ => rfl) (fun _ _ => rfl)
    rw [filter_eq_self.mpr (fun _ _ => rfl)] at hmap hrows
    refine ⟨records, ?_, hrows, fun a ha => ?_⟩
    · exact bind_ok_iff.mpr ⟨records, hmap,
        bind_ok_iff.mpr ⟨(), h.checkPackageStates_ok hclock hpackages, rfl⟩⟩
    · rw [hdomain a ha]
      exact congrArg _ (filter_eq_self.mpr (fun _ _ => rfl))

theorem domainReplaced_replaced (provenance : TrustPackageProvenance) (anchors : List TrustAnchor)
    (methods : List (OpenBadgeVerificationMethod N)) (next recovery : Option Str) (tables : Tables) :
    DomainReplaced platform provenance anchors methods tables
      (replaced platform provenance anchors methods next recovery tables) where
  anchors := (filter_replaced (by simp [anchorRow, StoredProvenance.of])).1
  methods := (filter_replaced (by simp [methodRow, StoredProvenance.of])).1
  otherAnchors := (filter_replaced (by simp [anchorRow, StoredProvenance.of])).2
  otherMethods := (filter_replaced (by simp [methodRow, StoredProvenance.of])).2
  package := ⟨next, recovery, find?_upsertPackage_self (packageRow platform provenance next recovery) _⟩
  otherPackages := fun _ hd => find?_upsertPackage_of_ne hd _

variable (platform) in
/-- What holds after any calls, of every further call and of the readers. -/
structure Replacement (history : History N) : Prop where
  failed : ∀ (call : Call N) e tables', call.perform platform history.tables = (.error e, tables') →
    tables' = history.tables
  applied : ∀ clock provenance anchors methods policy tables',
    (Call.apply clock provenance anchors methods policy).perform platform history.tables = (.ok (), tables') →
    DomainReplaced platform provenance anchors methods history.tables tables'
  storedAnchor : ∀ anchor tables', (Call.storeTrustAnchor anchor).perform platform history.tables = (.ok (), tables') →
    GovernedKept history.tables tables'
  storedMethod : ∀ method tables', (Call.storeOpenBadgeKey method).perform platform history.tables = (.ok (), tables') →
    GovernedKept history.tables tables'
  read : ∀ reader : ReaderClock, reader.Follows history → ReadsBack platform reader history

/-- **An application replaces exactly one domain, and what was applied is read back**, after any calls whose times have
    four-digit years. -/
theorem package_replaces_domain {calls : List (Call N)} (hyears : ∀ call ∈ calls, call.InYears) :
    Replacement platform (History.of platform calls) := by
  have hkept : Kept platform (History.of platform calls) := kept_of hyears
  have hok : ∀ {call : Call N} {tables'}, call.perform platform (History.of platform calls).tables = (.ok (), tables') →
      call.Done platform (History.of platform calls).tables tables' := by
    intro call tables' hrun
    rcases perform_cases platform call (History.of platform calls).tables with ⟨e, hfails⟩ | ⟨tables, hsucceeds, hdone⟩
    · rw [hfails] at hrun
      cases hrun
    · rw [hsucceeds] at hrun
      cases hrun
      exact hdone
  refine ⟨?_, ?_, ?_, ?_, ?_⟩
  · intro call e tables' hrun
    rcases perform_cases platform call (History.of platform calls).tables with ⟨e', hfails⟩ | ⟨tables, hsucceeds, -⟩
    · rw [hfails] at hrun
      cases hrun
      rfl
    · rw [hsucceeds] at hrun
      cases hrun
  · intro clock provenance anchors methods policy tables' hrun
    obtain ⟨next, recovery, -, rfl⟩ := (hok hrun).replaces
    exact domainReplaced_replaced provenance anchors methods next recovery _
  · intro anchor tables' hrun
    obtain ⟨hanchors, hmethods, hpackages⟩ := hok hrun
    exact ⟨(storeLegacy_ok hkept.anchors.keyed rfl hanchors).governed, by rw [hmethods], hpackages⟩
  · intro method tables' hrun
    obtain ⟨hmethods, hanchors, hpackages⟩ := hok hrun
    exact ⟨by rw [hanchors], (storeLegacy_ok hkept.methods.keyed rfl hmethods).governed, hpackages⟩
  · intro reader hclock
    exact hkept.readsBack hclock

/-! ### A package that replaces another -/

def sampleAnchor (id : String) (syncedAt : DateTime) : TrustAnchor where
  id := id.toList
  anchorType := .iaca
  jurisdiction := "US".toList
  subject := none
  issuer := none
  serialNumber := none
  notBefore := none
  notAfter := some epoch
  certificateDer := Str.bytes id.toList
  certificateHash := id.toList
  source := .usbImport
  syncedAt := syncedAt

/-- One second later. -/
def secondOne : DateTime := ⟨1, 0, by decide, by decide⟩

/-- Two seconds later. -/
def secondTwo : DateTime := ⟨2, 0, by decide, by decide⟩

/-- The package of an anchor, and the next one of its domain, with another anchor. -/
def samplePackages : List (Call Int) :=
  [.apply sampleClock { sampleProvenance with expiresAt := secondTwo } [sampleAnchor "c" epoch] [] none,
    .apply sampleClock { sampleProvenance with
      sequence := 2
      packageVersion := "2".toList
      createdAt := secondOne
      expiresAt := secondTwo
      packageDigest := List.replicate 64 '1' } [sampleAnchor "e" secondOne] [] none]

def sampleReader : ReaderClock := ⟨fun _ => sampleClock, fun _ => sampleClock⟩

/-- Both packages are applied, the anchor of the first gives way to that of the second, and a reading at the same time
    returns it. -/
theorem package_replaces_domain_samplePackages :
    (History.of samplePlatform samplePackages).applied.length = 2 ∧
      (History.of samplePlatform samplePackages).tables.trustAnchors.map Row.id = ["e".toList] ∧
      sampleReader.Follows (History.of samplePlatform samplePackages) ∧
      Replacement samplePlatform (History.of samplePlatform samplePackages) := by
  have htimes : (History.of samplePlatform samplePackages).applied.map (fun a => (a.clock.now, a.provenance.expiresAt)) =
      List.replicate 2 (epoch, secondTwo) := by decide
  have happlied : ∀ a ∈ (History.of samplePlatform samplePackages).applied,
      a.clock.now = epoch ∧ a.provenance.expiresAt = secondTwo := by
    intro a ha
    have hmem : (a.clock.now, a.provenance.expiresAt) ∈ List.replicate 2 (epoch, secondTwo) := by
      rw [← htimes]
      exact mem_map.mpr ⟨a, ha, rfl⟩
    exact Prod.mk.inj (eq_of_mem_replicate hmem)
  have hreads : ∀ c, sampleReader.Reads c → c = sampleClock := by
    rintro c (⟨id, rfl⟩ | ⟨domain, rfl⟩)
    · rfl
    · rfl
  refine ⟨by decide, by decide, ⟨?_, ?_, ?_⟩, package_replaces_domain ?_⟩
  · intro c hc a ha
    rw [hreads c hc, (happlied a ha).1]
    rfl
  · intro c hc
    rw [hreads c hc]
    rfl
  · intro c hc domain a ha
    have hmem : a ∈ (History.of samplePlatform samplePackages).applied :=
      mem_of_mem_filter (mem_of_getLast? ha)
    rw [hreads c hc, (happlied a hmem).2]
    decide
  · intro call hcall
    rcases mem_pair.mp hcall with rfl | rfl <;>
    · refine ⟨⟨by decide, by decide, by decide⟩, ?_, by simp⟩
      intro anchor hanchor
      rw [mem_singleton.mp hanchor]
      exact ⟨by simp [sampleAnchor], by simp [sampleAnchor]; decide, by decide⟩

end MartyCore.Storage
