import MartyCore.Iso18013.Lifecycle

/-!
# `Iso18013.Transcript` — the engagement bytes of the two parties

A reader does not keep the bytes of an engagement: it decodes them, and its session encodes what it has kept. What it has
kept is less than what was there. A BLE method is reduced to one identifier and comes back as a peripheral server mode, the
options of an NFC method come back as the default ones, and the key is encoded anew (`reencoded`). So the reader's bytes are
the device's exactly if the device's were those of a plain engagement (`Plain`), as written by this encoder.

The other way round, an engagement that is encoded and decoded keeps its version, key and transports unless its key is not
on the curve, a transport carries parameters that are not encoded (`Bare`), or the encoding is too long for the decoder.
-/

namespace MartyCore.Iso18013

open Result DeviceEngagement List

variable {κ : Type} {platform : Platform κ} {isomdl : Isomdl} {p256 : P256 κ}

/-! ## Keys -/

theorem coseKeyToSec1_ok {key : CoseKey} {publicKey : Bytes} (h : coseKeyToSec1 p256 key = .ok publicKey) :
    Uncompressed publicKey ∧ coseKeyFromSec1 publicKey = .ok key := by
  unfold coseKeyToSec1 at h
  split at h
  · rename_i x y
    split at h
    · rename_i hlength
      obtain ⟨-, -, h⟩ := of_bind h
      cases h
      have hform : Uncompressed (4 :: (x ++ y)) := ⟨by simp [hlength.1, hlength.2], rfl⟩
      refine ⟨hform, reject_bind_ok_iff.mpr ⟨by simp [hform.1, hform.2], ?_⟩⟩
      show Except.ok (CoseKey.ec2 .p256 ((x ++ y).take 32) (.value (((x ++ y).drop 32).take 32))) = _
      rw [take_left' hlength.1, drop_left' hlength.1, take_of_length_le (Nat.le_of_eq hlength.2)]
    · cases h
  · cases h

/-- A key that was taken apart is put together again, if it is on the curve. -/
theorem coseKeyToSec1_ok_iff {key : CoseKey} {publicKey result : Bytes} (h : coseKeyFromSec1 publicKey = .ok key) :
    coseKeyToSec1 p256 key = .ok result ↔ p256.validate publicKey = .ok () ∧ result = publicKey := by
  obtain ⟨hform, h⟩ := of_reject h
  cases h
  simp only [ne_eq, not_or, not_not] at hform
  obtain ⟨hlength, hhead⟩ := hform
  cases publicKey with
  | nil => cases hhead
  | cons first rest =>
    obtain rfl : first = 4 := by simpa using hhead
    have hrest : rest.length = 64 := by simpa using hlength
    have hlast : (rest.drop 32).take 32 = rest.drop 32 := take_of_length_le (by simp [hrest])
    have hwhole : rest.take 32 ++ (rest.drop 32).take 32 = rest := by
      rw [hlast, take_append_drop]
    have hsizes : (rest.take 32).length = 32 ∧ ((rest.drop 32).take 32).length = 32 := by simp [hrest]
    show (if (rest.take 32).length = 32 ∧ ((rest.drop 32).take 32).length = 32 then
      liftCrypto (validateP256PublicKey p256 (4 :: (rest.take 32 ++ (rest.drop 32).take 32))) >>= fun _ =>
        .ok (4 :: (rest.take 32 ++ (rest.drop 32).take 32)) else _) = _ ↔ _
    rw [if_pos hsizes, hwhole, bind_ok_iff]
    constructor
    · rintro ⟨⟨⟩, hvalid, hresult⟩
      exact ⟨mapError_ok_iff.mp (mapError_ok_iff.mp hvalid), (Except.ok.inj hresult).symm⟩
    · rintro ⟨hvalid, rfl⟩
      exact ⟨(), mapError_ok_iff.mpr (mapError_ok_iff.mpr hvalid), rfl⟩

/-! ## Methods -/

/-- What is left of a method when it has been decoded and encoded. -/
def reencodedMethod (isomdl : Isomdl) : DeviceRetrievalMethod → DeviceRetrievalMethod
  | .ble options => .ble ⟨options.uuid.map (fun uuid => ⟨uuid, none⟩), none⟩
  | .nfc _ => .nfc isomdl.defaultNfcOptions
  | .wifi options => .wifi options

/-- The methods that come out as they went in. -/
def PlainMethod (isomdl : Isomdl) (method : DeviceRetrievalMethod) : Prop :=
  (∃ uuid, method = .ble ⟨some ⟨uuid, none⟩, none⟩) ∨ method = .nfc isomdl.defaultNfcOptions

theorem serviceUuid_hyphenated (uuid : Uuid) :
    serviceUuid isomdl ⟨.ble, [("serviceUuid".toList, Str.bytes (isomdl.hyphenated uuid))]⟩ = .ok uuid := by
  show (Result.orFail _ (SortedMap.lookup _ _) >>= _) = _
  show (Result.orFail _ (Str.fromUtf8 _) >>= _) = _
  rw [Str.fromUtf8_bytes]
  show (isomdl.parseStr (isomdl.hyphenated uuid)).mapError _ = _
  rw [isomdl.parseStr_hyphenated]
  rfl

variable {transport : TransportInfo}

variable {method : DeviceRetrievalMethod}

theorem toRetrievalMethod_of_ofRetrievalMethod (h : ofRetrievalMethod isomdl method = .ok transport) :
    toRetrievalMethod isomdl transport = .ok (reencodedMethod isomdl method) := by
  cases method with
  | wifi options => cases h
  | nfc options =>
    cases h
    rfl
  | ble options =>
    obtain ⟨uuid, huuid, h⟩ := of_bind h
    cases h
    rw [orFail_ok_iff] at huuid
    show (serviceUuid isomdl _ >>= _) = _
    rw [serviceUuid_hyphenated, reencodedMethod, huuid]
    rfl

theorem reencodedMethod_eq_iff (h : ofRetrievalMethod isomdl method = .ok transport) :
    reencodedMethod isomdl method = method ↔ PlainMethod isomdl method := by
  cases method with
  | wifi options => cases h
  | nfc options => simp [reencodedMethod, PlainMethod, eq_comm]
  | ble options =>
    obtain ⟨uuid, huuid, -⟩ := of_bind h
    rw [orFail_ok_iff] at huuid
    simp only [reencodedMethod, huuid, PlainMethod, Option.map_some]
    constructor
    · intro heq
      exact .inl ⟨uuid, heq.symm⟩
    · rintro (⟨uuid', heq⟩ | heq)
      · cases heq
        cases huuid
        rfl
      · cases heq

/-! ## From the device's bytes to the reader's -/

/-- **The engagements that a reader encodes as they were.** -/
structure Plain (isomdl : Isomdl) (value : Iso.DeviceEngagement) : Prop where
  key : isomdl.encodeKey value.security.deviceKey.inner = .ok value.security.deviceKey.innerBytes
  methods : ∀ method ∈ retrievalMethods value, PlainMethod isomdl method

/-- What is left of an engagement, with the key's new bytes. -/
def reencoded (isomdl : Isomdl) (value : Iso.DeviceEngagement) (keyBytes : Bytes) : Iso.DeviceEngagement :=
  { value with
    security := ⟨value.security.cipherSuite, ⟨value.security.deviceKey.inner, keyBytes⟩⟩
    deviceRetrievalMethods :=
      NonEmptyVec.maybeNew ((retrievalMethods value).map (reencodedMethod isomdl)) }

theorem maybeNew_retrievalMethods (value : Iso.DeviceEngagement) :
    NonEmptyVec.maybeNew (retrievalMethods value) = value.deviceRetrievalMethods := by
  unfold retrievalMethods
  cases value.deviceRetrievalMethods with
  | none => rfl
  | some methods =>
    obtain ⟨list, hne⟩ := methods
    cases list with
    | nil => exact absurd rfl hne
    | cons method rest => rfl

theorem maybeNew_injective {α : Type} {l l' : List α} (h : NonEmptyVec.maybeNew l = NonEmptyVec.maybeNew l') : l = l' := by
  cases l with
  | nil =>
    cases l' with
    | nil => rfl
    | cons => cases h
  | cons a rest =>
    cases l' with
    | nil => cases h
    | cons a' rest' =>
      injection h with h
      exact congrArg Subtype.val h

variable {value : Iso.DeviceEngagement}

variable {transports : List TransportInfo} {keyBytes : Bytes}

theorem reencoded_eq_iff (hkey : isomdl.encodeKey value.security.deviceKey.inner = .ok keyBytes)
    (htransports : List.Forall₂ (fun method transport => ofRetrievalMethod isomdl method = .ok transport)
      (retrievalMethods value) transports) :
    reencoded isomdl value keyBytes = value ↔ Plain isomdl value := by
  have hmethod : ∀ method ∈ retrievalMethods value,
      (reencodedMethod isomdl method = method ↔ PlainMethod isomdl method) := by
    intro method hmem
    obtain ⟨transport, -, htransport⟩ := exists_of_mem_forall₂ htransports hmem
    exact reencodedMethod_eq_iff htransport
  constructor
  · intro heq
    have hbytes : keyBytes = value.security.deviceKey.innerBytes :=
      congrArg (fun v => v.security.deviceKey.innerBytes) heq
    have hmethods : (retrievalMethods value).map (reencodedMethod isomdl) = retrievalMethods value := by
      apply maybeNew_injective
      rw [maybeNew_retrievalMethods]
      exact congrArg (fun v => v.deviceRetrievalMethods) heq
    refine ⟨by rw [hkey, hbytes], ?_⟩
    intro method hmem
    rw [← hmethod method hmem]
    exact map_inj_left.mp (hmethods.trans (map_id _).symm) method hmem
  · rintro ⟨hplain, hmethods⟩
    have hbytes : keyBytes = value.security.deviceKey.innerBytes := Except.ok.inj (hkey.symm.trans hplain)
    have hmap : (retrievalMethods value).map (reencodedMethod isomdl) = retrievalMethods value := by
      refine (map_inj_left.mpr ?_).trans (map_id _)
      intro method hmem
      exact (hmethod method hmem).mpr (hmethods method hmem)
    rw [reencoded, hmap, maybeNew_retrievalMethods, hbytes]

/-- What an accepted engagement satisfies. -/
structure Accepted (isomdl : Isomdl) (p256 : P256 κ) (value : Iso.DeviceEngagement) (engagement : DeviceEngagement κ) :
    Prop where
  version : value.version = "1.0".toList
  cipherSuite : value.security.cipherSuite = 1
  serverRetrievalMethods : value.serverRetrievalMethods = none
  protocolInfo : value.protocolInfo = none
  deviceKey : coseKeyToSec1 p256 value.security.deviceKey.inner = .ok engagement.deviceKey
  transports : List.Forall₂ (fun method transport => ofRetrievalMethod isomdl method = .ok transport)
    (retrievalMethods value) engagement.transports
  bounds : engagement.validateResourceBounds = .ok ()
  shape : engagement = ⟨value.version, engagement.transports, .qr, engagement.deviceKey, none, none⟩

variable {engagement : DeviceEngagement κ}

theorem fromIso_ok_iff : fromIso isomdl p256 value = .ok engagement ↔ Accepted isomdl p256 value engagement := by
  unfold fromIso
  rw [reject_bind_ok_iff, reject_bind_ok_iff, bind_ok_iff]
  constructor
  · rintro ⟨hversion, hunsupported, deviceKey, hkey, h⟩
    obtain ⟨transports, htransports, h⟩ := of_bind h
    obtain ⟨⟨⟩, hbounds, h⟩ := of_bind h
    cases h
    simp only [ne_eq, not_or, not_not, Bool.not_eq_true, Option.isSome_eq_false_iff, Option.isNone_iff_eq_none]
      at hversion hunsupported
    exact ⟨hversion.1, hversion.2, hunsupported.1, hunsupported.2, hkey, mapM_ok_iff.mp htransports, hbounds, rfl⟩
  · intro h
    refine ⟨by simp [h.version, h.cipherSuite], by simp [h.serverRetrievalMethods, h.protocolInfo], engagement.deviceKey,
      h.deviceKey, ?_⟩
    refine bind_ok_iff.mpr ⟨engagement.transports, mapM_ok_iff.mpr h.transports, ?_⟩
    rw [← h.shape]
    exact bind_ok_iff.mpr ⟨(), h.bounds, rfl⟩

variable {data : Bytes}

theorem fromCbor_ok_iff :
    fromCbor isomdl p256 data = .ok engagement ↔
      data.length ≤ maxDeviceEngagementCborBytes ∧
      ∃ value, isomdl.decode data = .ok (value, data.length) ∧ Accepted isomdl p256 value engagement := by
  unfold fromCbor
  rw [reject_bind_ok_iff, Nat.not_lt, bind_ok_iff]
  constructor
  · rintro ⟨hlength, ⟨value, position⟩, hdecode, h⟩
    obtain ⟨hposition, h⟩ := of_reject h
    refine ⟨hlength, value, ?_, fromIso_ok_iff.mp h⟩
    rw [mapError_ok_iff.mp hdecode, not_not.mp hposition]
  · rintro ⟨hlength, value, hdecode, h⟩
    refine ⟨hlength, (value, data.length), mapError_ok_iff.mpr hdecode, ?_⟩
    exact reject_bind_ok_iff.mpr ⟨not_not.mpr rfl, fromIso_ok_iff.mpr h⟩

variable {methods : List DeviceRetrievalMethod}

theorem forall₂_reencoded
    (h : List.Forall₂ (fun method transport => ofRetrievalMethod isomdl method = .ok transport) methods transports) :
    transports.mapM (toRetrievalMethod isomdl) = .ok (methods.map (reencodedMethod isomdl)) := by
  rw [mapM_ok_iff]
  induction h with
  | nil => exact .nil
  | cons hmethod _ ih => exact .cons (toRetrievalMethod_of_ofRetrievalMethod hmethod) ih

/-- The reader encodes what is left. -/
theorem Accepted.toIso_eq (h : Accepted isomdl p256 value engagement)
    (hkey : isomdl.encodeKey value.security.deviceKey.inner = .ok keyBytes) :
    engagement.toIso isomdl = .ok (reencoded isomdl value keyBytes) := by
  have hversion : engagement.version = "1.0".toList := by
    rw [h.shape]
    exact h.version
  have hdata : engagement.deviceData = none := by rw [h.shape]
  unfold toIso
  rw [h.bounds, ok_bind, Result.reject, if_neg (not_not.mpr hversion), ok_bind, hdata]
  show (coseKeyFromSec1 engagement.deviceKey >>= _) = _
  rw [(coseKeyToSec1_ok h.deviceKey).2, ok_bind, tagKey, hkey]
  show (engagement.transports.mapM (toRetrievalMethod isomdl) >>= _) = _
  rw [forall₂_reencoded h.transports, ok_bind, hversion, ← h.version]
  obtain ⟨version, ⟨cipherSuite, deviceKey⟩, methods, server, info⟩ := value
  obtain rfl := h.cipherSuite
  obtain rfl := h.serverRetrievalMethods
  obtain rfl := h.protocolInfo
  rfl

/-- **The reader's bytes are the device's exactly if these were the encoding of a plain engagement.** -/
theorem toCbor_eq_iff {position : Nat} (hfrom : fromCbor isomdl p256 data = .ok engagement)
    (hdecode : isomdl.decode data = .ok (value, position)) :
    engagement.toCbor isomdl = .ok data ↔ isomdl.encode value = .ok data ∧ Plain isomdl value := by
  obtain ⟨-, value', hdecode', haccepted⟩ := fromCbor_ok_iff.mp hfrom
  rw [hdecode] at hdecode'
  cases hdecode'
  obtain ⟨keyBytes, hkey⟩ := isomdl.encodeKey_ok value.security.deviceKey.inner
  rw [toCbor, haccepted.toIso_eq hkey, ok_bind, mapError_ok_iff, ← reencoded_eq_iff hkey haccepted.transports]
  constructor
  · intro hencode
    -- the decoder returns what was encoded, so both have decoded to the same value
    have hsame := isomdl.decode_of_encode hencode
    rw [hdecode] at hsame
    have heq : reencoded isomdl value keyBytes = value := by
      injection hsame with hsame
      exact (congrArg Prod.fst hsame).symm
    rw [heq] at hencode
    exact ⟨hencode, heq⟩
  · rintro ⟨hencode, heq⟩
    rw [heq]
    exact hencode

/-! ## There and back -/

/-- A transport carries no parameters but the identifier of a BLE service. -/
def Bare (transport : TransportInfo) : Prop :=
  ∀ name, SortedMap.lookup name transport.parameters ≠ none → transport.method = .ble ∧ name = "serviceUuid".toList

/-- The same transport, up to the spelling of its identifier. -/
structure SameTransport (isomdl : Isomdl) (t t' : TransportInfo) : Prop where
  method : t'.method = t.method
  parameters : ∀ name, SortedMap.lookup name t'.parameters = SortedMap.lookup name t.parameters ∨
    (name = "serviceUuid".toList ∧ ∃ uuid, serviceUuid isomdl t = .ok uuid ∧ serviceUuid isomdl t' = .ok uuid)

theorem lookup_single_of_ne {name name' : Str} {value : Bytes} (h : name' ≠ name) :
    SortedMap.lookup name [(name', value)] = none := if_neg h

theorem validateTransport_serviceUuid (uuid : Uuid) :
    validateTransport ⟨.ble, [("serviceUuid".toList, Str.bytes (isomdl.hyphenated uuid))]⟩ = .ok () := by
  refine reject_bind_ok_iff.mpr ⟨by simp [maxTransportParameters], reject_ok_iff.mpr ?_⟩
  rintro ⟨p, hp, hlong⟩
  simp only [mem_singleton] at hp
  subst hp
  have hname : Str.len "serviceUuid".toList = 11 := by decide
  have hvalue := isomdl.length_hyphenated uuid
  rcases hlong with hlong | hlong
  · rw [hname] at hlong
    exact absurd hlong (by decide)
  · rw [hvalue] at hlong
    exact absurd hlong (by decide)

/-- A transport that is encoded comes back as its method and its identifier. -/
theorem ofRetrievalMethod_of_toRetrievalMethod (h : toRetrievalMethod isomdl transport = .ok method) :
    ∃ transport', ofRetrievalMethod isomdl method = .ok transport' ∧ validateTransport transport' = .ok () ∧
      PlainMethod isomdl method ∧ (SameTransport isomdl transport transport' ↔ Bare transport) := by
  unfold toRetrievalMethod at h
  split at h
  · rename_i hmethod
    obtain ⟨uuid, huuid, h⟩ := of_bind h
    cases h
    refine ⟨_, rfl, validateTransport_serviceUuid uuid, .inl ⟨uuid, rfl⟩, ?_⟩
    constructor
    · rintro ⟨-, hparameters⟩ name hname
      refine ⟨hmethod, ?_⟩
      rcases hparameters name with hlookup | ⟨hname, -⟩
      · by_contra hne
        rw [← hlookup] at hname
        exact hname (lookup_single_of_ne (fun heq => hne heq.symm))
      · exact hname
    · intro hbare
      refine ⟨hmethod.symm, ?_⟩
      intro name
      by_cases hname : name = "serviceUuid".toList
      · exact .inr ⟨hname, uuid, huuid, serviceUuid_hyphenated uuid⟩
      · refine .inl ?_
        rw [lookup_single_of_ne (fun heq => hname heq.symm)]
        by_contra hlookup
        exact hname (hbare name (fun hnone => hlookup hnone.symm)).2
  · rename_i hmethod
    cases h
    refine ⟨_, rfl, rfl, .inr rfl, ?_⟩
    constructor
    · rintro ⟨-, hparameters⟩ name hname
      rcases hparameters name with hlookup | ⟨-, uuid, -, huuid⟩
      · exact absurd hlookup.symm hname
      · cases huuid
    · intro hbare
      refine ⟨hmethod.symm, ?_⟩
      intro name
      refine .inl ?_
      by_contra hlookup
      have hble := (hbare name (fun hnone => hlookup hnone.symm)).1
      exact absurd (hmethod.symm.trans hble) (by simp)
  · cases h
  · cases h

theorem forall₂_there_and_back
    (h : List.Forall₂ (fun transport method => toRetrievalMethod isomdl transport = .ok method) transports methods) :
    ∃ transports', List.Forall₂ (fun method transport => ofRetrievalMethod isomdl method = .ok transport) methods transports' ∧
      (∀ transport ∈ transports', validateTransport transport = .ok ()) ∧ transports'.length = transports.length ∧
      (List.Forall₂ (SameTransport isomdl) transports transports' ↔ ∀ transport ∈ transports, Bare transport) := by
  induction h with
  | nil => exact ⟨[], .nil, by simp, rfl, by simp⟩
  | cons hhead _ ih =>
    obtain ⟨transport', hof, hvalid, -, hsame⟩ := ofRetrievalMethod_of_toRetrievalMethod hhead
    obtain ⟨transports', hofs, hvalids, hlength, hsames⟩ := ih
    refine ⟨transport' :: transports', .cons hof hofs, ?_, by simp [hlength], ?_⟩
    · exact forall_mem_cons.mpr ⟨hvalid, hvalids⟩
    · rw [forall₂_cons, hsame, hsames, forall_mem_cons]

/-- What an engagement that can be encoded satisfies. -/
theorem toIso_ok (h : engagement.toIso isomdl = .ok value) :
    engagement.transports.length ≤ maxDeviceRetrievalMethods ∧ engagement.version = "1.0".toList ∧
    ∃ coseKey keyBytes methods, coseKeyFromSec1 engagement.deviceKey = .ok coseKey ∧
      isomdl.encodeKey coseKey = .ok keyBytes ∧
      List.Forall₂ (fun transport method => toRetrievalMethod isomdl transport = .ok method) engagement.transports methods ∧
      value = ⟨engagement.version, ⟨1, ⟨coseKey, keyBytes⟩⟩, NonEmptyVec.maybeNew methods, none, none⟩ := by
  obtain ⟨⟨⟩, hbounds, h⟩ := of_bind h
  obtain ⟨hversion, h⟩ := of_reject h
  obtain ⟨-, h⟩ := of_reject h
  obtain ⟨coseKey, hcose, h⟩ := of_bind h
  obtain ⟨deviceKey, htag, h⟩ := of_bind h
  obtain ⟨methods, hmethods, h⟩ := of_bind h
  obtain ⟨keyBytes, hkey, htag⟩ := of_bind htag
  cases htag
  cases h
  exact ⟨Nat.not_lt.mp (of_reject hbounds).1, not_not.mp hversion, coseKey, keyBytes, methods, hcose,
    mapError_ok_iff.mp hkey, mapM_ok_iff.mp hmethods, rfl⟩

theorem retrievalMethods_maybeNew (version : Str) (security : Security) (methods : List DeviceRetrievalMethod) :
    retrievalMethods ⟨version, security, NonEmptyVec.maybeNew methods, none, none⟩ = methods := by
  cases methods <;> rfl

/-- **Encoding and decoding keeps an engagement exactly if it is on the curve, bare and not too long.** -/
theorem fromCbor_toCbor_iff (h : engagement.toCbor isomdl = .ok data) :
    (∃ engagement', fromCbor isomdl p256 data = .ok engagement' ∧
      engagement'.version = engagement.version ∧ engagement'.deviceKey = engagement.deviceKey ∧
      List.Forall₂ (SameTransport isomdl) engagement.transports engagement'.transports) ↔
    p256.validate engagement.deviceKey = .ok () ∧ (∀ transport ∈ engagement.transports, Bare transport) ∧
      data.length ≤ maxDeviceEngagementCborBytes := by
  obtain ⟨value, hiso, hencode⟩ := of_bind h
  have hdecode := isomdl.decode_of_encode (mapError_ok_iff.mp hencode)
  obtain ⟨hcount, hversion, coseKey, keyBytes, methods, hcose, -, hmethods, rfl⟩ := toIso_ok hiso
  obtain ⟨transports', hof, hvalid, hlength, hsame⟩ := forall₂_there_and_back hmethods
  have hretrieved := retrievalMethods_maybeNew engagement.version ⟨1, ⟨coseKey, keyBytes⟩⟩ methods
  constructor
  · rintro ⟨engagement', hfrom, -, -, htransports⟩
    obtain ⟨hsize, value', hdecode', haccepted⟩ := fromCbor_ok_iff.mp hfrom
    rw [hdecode] at hdecode'
    cases hdecode'
    have hsameTransports : engagement'.transports = transports' := by
      have hboth := haccepted.transports
      rw [hretrieved, ← mapM_ok_iff, mapM_ok_iff.mpr hof] at hboth
      exact (Except.ok.inj hboth).symm
    rw [hsameTransports] at htransports
    exact ⟨((coseKeyToSec1_ok_iff hcose).mp haccepted.deviceKey).1, hsame.mp htransports, hsize⟩
  · rintro ⟨hcurve, hbare, hsize⟩
    have hbounds : validateResourceBounds
        (⟨engagement.version, transports', .qr, engagement.deviceKey, none, none⟩ : DeviceEngagement κ) = .ok () := by
      refine reject_bind_ok_iff.mpr ⟨?_, forM_ok_iff.mpr hvalid⟩
      show ¬ maxDeviceRetrievalMethods < transports'.length
      rw [hlength]
      exact Nat.not_lt.mpr hcount
    refine ⟨⟨engagement.version, transports', .qr, engagement.deviceKey, none, none⟩, ?_, rfl, rfl, hsame.mpr hbare⟩
    refine fromCbor_ok_iff.mpr ⟨hsize, _, hdecode, ?_⟩
    refine ⟨hversion, rfl, rfl, rfl, (coseKeyToSec1_ok_iff hcose).mpr ⟨hcurve, rfl⟩, ?_, hbounds, rfl⟩
    rw [hretrieved]
    exact hof

/-! ## Engagements built here -/

/-- What the constructor and the `add` methods can build. -/
inductive Built (p256 : P256 κ) : DeviceEngagement κ → Prop
  | newQr (keyPair : κ) : Built p256 (.newQr p256 keyPair)
  | addBle (serviceUuid : Str) {engagement : DeviceEngagement κ} (h : Built p256 engagement) :
      Built p256 (engagement.addBleTransport serviceUuid)
  | addNfc {engagement : DeviceEngagement κ} (h : Built p256 engagement) : Built p256 engagement.addNfcTransport
  | addHttps (url : Str) {engagement : DeviceEngagement κ} (h : Built p256 engagement) :
      Built p256 (engagement.addHttpsTransport url)

theorem Built.deviceKey (h : Built p256 engagement) : p256.validate engagement.deviceKey = .ok () := by
  induction h with
  | newQr keyPair => exact p256.validate_publicKey keyPair
  | addBle _ _ ih | addNfc _ ih | addHttps _ _ ih => exact ih

theorem Built.bare (h : Built p256 engagement) :
    ∀ transport ∈ engagement.transports, Bare transport ∨ transport.method = .https := by
  induction h with
  | newQr keyPair => exact fun _ hmem => nomatch hmem
  | addBle serviceUuid _ ih =>
    refine forall_mem_append.mpr ⟨ih, forall_mem_singleton.mpr (.inl fun name hname => ⟨rfl, ?_⟩)⟩
    by_contra hne
    exact hname (lookup_single_of_ne (fun heq => hne heq.symm))
  | addNfc _ ih =>
    exact forall_mem_append.mpr ⟨ih, forall_mem_singleton.mpr (.inl fun _ hname => absurd rfl hname)⟩
  | addHttps url _ ih => exact forall_mem_append.mpr ⟨ih, forall_mem_singleton.mpr (.inr rfl)⟩

/-- **Both parties agree on what is built here.** It is decoded to itself, and the reader's bytes are the device's. -/
theorem built_engagement_agrees (hbuilt : Built p256 engagement) (h : engagement.toCbor isomdl = .ok data)
    (hsize : data.length ≤ maxDeviceEngagementCborBytes) :
    ∃ engagement', fromCbor isomdl p256 data = .ok engagement' ∧
      engagement'.deviceKey = engagement.deviceKey ∧
      List.Forall₂ (SameTransport isomdl) engagement.transports engagement'.transports ∧
      engagement'.toCbor isomdl = .ok data := by
  obtain ⟨value, hiso, hencode⟩ := of_bind h
  rw [mapError_ok_iff] at hencode
  obtain ⟨-, -, coseKey, keyBytes, methods, -, hkey, hmethods, rfl⟩ := toIso_ok hiso
  have hbare : ∀ transport ∈ engagement.transports, Bare transport := by
    intro transport hmem
    refine (hbuilt.bare transport hmem).resolve_right ?_
    intro hhttps
    obtain ⟨method, -, hmethod⟩ := exists_of_mem_forall₂ hmethods hmem
    rw [toRetrievalMethod, hhttps] at hmethod
    cases hmethod
  obtain ⟨engagement', hfrom, -, hdeviceKey, htransports⟩ :=
    (fromCbor_toCbor_iff h).mpr ⟨hbuilt.deviceKey, hbare, hsize⟩
  refine ⟨engagement', hfrom, hdeviceKey, htransports, ?_⟩
  refine (toCbor_eq_iff hfrom (isomdl.decode_of_encode hencode)).mpr ⟨hencode, hkey, ?_⟩
  intro method hmem
  rw [retrievalMethods_maybeNew] at hmem
  obtain ⟨transport, -, hmethod⟩ := exists_of_mem_forall₂ hmethods.flip hmem
  obtain ⟨-, -, -, hplain, -⟩ := ofRetrievalMethod_of_toRetrievalMethod hmethod
  exact hplain

/-! ## The whole -/

/-- **Engagement bytes of the two parties.** For bytes that a reader accepts, what it puts into its transcript is the same
    bytes if and only if they are this encoder's for the engagement they stand for, and the engagement is plain. An
    engagement that is encoded comes back with its version, key and transports if and only if its key is on the curve, its
    transports are bare and the encoding is within the decoder's limit. -/
theorem engagement_bytes_agree_iff (platform : Platform κ) :
    (∀ (data : Bytes) (engagement : DeviceEngagement κ) (value : Iso.DeviceEngagement) (position : Nat),
      fromCbor platform.isomdl platform.p256 data = .ok engagement →
      platform.isomdl.decode data = .ok (value, position) →
      (engagement.toCbor platform.isomdl = .ok data ↔
        platform.isomdl.encode value = .ok data ∧ Plain platform.isomdl value) ∧
      ∀ (config : SessionConfig) (keyPair : κ) (now : Nat) (session : Session) (cells : Cells κ),
        Session.readerFromEngagement platform engagement config keyPair now = .ok (session, cells) →
        (session.engagementBytes = data ↔ platform.isomdl.encode value = .ok data ∧ Plain platform.isomdl value)) ∧
    ∀ (engagement : DeviceEngagement κ) (data : Bytes), engagement.toCbor platform.isomdl = .ok data →
      ((∃ engagement', fromCbor platform.isomdl platform.p256 data = .ok engagement' ∧
        engagement'.version = engagement.version ∧ engagement'.deviceKey = engagement.deviceKey ∧
        List.Forall₂ (SameTransport platform.isomdl) engagement.transports engagement'.transports) ↔
      platform.p256.validate engagement.deviceKey = .ok () ∧ (∀ transport ∈ engagement.transports, Bare transport) ∧
        data.length ≤ maxDeviceEngagementCborBytes) := by
  refine ⟨?_, fun engagement data h => fromCbor_toCbor_iff h⟩
  intro data engagement value position hfrom hdecode
  have hiff := toCbor_eq_iff hfrom hdecode
  refine ⟨hiff, ?_⟩
  intro config keyPair now session cells hsession
  obtain ⟨-, -, hsession⟩ := of_bind hsession
  obtain ⟨-, -, hsession⟩ := of_bind hsession
  obtain ⟨bytes, hbytes, hsession⟩ := of_bind hsession
  cases hsession
  rw [← hiff, hbytes, Except.ok.injEq]

/-! ## A device in central client mode -/

def sampleUuid : Uuid := ⟨List.replicate 16 0, rfl⟩

def centralIso : Iso.DeviceEngagement :=
  { sampleIso with deviceRetrievalMethods := some ⟨[.ble ⟨none, some ⟨sampleUuid⟩⟩], by simp⟩ }

def peripheralIso : Iso.DeviceEngagement :=
  { sampleIso with deviceRetrievalMethods := some ⟨[.ble ⟨some ⟨sampleUuid, none⟩, none⟩], by simp⟩ }

def centralPlatform : Platform Bool := { samplePlatform with isomdl := sampleIsomdl centralIso peripheralIso }

theorem engagement_bytes_agree_iff_peripheralIso :
    ∃ engagement, fromCbor centralPlatform.isomdl centralPlatform.p256 [2] = .ok engagement ∧
      engagement.toCbor centralPlatform.isomdl = .ok [2] := by
  refine ⟨_, rfl, ?_⟩
  refine (((engagement_bytes_agree_iff centralPlatform).1 [2] _ peripheralIso 1 rfl rfl).1).mpr ⟨rfl, rfl, ?_⟩
  intro method hmem
  exact .inl ⟨sampleUuid, mem_singleton.mp hmem⟩

theorem built_engagement_agrees_addBle :
    ∃ engagement, fromCbor centralPlatform.isomdl centralPlatform.p256 [2] = .ok engagement ∧
      engagement.toCbor centralPlatform.isomdl = .ok [2] :=
  (built_engagement_agrees (.addBle (sampleHyphenated sampleUuid) (.newQr true)) rfl (by decide)).imp
    (fun _ h => ⟨h.1, h.2.2.2⟩)

/-- An accepted engagement of a device in central client mode. The reader's session is for other bytes, and its transcript
    is not the device's. -/
theorem central_mode_transcripts_differ :
    ∃ engagement session cells,
      fromCbor centralPlatform.isomdl centralPlatform.p256 [1] = .ok engagement ∧
      Session.readerFromEngagement centralPlatform engagement ⟨60, 100⟩ false 0 = .ok (session, cells) ∧
      session.engagementBytes = [2] ∧
      Session.buildSessionTranscript centralPlatform session.engagementBytes (sampleKey false) ≠
        Session.buildSessionTranscript centralPlatform [1] (sampleKey false) := by
  obtain ⟨engagement, hfrom⟩ : ∃ engagement : DeviceEngagement Bool,
      fromCbor centralPlatform.isomdl centralPlatform.p256 [1] = .ok engagement := ⟨_, rfl⟩
  obtain ⟨-, value, hdecode, haccepted⟩ := fromCbor_ok_iff.mp hfrom
  cases hdecode
  have hcbor : engagement.toCbor centralPlatform.isomdl = .ok [2] := by
    have hkey : centralPlatform.isomdl.encodeKey centralIso.security.deviceKey.inner = .ok [3] := rfl
    rw [toCbor, haccepted.toIso_eq hkey]
    decide
  have hdiffer : Session.buildSessionTranscript centralPlatform [2] (sampleKey false) ≠
      Session.buildSessionTranscript centralPlatform [1] (sampleKey false) := by decide
  refine ⟨engagement, ⟨⟨60, 100⟩, 60, .reader, [2], engagement.deviceKey⟩,
    ⟨.engagement, none, SessionKeyAgreement.fromKeyPair centralPlatform false⟩, hfrom, ?_, rfl, hdiffer⟩
  rw [Session.readerFromEngagement, Session.newForRole, hcbor]
  rfl

end MartyCore.Iso18013
