import MartyCore.ChipIo.Counter
import MartyCore.ChipIo.Mac
import MartyCore.ChipIo.Tlv

/-!
# `ChipIo.Response` — protected responses round-trip and bind what they return

The loop over a response accepts exactly the concatenations of well-formed objects with distinct tags
(`objectLoop_ok_iff`), and what it collects depends on the set of objects alone (`absorbed_of_perm`).

On top: what a chip builds is accepted in every order of its objects and yields the data and the status word it
was built from, and two accepted responses with the same MAC input yield the same
(`response_round_trip_and_binding`).
-/

namespace MartyCore.ChipIo

open Exec Method List

/-! ## One object -/

/-- The objects of a response: the three kinds, each of the shape that the loop checks. -/
inductive IsObject (tlv : BerTlv) : Prop
  | data (htag : tlv.tag = 0x87) (hindicator : tlv.value.head? = some 0x01)
      (hlen : 1 < tlv.value.length) (hblocks : (tlv.value.length - 1) % 8 = 0)
  | status (htag : tlv.tag = 0x99) (hlen : tlv.value.length = 2)
  | mac (htag : tlv.tag = 0x8E) (hlen : tlv.value.length = 8)

/-- The object of a kind among those read so far. -/
def objectAt (tag : UInt8) (tlvs : List BerTlv) : Option BerTlv :=
  tlvs.find? (fun tlv => decide (tlv.tag = tag))

theorem objectAt_concat (tag : UInt8) (front : List BerTlv) (tlv : BerTlv) :
    objectAt tag (front ++ [tlv]) = (objectAt tag front).or (if tlv.tag = tag then some tlv else none) := by
  unfold objectAt
  simp

variable {tlvs : List BerTlv} {tag : UInt8}

theorem objectAt_eq_none_iff :
    objectAt tag tlvs = none ↔ tag ∉ tlvs.map BerTlv.tag := by
  unfold objectAt
  rw [find?_eq_none, mem_map]
  constructor
  · rintro h ⟨tlv, hmem, htag⟩
    exact h tlv hmem (decide_eq_true htag)
  · intro h tlv hmem htag
    exact h ⟨tlv, hmem, of_decide_eq_true htag⟩

/-- What the loop has collected after the objects `tlvs`. -/
def absorbed (tlvs : List BerTlv) : SmObjects where
  receivedMac := (objectAt 0x8E tlvs).map BerTlv.value
  do87Bytes := (objectAt 0x87 tlvs).map BerTlv.encoded
  encryptedData := (objectAt 0x87 tlvs).map (fun tlv => tlv.value.drop 1)
  do99Bytes := (objectAt 0x99 tlvs).map BerTlv.encoded
  status := (objectAt 0x99 tlvs).map (fun tlv => (tlv.value[0]?.getD 0, tlv.value[1]?.getD 0))

theorem absorbed_of_perm {tlvs' : List BerTlv} (hdistinct : (tlvs.map BerTlv.tag).Nodup)
    (h : tlvs'.Perm tlvs) : absorbed tlvs' = absorbed tlvs := by
  have hat : ∀ tag, objectAt tag tlvs' = objectAt tag tlvs :=
    fun tag => find?_of_perm (atMostOne_of_nodup_map hdistinct tag) h
  unfold absorbed
  rw [hat, hat, hat]

variable {front : List BerTlv} {tlv : BerTlv}

theorem absorbObject_absorbed (hobject : IsObject tlv) (hfresh : objectAt tlv.tag front = none) :
    absorbObject (absorbed front) tlv = .ok (absorbed (front ++ [tlv])) := by
  cases hobject with
  | data htag hindicator hlen hblocks =>
    rw [htag] at hfresh
    have hshort : ¬ tlv.value.length ≤ 1 := by omega
    simp [absorbObject, absorbed, objectAt_concat, htag, hfresh, hindicator, hshort, hblocks]
  | status htag hlen | mac htag hlen =>
    rw [htag] at hfresh
    simp [absorbObject, absorbed, objectAt_concat, htag, hfresh, hlen]

variable {objects : SmObjects}

theorem absorbObject_ok (h : absorbObject (absorbed front) tlv = .ok objects) :
    IsObject tlv ∧ objectAt tlv.tag front = none := by
  unfold absorbObject at h
  split at h
  · rename_i htag
    split at h
    · cases h
    · rename_i hguard
      rw [not_or, not_or, not_or] at hguard
      obtain ⟨hfresh, hindicator, hlen, hblocks⟩ := hguard
      refine ⟨.data htag (not_not.mp hindicator) (Nat.lt_of_not_le hlen) (not_not.mp hblocks), ?_⟩
      rw [htag]
      simpa [absorbed] using hfresh
  · split at h
    · rename_i hguard
      obtain ⟨htag, hlen, hfresh⟩ := hguard
      refine ⟨.status htag hlen, ?_⟩
      rw [htag]
      exact Option.map_eq_none_iff.mp hfresh
    · split at h
      · rename_i hguard
        obtain ⟨htag, hlen, hfresh⟩ := hguard
        refine ⟨.mac htag hlen, ?_⟩
        rw [htag]
        exact Option.map_eq_none_iff.mp hfresh
      · cases h

/-- **One object is taken exactly when it is well formed and the first of its kind.** -/
theorem absorbObject_ok_iff :
    absorbObject (absorbed front) tlv = .ok objects ↔
      IsObject tlv ∧ tlv.tag ∉ front.map BerTlv.tag ∧ objects = absorbed (front ++ [tlv]) := by
  constructor
  · intro h
    obtain ⟨hobject, hfresh⟩ := absorbObject_ok h
    rw [absorbObject_absorbed hobject hfresh] at h
    injection h with h
    exact ⟨hobject, objectAt_eq_none_iff.mp hfresh, h.symm⟩
  · rintro ⟨hobject, hfresh, rfl⟩
    exact absorbObject_absorbed hobject (objectAt_eq_none_iff.mpr hfresh)

/-! ## The loop -/

theorem BerTlv.Canonical.encoded_length_pos (h : tlv.Canonical) : 0 < tlv.encoded.length := by
  rw [h.encoded_eq]
  exact Nat.succ_pos _

/-- The end of the data: no object is left. -/
theorem objectLoop_nil_ok_iff {fuel : Nat} (hfront : (front.map BerTlv.tag).Nodup) :
    objectLoop fuel [] (absorbed front) = .ok objects ↔
      ∃ tlvs, [] = tlvs.flatMap BerTlv.encoded ∧ (∀ tlv ∈ tlvs, tlv.Canonical ∧ IsObject tlv) ∧
        ((front ++ tlvs).map BerTlv.tag).Nodup ∧ objects = absorbed (front ++ tlvs) := by
  rw [show objectLoop fuel [] (absorbed front) = .ok (absorbed front) by unfold objectLoop; rfl]
  constructor
  · intro h
    injection h with h
    refine ⟨[], rfl, fun tlv hmem => absurd hmem not_mem_nil, ?_⟩
    rw [append_nil]
    exact ⟨hfront, h.symm⟩
  · rintro ⟨tlvs, hdata, htlvs, -, rfl⟩
    cases tlvs with
    | nil => rw [append_nil]
    | cons tlv tlvs =>
      have hpos := (htlvs tlv mem_cons_self).1.encoded_length_pos
      have hlen := congrArg List.length hdata
      simp only [flatMap_cons, length_append, length_nil] at hlen
      omega

variable {data : Bytes}

/-- **The loop accepts exactly the concatenations of well-formed objects of distinct kinds.** -/
theorem objectLoop_ok_iff {fuel : Nat} (hfuel : data.length ≤ fuel) (hfront : (front.map BerTlv.tag).Nodup) :
    objectLoop fuel data (absorbed front) = .ok objects ↔
      ∃ tlvs, data = tlvs.flatMap BerTlv.encoded ∧ (∀ tlv ∈ tlvs, tlv.Canonical ∧ IsObject tlv) ∧
        ((front ++ tlvs).map BerTlv.tag).Nodup ∧ objects = absorbed (front ++ tlvs) := by
  -- each turn takes one object off the front of `data` and adds it to `front`
  induction fuel generalizing data front with
  | zero =>
    obtain rfl : data = [] := eq_nil_of_length_eq_zero (Nat.le_zero.mp hfuel)
    exact objectLoop_nil_ok_iff hfront
  | succ fuel ih =>
    cases data with
    | nil => exact objectLoop_nil_ok_iff hfront
    | cons b bytes =>
      constructor
      · intro h
        obtain ⟨⟨tlv, rest⟩, hnext, h⟩ := of_bind h
        obtain ⟨objects', habsorb, h⟩ := of_bind h
        obtain ⟨hcanonical, hdata⟩ := nextBerTlv_ok_iff.mp hnext
        obtain ⟨hobject, hfresh, rfl⟩ := absorbObject_ok_iff.mp habsorb
        have hrest : rest.length ≤ fuel := by
          have hpos := hcanonical.encoded_length_pos
          rw [hdata, length_append] at hfuel
          omega
        obtain ⟨tlvs, rfl, htlvs, hdistinct, hobjects⟩ :=
          (ih hrest (nodup_map_concat_iff.mpr ⟨hfresh, hfront⟩)).mp h
        rw [← append_cons] at hdistinct hobjects
        exact ⟨tlv :: tlvs, hdata, forall_mem_cons.mpr ⟨⟨hcanonical, hobject⟩, htlvs⟩, hdistinct, hobjects⟩
      · rintro ⟨tlvs, hdata, htlvs, hdistinct, rfl⟩
        cases tlvs with
        | nil => cases hdata
        | cons tlv tlvs =>
          obtain ⟨⟨hcanonical, hobject⟩, htlvs⟩ := forall_mem_cons.mp htlvs
          have hfresh := notMem_map_of_nodup hdistinct
          rw [append_cons] at hdistinct
          have hrest : (tlvs.flatMap BerTlv.encoded).length ≤ fuel := by
            have hpos := hcanonical.encoded_length_pos
            rw [hdata, flatMap_cons, length_append] at hfuel
            omega
          refine bind_ok_iff.mpr ⟨_, nextBerTlv_ok_iff.mpr ⟨hcanonical, hdata⟩, ?_⟩
          refine bind_ok_iff.mpr ⟨_, absorbObject_ok_iff.mpr ⟨hobject, hfresh, rfl⟩, ?_⟩
          exact (ih hrest (nodup_map_concat_iff.mpr ⟨hfresh, hfront⟩)).mpr
            ⟨tlvs, rfl, htlvs, hdistinct, by rw [append_cons]⟩

/-- The loop of `unprotectResponse`, which starts with nothing collected. -/
theorem objectLoop_empty_ok_iff :
    objectLoop data.length data SmObjects.empty = .ok objects ↔
      ∃ tlvs, data = tlvs.flatMap BerTlv.encoded ∧ (∀ tlv ∈ tlvs, tlv.Canonical ∧ IsObject tlv) ∧
        (tlvs.map BerTlv.tag).Nodup ∧ objects = absorbed tlvs :=
  @objectLoop_ok_iff [] _ _ _ (Nat.le_refl _) nodup_nil

theorem answers_nextBerTlv (data : Bytes) (context : String) : Answers (nextBerTlv data context) := by
  have hlength : Answers (berLength data context) := by
    refine answers_orFail.bind (fun firstLength _ => ?_)
    split_ifs
    · exact answers_ok
    · exact answers_orFail.bind (fun _ _ => answers_reject.bind (fun _ _ => answers_ok))
    · exact answers_orFail.bind (fun _ _ => answers_orFail.bind (fun _ _ => answers_reject.bind (fun _ _ => answers_ok)))
    · exact answers_fail
  exact answers_orFail.bind (fun _ _ => hlength.bind (fun _ _ => answers_reject.bind (fun _ _ => answers_ok)))

theorem answers_absorbObject (objects : SmObjects) (tlv : BerTlv) : Answers (absorbObject objects tlv) := by
  unfold absorbObject
  split_ifs
  · exact answers_fail
  · exact answers_ok
  · exact answers_ok
  · exact answers_ok
  · exact answers_fail

/-- **The loop ends on every input**: each turn takes an object off, and none is empty. -/
theorem answers_objectLoop {fuel : Nat} (hfuel : data.length ≤ fuel) : Answers (objectLoop fuel data objects) := by
  induction fuel generalizing data objects with
  | zero =>
    obtain rfl : data = [] := eq_nil_of_length_eq_zero (Nat.le_zero.mp hfuel)
    unfold objectLoop
    exact answers_ok
  | succ fuel ih =>
    cases data with
    | nil => exact answers_ok
    | cons b bytes =>
      refine (answers_nextBerTlv _ _).bind (fun next hnext => (answers_absorbObject _ _).bind (fun _ _ => ih ?_))
      obtain ⟨hcanonical, hdata⟩ := nextBerTlv_ok hnext
      have hpos := hcanonical.encoded_length_pos
      rw [hdata, length_append] at hfuel
      omega

/-- `next_ber_tlv` on the whole input, with the offset that it advances. -/
def nextBerTlvAt (data : Bytes) (offset : Nat) (context : String) : Exec String (BerTlv × Nat) := do
  let next ← nextBerTlv (data.drop offset) context
  .ok (next.1, offset + next.1.encoded.length)

/-- **Writer and reader are inverse to each other, at every offset**, and the reader always moves forward, so that the
    loop over a response ends. -/
theorem ber_tlv_canonical (tag : UInt8) (value front back data : Bytes) (offset : Nat) (context : String) :
    (value.length ≤ 65535 → ∃ encoded, pushBerTlv tag value [] = .ok encoded ∧
      nextBerTlvAt (front ++ encoded ++ back) front.length context =
        .ok (⟨tag, encoded, value⟩, front.length + encoded.length)) ∧
    (∀ tlv next, nextBerTlvAt data offset context = .ok (tlv, next) →
      pushBerTlv tlv.tag tlv.value [] = .ok tlv.encoded ∧ tlv.encoded = (data.take next).drop offset ∧
        offset < next ∧ next ≤ data.length) ∧
    Answers (objectLoop data.length data .empty) := by
  refine ⟨fun hfits => ⟨berTlv tag value, pushBerTlv_ok_iff.mpr ⟨hfits, rfl⟩, ?_⟩, ?_, answers_objectLoop (le_refl _)⟩
  · rw [nextBerTlvAt, append_assoc, drop_left, nextBerTlv_berTlv context hfits]
    rfl
  · intro tlv next h
    obtain ⟨⟨tlv, rest⟩, hnext, h⟩ := of_bind h
    cases h
    obtain ⟨hcanonical, hdata⟩ := nextBerTlv_ok hnext
    have hpos := hcanonical.encoded_length_pos
    have hlength := congrArg List.length hdata
    rw [length_drop, length_append] at hlength
    refine ⟨pushBerTlv_ok_iff.mpr ⟨hcanonical.fits, hcanonical.encoded_eq⟩, ?_, by omega, by omega⟩
    rw [drop_take, hdata, Nat.add_sub_cancel_left, take_left]

/-! ## What a chip builds -/

/-- The objects that a chip with the session's keys and counter builds for `data` and a status word: DO'87 when
    there is data, with the encryption and the encoding of a command's DO'87, then DO'99, then DO'8E. -/
def responseObjects (cipher : TdesCbc) (s : BacSession) (data : Bytes) (sw1 sw2 : UInt8) :
    Exec String (List Bytes) := do
  let nextSsc ← checkedNextSsc s.ssc
  let do87 ← commandDo87 cipher s.kEnc data
  let do99 := [0x99, 0x02, sw1, sw2]
  let mac ← retailMac3des cipher s.kMac (nextSsc.bytes ++ (do87 ++ do99))
  .ok ((if data = [] then [] else [do87]) ++ [do99, [0x8E, 0x08] ++ mac])

variable {cipher : TdesCbc}

/-- DO'87 of data: the canonical encoding of the padding indicator and the ciphertext. -/
theorem commandDo87_ok_iff {kEnc : Block 16} {data do87 : Bytes} (hdata : data ≠ []) :
    commandDo87 cipher kEnc data = .ok do87 ↔
      (cipher.encrypt (extendTo24Bytes kEnc) icao3desCbcIv (iso7816Pad data)).length < 0xffff ∧
      do87 = berTlv 0x87 (0x01 :: cipher.encrypt (extendTo24Bytes kEnc) icao3desCbcIv (iso7816Pad data)) := by
  have hencrypt : tdesCbcEncrypt cipher (extendTo24Bytes kEnc) icao3desCbcIv (iso7816Pad data) = .ok _ :=
    tdesCbcEncrypt_ok cipher (extendTo24Bytes_length kEnc) rfl (iso7816Pad_ne_nil data)
      (iso7816Pad_length data).1
  unfold commandDo87
  rw [if_neg hdata, hencrypt]
  exact pushBerTlv_ok_iff

/-- Decrypting what the encryption of DO'87 made. -/
theorem decryptObject_encrypt (hlawful : cipher.Lawful) (kEnc : Block 16) (data : Bytes) :
    decryptObject cipher kEnc
      (some (cipher.encrypt (extendTo24Bytes kEnc) icao3desCbcIv (iso7816Pad data))) = .ok data := by
  have hpad := (iso7816Pad_length data).1
  have hlen := hlawful.encrypt_length _ icao3desCbcIv _ (extendTo24Bytes_length kEnc) rfl hpad
  have hnonempty : cipher.encrypt (extendTo24Bytes kEnc) icao3desCbcIv (iso7816Pad data) ≠ [] := by
    rw [← length_pos_iff, hlen, length_pos_iff]
    exact iso7816Pad_ne_nil data
  have hdecrypt : tdesCbcDecrypt cipher (extendTo24Bytes kEnc) icao3desCbcIv
      (cipher.encrypt (extendTo24Bytes kEnc) icao3desCbcIv (iso7816Pad data)) = .ok (iso7816Pad data) := by
    rw [tdesCbcDecrypt, validateTdesParams_ok (extendTo24Bytes_length kEnc) rfl hnonempty (by rw [hlen, hpad]),
      hlawful.decrypt_encrypt _ _ _ (extendTo24Bytes_length kEnc) rfl hpad]
    rfl
  exact bind_ok_iff.mpr ⟨_, mapErr_ok_iff.mpr hdecrypt, iso7816Unpad_iso7816Pad data⟩

variable {nextSsc : Block 8} {s : BacSession}

/-- The bytes a chip builds are well-formed objects of distinct kinds, and a response whose loop collects them
    passes every check and yields the data and the status word. -/
theorem responseObjects_spec (hlawful : cipher.Lawful) {sw1 sw2 : UInt8} (hnext : checkedNextSsc s.ssc = .ok nextSsc)
    {built : List Bytes} (h : responseObjects cipher s data sw1 sw2 = .ok built) :
    ∃ tlvs do99 mac, built = tlvs.map BerTlv.encoded ∧ (∀ tlv ∈ tlvs, tlv.Canonical ∧ IsObject tlv) ∧
      (tlvs.map BerTlv.tag).Nodup ∧
      ∀ resp, objectLoop resp.data.length resp.data SmObjects.empty = .ok (absorbed tlvs) →
        Unprotected cipher s resp ⟨data, sw1, sw2⟩ nextSsc (absorbed tlvs) do99 mac := by
  obtain ⟨nextSsc', hnext', h⟩ := of_bind h
  obtain rfl : nextSsc = nextSsc' := by
    rw [hnext] at hnext'
    injection hnext'
  obtain ⟨do87, hdo87, h⟩ := of_bind h
  obtain ⟨mac, hmac, h⟩ := of_bind h
  injection h with h
  obtain ⟨mac', hmac', hmacLength⟩ := retailMac3des_ok hlawful _ _
  cases hmac'.symm.trans hmac
  have hdo99 : (BerTlv.of 0x99 [sw1, sw2]).Canonical := BerTlv.of_canonical (show 2 ≤ 0xffff by decide)
  have hdo8e : (BerTlv.of 0x8E mac).Canonical := BerTlv.of_canonical (by rw [hmacLength]; decide)
  have hdo8eBytes : [0x8E, 0x08] ++ mac = berTlv 0x8E mac := by
    rw [berTlv, hmacLength]
    rfl
  -- without data there is no DO'87, and the MAC is over DO'99 alone
  by_cases hdata : data = []
  · subst hdata
    cases hdo87
    refine ⟨[.of 0x99 [sw1, sw2], .of 0x8E mac], [0x99, 0x02, sw1, sw2], mac, ?_, ?_,
      show ([0x99, 0x8E] : List UInt8).Nodup by decide, ?_⟩
    · rw [← h, hdo8eBytes]
      rfl
    · simp only [forall_mem_cons]
      exact ⟨⟨hdo99, .status rfl rfl⟩, ⟨hdo8e, .mac rfl hmacLength⟩, by simp⟩
    · exact fun resp hparsed => ⟨hnext, hparsed, rfl, rfl, hmac, rfl, rfl⟩
  · obtain ⟨hfits, rfl⟩ := (commandDo87_ok_iff hdata).mp hdo87
    have hlen := hlawful.encrypt_length _ icao3desCbcIv _ (extendTo24Bytes_length s.kEnc) rfl
      (iso7816Pad_length data).1
    obtain ⟨enc, henc⟩ : ∃ enc, cipher.encrypt (extendTo24Bytes s.kEnc) icao3desCbcIv (iso7816Pad data) = enc :=
      ⟨_, rfl⟩
    have hplain := decryptObject_encrypt hlawful s.kEnc data
    rw [henc] at hlen hfits hmac h hplain
    refine ⟨[.of 0x87 (0x01 :: enc), .of 0x99 [sw1, sw2], .of 0x8E mac], [0x99, 0x02, sw1, sw2], mac,
      ?_, ?_, show ([0x87, 0x99, 0x8E] : List UInt8).Nodup by decide, ?_⟩
    · rw [← h, hdo8eBytes, if_neg hdata]
      rfl
    · obtain ⟨hmod, hlt, -⟩ := iso7816Pad_length data
      simp only [forall_mem_cons]
      refine ⟨⟨BerTlv.of_canonical hfits, .data rfl rfl ?_ ?_⟩, ⟨hdo99, .status rfl rfl⟩,
        ⟨hdo8e, .mac rfl hmacLength⟩, by simp⟩
      · show 1 < enc.length + 1
        omega
      · show (enc.length + 1 - 1) % 8 = 0
        omega
    · exact fun resp hparsed => ⟨hnext, hparsed, rfl, rfl, hmac, hplain, rfl⟩

theorem berTlv_length_le (tag : UInt8) (value : Bytes) : (berTlv tag value).length ≤ value.length + 4 := by
  have hheader : (berLengthBytes value.length).length ≤ 3 := by
    unfold berLengthBytes
    split
    · exact Nat.le_add_left 1 2
    · split
      · exact Nat.le_succ 2
      · exact Nat.le_refl 3
  rw [berTlv, length_cons, length_append]
  omega

/-- Data up to the bound of a command has a DO'87: 65511 bytes pad to 65512, and the indicator and a header of four
    bytes make 65517. -/
theorem commandDo87_of_length_le (hlawful : cipher.Lawful) (kEnc : Block 16)
    (hsize : data.length ≤ maxBacCommandDataBytes) :
    ∃ do87, commandDo87 cipher kEnc data = .ok do87 ∧ do87.length ≤ 65517 := by
  obtain ⟨hmod, -, hpad⟩ := iso7816Pad_length data
  have hlen := hlawful.encrypt_length _ icao3desCbcIv _ (extendTo24Bytes_length kEnc) rfl hmod
  have hbound : data.length ≤ 65511 := hsize
  by_cases hdata : data = []
  · exact ⟨[], if_pos hdata, Nat.zero_le _⟩
  · refine ⟨_, (commandDo87_ok_iff hdata).mpr ⟨by omega, rfl⟩, ?_⟩
    refine Nat.le_trans (berTlv_length_le _ _) ?_
    rw [length_cons]
    omega

/-- Data up to the bound of a command can be sent in a response. -/
theorem responseObjects_ok (hlawful : cipher.Lawful) (sw1 sw2 : UInt8) (hnext : checkedNextSsc s.ssc = .ok nextSsc)
    (hsize : data.length ≤ maxBacCommandDataBytes) :
    ∃ built, responseObjects cipher s data sw1 sw2 = .ok built ∧
      built.flatten.length ≤ maxBacProtectedResponseBytes := by
  obtain ⟨do87, hdo87, hdo87Length⟩ := commandDo87_of_length_le hlawful s.kEnc hsize
  obtain ⟨mac, hmac, hmacLength⟩ :=
    retailMac3des_ok hlawful s.kMac (nextSsc.bytes ++ (do87 ++ [0x99, 0x02, sw1, sw2]))
  refine ⟨_, bind_ok_iff.mpr ⟨_, hnext, bind_ok_iff.mpr ⟨_, hdo87, bind_ok_iff.mpr ⟨_, hmac, rfl⟩⟩⟩, ?_⟩
  have hall : ((if data = [] then [] else [do87]).flatten).length ≤ do87.length := by
    split
    · exact Nat.zero_le _
    · simp
  show _ ≤ 65535
  rw [flatten_append, length_append]
  simp only [flatten_cons, flatten_nil, length_append, length_cons, length_nil, hmacLength]
  omega

/-! ## Acceptance -/

/-- A response that passes the checks is accepted: the converse of `unprotectResponse_commits`. -/
theorem Unprotected.run {resp reply : ApduResponse} {do99Bytes receivedMac : Bytes}
    (h : Unprotected cipher s resp reply nextSsc objects do99Bytes receivedMac)
    (hsize : resp.data.length ≤ maxBacProtectedResponseBytes) :
    (unprotectResponse cipher resp).run s = (.ok reply, { s with ssc := nextSsc }) := by
  have hequal : ¬ constantTimeEq receivedMac receivedMac = false := by
    rw [(constantTimeEq_iff _ _).mpr rfl]
    decide
  unfold unprotectResponse
  rw [run_get_bind, run_call_bind ((reject_ok_iff (u := ())).mpr (Nat.not_lt.mpr hsize)),
    run_call_bind h.counter, run_call_bind h.parsed,
    run_call_bind (orFail_ok_iff.mpr h.do99), run_call_bind (orFail_ok_iff.mpr h.mac),
    run_call_bind h.authentic,
    run_call_bind ((reject_ok_iff (u := ())).mpr hequal),
    run_call_bind h.plain, run_call_bind (orFail_ok_iff.mpr h.status), run_set_pure]

/-- The objects a chip builds, in any order, are accepted. -/
theorem unprotectResponse_built (hlawful : cipher.Lawful) {sw1 sw2 : UInt8}
    (hnext : checkedNextSsc s.ssc = .ok nextSsc) {built objects : List Bytes}
    (hbuilt : responseObjects cipher s data sw1 sw2 = .ok built) (hperm : objects.Perm built)
    (hsize : objects.flatten.length ≤ maxBacProtectedResponseBytes) (outer1 outer2 : UInt8) :
    (unprotectResponse cipher ⟨objects.flatten, outer1, outer2⟩).run s
      = (.ok ⟨data, sw1, sw2⟩, { s with ssc := nextSsc }) := by
  obtain ⟨tlvs, do99, mac, rfl, htlvs, hdistinct, hunprotected⟩ := responseObjects_spec hlawful hnext hbuilt
  obtain ⟨tlvs', hperm', rfl⟩ := exists_perm_of_perm_map hperm
  have hdistinct' : (tlvs'.map BerTlv.tag).Nodup := (hperm'.map BerTlv.tag).nodup_iff.mpr hdistinct
  have hparsed : objectLoop (tlvs'.map BerTlv.encoded).flatten.length (tlvs'.map BerTlv.encoded).flatten
      SmObjects.empty = .ok (absorbed tlvs) := by
    refine objectLoop_empty_ok_iff.mpr ⟨tlvs', rfl, ?_, hdistinct', (absorbed_of_perm hdistinct hperm').symm⟩
    exact fun tlv hmem => htlvs tlv (hperm'.mem_iff.mp hmem)
  exact (hunprotected ⟨_, outer1, outer2⟩ hparsed).run hsize

/-! ## Binding -/

/-- What the MAC of a response is computed over. -/
def responseMacInput (s : BacSession) (resp : ApduResponse) : Exec String Bytes := do
  let nextSsc ← checkedNextSsc s.ssc
  let objects ← objectLoop resp.data.length resp.data SmObjects.empty
  .ok (nextSsc.bytes ++ (objects.do87Bytes.getD [] ++ objects.do99Bytes.getD []))

/-- Found objects are among the objects, of the kind looked for. -/
theorem objectAt_eq_some (h : objectAt tag tlvs = some tlv) :
    tlv ∈ tlvs ∧ tlv.tag = tag := by
  have htag := find?_some h
  exact ⟨mem_of_find?_eq_some h, of_decide_eq_true htag⟩

/-- DO'99 has a fixed length. -/
theorem IsObject.status_encoded_length (hobject : IsObject tlv) (hcanonical : tlv.Canonical) (htag : tlv.tag = 0x99) :
    tlv.encoded.length = 4 := by
  have hlen : tlv.value.length = 2 := by
    cases hobject with
    | data htag' => rw [htag] at htag'; exact absurd htag' (by decide)
    | status _ hlen => exact hlen
    | mac htag' => rw [htag] at htag'; exact absurd htag' (by decide)
  rw [hcanonical.encoded_eq, berTlv, length_cons, length_append, hlen]
  rfl

/-- Two optional objects with the same bytes are the same; no object has no bytes. -/
theorem object_eq_of_bytes {o o' : Option BerTlv} (ho : ∀ tlv, o = some tlv → tlv.Canonical)
    (ho' : ∀ tlv, o' = some tlv → tlv.Canonical)
    (h : (o.map BerTlv.encoded).getD [] = (o'.map BerTlv.encoded).getD []) : o = o' := by
  cases o with
  | none =>
    cases o' with
    | none => rfl
    | some tlv' => exact absurd h.symm (ne_nil_of_length_pos (ho' tlv' rfl).encoded_length_pos)
  | some tlv =>
    cases o' with
    | none => exact absurd h (ne_nil_of_length_pos (ho tlv rfl).encoded_length_pos)
    | some tlv' => rw [(ho tlv rfl).eq_of_encoded (ho' tlv' rfl) h]

/-- **The MAC input determines the objects that are returned**: DO'99 is its last four bytes. -/
theorem objectAt_eq_of_macInput {tlvs' : List BerTlv}
    (htlvs : ∀ tlv ∈ tlvs, tlv.Canonical ∧ IsObject tlv) (htlvs' : ∀ tlv ∈ tlvs', tlv.Canonical ∧ IsObject tlv)
    {do99 do99' : BerTlv} (hdo99 : objectAt 0x99 tlvs = some do99) (hdo99' : objectAt 0x99 tlvs' = some do99')
    (h : (absorbed tlvs).do87Bytes.getD [] ++ do99.encoded = (absorbed tlvs').do87Bytes.getD [] ++ do99'.encoded) :
    objectAt 0x87 tlvs = objectAt 0x87 tlvs' ∧ do99 = do99' := by
  have hcanonical {tag : UInt8} {tlvs : List BerTlv} (htlvs : ∀ tlv ∈ tlvs, tlv.Canonical ∧ IsObject tlv)
      (tlv : BerTlv) (hat : objectAt tag tlvs = some tlv) : tlv.Canonical :=
    (htlvs tlv (objectAt_eq_some hat).1).1
  have hfour {tlvs : List BerTlv} (htlvs : ∀ tlv ∈ tlvs, tlv.Canonical ∧ IsObject tlv) {tlv : BerTlv}
      (hat : objectAt 0x99 tlvs = some tlv) : tlv.encoded.length = 4 := by
    obtain ⟨hmem, htag⟩ := objectAt_eq_some hat
    exact (htlvs tlv hmem).2.status_encoded_length (htlvs tlv hmem).1 htag
  -- the two concatenations split at the same place, four bytes from the end
  obtain ⟨hdo87, hstatus⟩ := append_inj' h (by rw [hfour htlvs hdo99, hfour htlvs' hdo99'])
  exact ⟨object_eq_of_bytes (hcanonical htlvs) (hcanonical htlvs') hdo87,
    (hcanonical htlvs _ hdo99).eq_of_encoded (hcanonical htlvs' _ hdo99') hstatus⟩

theorem unprotectResponse_bound {s s₁ s₂ : BacSession} {resp₁ resp₂ reply₁ reply₂ : ApduResponse}
    (h₁ : (unprotectResponse cipher resp₁).run s = (.ok reply₁, s₁))
    (h₂ : (unprotectResponse cipher resp₂).run s = (.ok reply₂, s₂))
    (hmac : responseMacInput s resp₁ = responseMacInput s resp₂) : reply₁ = reply₂ ∧ s₁ = s₂ := by
  obtain ⟨next₁, objects₁, status₁, mac₁, rfl, hun₁⟩ := (unprotectResponse_commits cipher resp₁ s).of_ok h₁
  obtain ⟨next₂, objects₂, status₂, mac₂, rfl, hun₂⟩ := (unprotectResponse_commits cipher resp₂ s).of_ok h₂
  obtain rfl : next₁ = next₂ := by
    have hcounter := hun₁.counter
    rw [hun₂.counter] at hcounter
    injection hcounter with hcounter
    exact hcounter.symm
  refine ⟨?_, rfl⟩
  -- the counters agree, so the inputs agree behind them
  have hinput : objects₁.do87Bytes.getD [] ++ objects₁.do99Bytes.getD []
      = objects₂.do87Bytes.getD [] ++ objects₂.do99Bytes.getD [] := by
    unfold responseMacInput at hmac
    rw [hun₁.counter, hun₁.parsed, hun₂.parsed] at hmac
    injection hmac with hmac
    exact append_cancel_left hmac
  obtain ⟨tlvs₁, -, htlvs₁, -, rfl⟩ := objectLoop_empty_ok_iff.mp hun₁.parsed
  obtain ⟨tlvs₂, -, htlvs₂, -, rfl⟩ := objectLoop_empty_ok_iff.mp hun₂.parsed
  obtain ⟨do99₁, hdo99₁, rfl⟩ := Option.map_eq_some_iff.mp hun₁.do99
  obtain ⟨do99₂, hdo99₂, rfl⟩ := Option.map_eq_some_iff.mp hun₂.do99
  rw [hun₁.do99, hun₂.do99] at hinput
  obtain ⟨hdo87, rfl⟩ := objectAt_eq_of_macInput htlvs₁ htlvs₂ hdo99₁ hdo99₂ hinput
  have hplain := hun₁.plain
  rw [show (absorbed tlvs₁).encryptedData = (absorbed tlvs₂).encryptedData from
    congrArg (Option.map _) hdo87, hun₂.plain] at hplain
  have hstatus := hun₁.status
  rw [show (absorbed tlvs₁).status = (absorbed tlvs₂).status from
    congrArg (Option.map _) (hdo99₁.trans hdo99₂.symm), hun₂.status] at hstatus
  injection hplain with hdata
  injection hstatus with hwords
  injection hwords with hsw1 hsw2
  cases reply₁
  cases reply₂
  rw [ApduResponse.mk.injEq]
  exact ⟨hdata.symm, hsw1.symm, hsw2.symm⟩

/-- **Protected responses round-trip and bind everything returned.** On a lawful cipher and with a counter that
    is not exhausted:
    data up to the bound of a command can be built into a response that fits;
    whatever is built and fits is accepted in every order of its objects, whatever the outer status bytes are, and
    yields exactly the data and the status word it was built from;
    two responses that the session accepts with the same MAC input return the same;
    and the outer status bytes never matter, not even to the error. -/
theorem response_round_trip_and_binding (cipher : TdesCbc) (hlawful : cipher.Lawful) (s : BacSession)
    (nextSsc : Block 8) (hnext : checkedNextSsc s.ssc = .ok nextSsc) :
    (∀ (data : Bytes) (sw1 sw2 : UInt8), data.length ≤ maxBacCommandDataBytes →
      ∃ built, responseObjects cipher s data sw1 sw2 = .ok built ∧
        built.flatten.length ≤ maxBacProtectedResponseBytes) ∧
    (∀ (data : Bytes) (sw1 sw2 : UInt8) (built objects : List Bytes) (outer1 outer2 : UInt8),
      responseObjects cipher s data sw1 sw2 = .ok built → objects.Perm built →
      objects.flatten.length ≤ maxBacProtectedResponseBytes →
      (unprotectResponse cipher ⟨objects.flatten, outer1, outer2⟩).run s
        = (.ok ⟨data, sw1, sw2⟩, { s with ssc := nextSsc })) ∧
    (∀ resp₁ resp₂ reply₁ reply₂ s₁ s₂,
      (unprotectResponse cipher resp₁).run s = (.ok reply₁, s₁) →
      (unprotectResponse cipher resp₂).run s = (.ok reply₂, s₂) →
      responseMacInput s resp₁ = responseMacInput s resp₂ → reply₁ = reply₂ ∧ s₁ = s₂) ∧
    (∀ data outer1 outer2 outer1' outer2',
      (unprotectResponse cipher ⟨data, outer1, outer2⟩).run s
        = (unprotectResponse cipher ⟨data, outer1', outer2'⟩).run s) := by
  refine ⟨?_, ?_, ?_, ?_⟩
  · intro data sw1 sw2 hsize
    exact responseObjects_ok hlawful sw1 sw2 hnext hsize
  · intro data sw1 sw2 built objects outer1 outer2 hbuilt hperm hsize
    exact unprotectResponse_built hlawful hnext hbuilt hperm hsize outer1 outer2
  · intro resp₁ resp₂ reply₁ reply₂ s₁ s₂ h₁ h₂ hmac
    exact unprotectResponse_bound h₁ h₂ hmac
  · intro data outer1 outer2 outer1' outer2'
    rfl

/-! ## The worked example of ICAO 9303 -/

/-- The session keys and the counter of the example. -/
def icaoSession : BacSession where
  kEnc := ⟨[0x97, 0x9E, 0xC1, 0x3B, 0x1C, 0xBF, 0xE9, 0xDC, 0xD0, 0x1A, 0xB0, 0xFE, 0xD3, 0x07, 0xEA, 0xE5], rfl⟩
  kMac := ⟨[0xF1, 0xCB, 0x1F, 0x1F, 0xB5, 0xAD, 0xF2, 0x08, 0x80, 0x6B, 0x89, 0xDC, 0x57, 0x9D, 0xC1, 0xF8], rfl⟩
  ssc := ⟨[0x88, 0x70, 0x22, 0x12, 0x0C, 0x06, 0xC2, 0x29], rfl⟩

/-- The counter of the example's response. -/
def icaoNextSsc : Block 8 := ⟨[0x88, 0x70, 0x22, 0x12, 0x0C, 0x06, 0xC2, 0x2A], rfl⟩

/-- The three transformations that the example's response needs, with the values of 3DES; each key's permutation
    exchanges one plaintext with its ciphertext. -/
def icaoPermutation (key : Bytes) : Equiv.Perm Bytes :=
  if key = extendTo24Bytes icaoSession.kEnc then
    Equiv.swap [0x60, 0x14, 0x5F, 0x01, 0x80, 0x00, 0x00, 0x00] [0x9F, 0xF0, 0xEC, 0x34, 0xF9, 0x92, 0x26, 0x51]
  else if key = extendSingleDes (icaoSession.kMac.bytes.take 8) then
    Equiv.swap
      [0x88, 0x70, 0x22, 0x12, 0x0C, 0x06, 0xC2, 0x2A, 0x87, 0x09, 0x01, 0x9F, 0xF0, 0xEC, 0x34, 0xF9]
      [0xFC, 0x8C, 0x04, 0x1C, 0x87, 0x26, 0x13, 0x37, 0xF2, 0x51, 0x46, 0x10, 0x61, 0xC4, 0x69, 0x6A]
  else
    Equiv.swap [0x60, 0x77, 0x17, 0x89, 0x63, 0x54, 0x69, 0xEA] [0xAD, 0x55, 0xCC, 0x17, 0x14, 0x0B, 0x2D, 0xED]

def icaoCipher : TdesCbc where
  encrypt key _ data := icaoPermutation key data
  decrypt key _ data := (icaoPermutation key).symm data

theorem length_swap {a b : Bytes} (h : a.length = b.length) (data : Bytes) :
    (Equiv.swap a b data).length = data.length := by
  rw [Equiv.swap_apply_def]
  split
  · rename_i hdata
    rw [hdata, h]
  · split
    · rename_i hdata
      rw [hdata, h]
    · rfl

theorem icaoCipher_lawful : icaoCipher.Lawful where
  encrypt_length key _ data _ _ _ := by
    show (icaoPermutation key data).length = data.length
    unfold icaoPermutation
    split
    · exact length_swap (by decide) data
    · split
      · exact length_swap (by decide) data
      · exact length_swap (by decide) data
  decrypt_encrypt key _ data _ _ _ := (icaoPermutation key).symm_apply_apply data

/-- The objects of the example's response. -/
def icaoObjects : List Bytes :=
  [[0x87, 0x09, 0x01, 0x9F, 0xF0, 0xEC, 0x34, 0xF9, 0x92, 0x26, 0x51], [0x99, 0x02, 0x90, 0x00],
    [0x8E, 0x08, 0xAD, 0x55, 0xCC, 0x17, 0x14, 0x0B, 0x2D, 0xED]]

/-- The response of the example is read in reverse order too, and under a wrong outer status word. -/
theorem response_round_trip_and_binding_icao :
    responseObjects icaoCipher icaoSession [0x60, 0x14, 0x5F, 0x01] 0x90 0x00 = .ok icaoObjects ∧
    (unprotectResponse icaoCipher ⟨icaoObjects.reverse.flatten, 0x6A, 0x82⟩).run icaoSession
      = (.ok ⟨[0x60, 0x14, 0x5F, 0x01], 0x90, 0x00⟩, { icaoSession with ssc := icaoNextSsc }) := by
  have hbuilt : responseObjects icaoCipher icaoSession [0x60, 0x14, 0x5F, 0x01] 0x90 0x00 = .ok icaoObjects := by
    decide
  have htheorem := response_round_trip_and_binding icaoCipher icaoCipher_lawful icaoSession icaoNextSsc
    (by decide)
  exact ⟨hbuilt, htheorem.2.1 _ 0x90 0x00 icaoObjects _ 0x6A 0x82 hbuilt (reverse_perm _) (by decide)⟩

end MartyCore.ChipIo
