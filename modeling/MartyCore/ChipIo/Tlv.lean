import MartyCore.ChipIo.Model

/-!
# `ChipIo.Tlv` — the BER-TLV codec

`berTlv` is the canonical encoding of an object. `pushBerTlv` appends it; `nextBerTlv` takes an object off the
front of a byte string exactly when the string begins with the canonical encoding of one
(`nextBerTlv_ok_iff`), so an encoding determines its object.
-/

namespace MartyCore.ChipIo

open Exec List

/-! ## Encoding -/

/-- The canonical length field. -/
def berLengthBytes (n : Nat) : Bytes :=
  if n ≤ 0x7f then [UInt8.ofNat n]
  else if n ≤ 0xff then [0x81, UInt8.ofNat n]
  else [0x82, UInt8.ofNat (n / 256), UInt8.ofNat (n % 256)]

/-- The canonical encoding of an object. -/
def berTlv (tag : UInt8) (value : Bytes) : Bytes := tag :: (berLengthBytes value.length ++ value)

variable {tag : UInt8} {value : Bytes}

/-- The three forms of the length field are one canonical encoding. -/
theorem pushBerTlv_ok_iff {output encoded : Bytes} :
    pushBerTlv tag value output = .ok encoded ↔ value.length ≤ 0xffff ∧ encoded = output ++ berTlv tag value := by
  unfold pushBerTlv berTlv berLengthBytes
  split_ifs with hshort hmedium hfits
  · simp [show value.length ≤ 0xffff by omega, eq_comm]
  · simp [show value.length ≤ 0xffff by omega, eq_comm]
  · simp [hfits, eq_comm]
  · simp [hfits, fail]

/-- The object of a tag and a value. -/
def BerTlv.of (tag : UInt8) (value : Bytes) : BerTlv := ⟨tag, berTlv tag value, value⟩

/-- An object the decoder can return: encoded canonically, with a length of at most two bytes. -/
structure BerTlv.Canonical (tlv : BerTlv) : Prop where
  encoded_eq : tlv.encoded = berTlv tlv.tag tlv.value
  fits : tlv.value.length ≤ 0xffff

theorem BerTlv.of_canonical (h : value.length ≤ 0xffff) : (BerTlv.of tag value).Canonical := ⟨rfl, h⟩

/-! ## Decoding -/

/-- The decoder reads the canonical length back. -/
theorem berLength_berTlv {rest : Bytes} (context : String) (h : value.length ≤ 0xffff) :
    berLength (berTlv tag value ++ rest) context
      = .ok (1 + (berLengthBytes value.length).length, value.length) := by
  unfold berLength berTlv berLengthBytes
  -- one case per form of the length field; each time the bytes read are the bytes written
  by_cases hshort : value.length ≤ 0x7f
  · have hval := UInt8.toNat_ofNat_of_lt' (show value.length < 256 by omega)
    have hle : UInt8.ofNat value.length ≤ 0x7f := by
      rw [UInt8.le_iff_toNat_le, hval]
      exact hshort
    simp [hshort, Exec.orFail, Result.orFail, hle, hval]
  · by_cases hmedium : value.length ≤ 0xff
    · have hval := UInt8.toNat_ofNat_of_lt' (show value.length < 256 by omega)
      have hcanonical : ¬ value.length < 128 := by omega
      simp [hshort, hmedium, Exec.orFail, Result.orFail, Exec.reject, Result.reject, hval, hcanonical]
    · have hhigh := UInt8.toNat_ofNat_of_lt' (show value.length / 256 < 256 by omega)
      have hlow := UInt8.toNat_ofNat_of_lt' (show value.length % 256 < 256 by omega)
      have hboth : value.length / 256 * 256 + value.length % 256 = value.length := by omega
      simp [hshort, hmedium, Exec.orFail, Result.orFail, Exec.reject, Result.reject, hhigh, hlow, hboth]

/-- **Decoding reads an encoding back**, whatever follows it. -/
theorem nextBerTlv_berTlv {rest : Bytes} (context : String) (h : value.length ≤ 0xffff) :
    nextBerTlv (berTlv tag value ++ rest) context = .ok (⟨tag, berTlv tag value, value⟩, rest) := by
  have hsize : (berTlv tag value).length
      = 1 + (berLengthBytes value.length).length + value.length := by
    simp only [berTlv, length_cons, length_append]
    omega
  have htake : (berTlv tag value ++ rest).take (1 + (berLengthBytes value.length).length + value.length)
      = berTlv tag value := by rw [← hsize, take_left]
  have hdrop : (berTlv tag value ++ rest).drop (1 + (berLengthBytes value.length).length + value.length)
      = rest := by rw [← hsize, drop_left]
  have hvalue : (berTlv tag value).drop (1 + (berLengthBytes value.length).length) = value := by
    rw [Nat.add_comm, berTlv, drop_succ_cons, drop_left]
  have hguard : ¬ (berTlv tag value ++ rest).length
      < 1 + (berLengthBytes value.length).length + value.length := by
    rw [length_append]
    omega
  unfold nextBerTlv
  rw [berLength_berTlv context h]
  refine bind_ok_iff.mpr ⟨tag, rfl, bind_ok_iff.mpr ⟨_, rfl, ?_⟩⟩
  refine reject_bind_ok_iff.mpr ⟨hguard, ?_⟩
  simp only [htake, hdrop, hvalue]

theorem berLengthBytes_short {b : UInt8} (h : b ≤ 0x7f) : berLengthBytes b.toNat = [b] := by
  have hle : b.toNat ≤ 0x7f := UInt8.le_iff_toNat_le.mp h
  unfold berLengthBytes
  rw [if_pos hle, UInt8.ofNat_toNat]

theorem berLengthBytes_medium {b : UInt8} (h : ¬ b.toNat < 0x80) : berLengthBytes b.toNat = [0x81, b] := by
  have hlt := b.toNat_lt
  unfold berLengthBytes
  rw [if_neg (by omega), if_pos (by omega), UInt8.ofNat_toNat]

theorem berLengthBytes_long {high low : UInt8} (h : ¬ high.toNat * 256 + low.toNat ≤ 0xff) :
    berLengthBytes (high.toNat * 256 + low.toNat) = [0x82, high, low] := by
  have hlow := low.toNat_lt
  unfold berLengthBytes
  rw [if_neg (by omega), if_neg h, show (high.toNat * 256 + low.toNat) / 256 = high.toNat by omega,
    show (high.toNat * 256 + low.toNat) % 256 = low.toNat by omega, UInt8.ofNat_toNat, UInt8.ofNat_toNat]

variable {context : String}

theorem exists_cons_of_orFail {e : String} {data : Bytes} {b : UInt8} (h : orFail e data[0]? = .ok b) :
    ∃ rest, data = b :: rest :=
  head?_eq_some_iff.mp (head?_eq_getElem?.trans (orFail_ok_iff.mp h))

/-- An accepted length field is the canonical one. -/
theorem berLength_ok {tail : Bytes} {lengths : Nat × Nat}
    (h : berLength (tag :: tail) context = .ok lengths) :
    lengths.2 ≤ 0xffff ∧ lengths.1 = 1 + (berLengthBytes lengths.2).length ∧
      ∃ rest, tail = berLengthBytes lengths.2 ++ rest := by
  obtain ⟨first, hfirst, h⟩ := of_bind h
  obtain ⟨rest, rfl⟩ := @exists_cons_of_orFail _ tail _ hfirst
  have hlt := first.toNat_lt
  -- the tests for minimality are what makes the longer forms canonical
  split at h
  · rename_i hshort
    cases h
    rw [berLengthBytes_short hshort]
    exact ⟨by omega, rfl, rest, rfl⟩
  · split at h
    · rename_i hmedium
      obtain ⟨value, hvalue, h⟩ := of_bind h
      obtain ⟨hcanonical, h⟩ := of_reject h
      cases h
      rw [berLengthBytes_medium hcanonical]
      have hbyte := value.toNat_lt
      obtain ⟨rest, rfl⟩ := @exists_cons_of_orFail _ rest _ hvalue
      exact ⟨by omega, rfl, rest, by rw [hmedium]; rfl⟩
    · split at h
      · rename_i hlong
        obtain ⟨high, hhigh, h⟩ := of_bind h
        obtain ⟨low, hlow, h⟩ := of_bind h
        obtain ⟨hcanonical, h⟩ := of_reject h
        cases h
        rw [berLengthBytes_long hcanonical]
        have hbyte := high.toNat_lt
        have hbyte' := low.toNat_lt
        obtain ⟨rest, rfl⟩ := @exists_cons_of_orFail _ rest _ hhigh
        obtain ⟨rest, rfl⟩ := @exists_cons_of_orFail _ rest _ hlow
        exact ⟨by omega, rfl, rest, by rw [hlong]; rfl⟩
      · cases h

/-- Only canonical encodings are decoded. -/
theorem nextBerTlv_ok {data : Bytes} {next : BerTlv × Bytes}
    (h : nextBerTlv data context = .ok next) :
    next.1.Canonical ∧ data = next.1.encoded ++ next.2 := by
  obtain ⟨tag, htag, h⟩ := of_bind h
  obtain ⟨tail, rfl⟩ := exists_cons_of_orFail htag
  obtain ⟨⟨header, size⟩, hlengths, h⟩ := of_bind h
  obtain ⟨hsize, hheader, rest, htail⟩ := berLength_ok hlengths
  simp only at hsize hheader htail h
  obtain ⟨hfits, h⟩ := of_reject h
  cases h
  subst htail
  subst hheader
  have hrest : size ≤ rest.length := by
    simp only [length_cons, length_append] at hfits
    omega
  -- the header is `tag :: berLengthBytes size`, so the slices fall on `rest`
  have hcons : 1 + (berLengthBytes size).length + size = ((berLengthBytes size).length + size) + 1 := by
    omega
  have htake : (tag :: (berLengthBytes size ++ rest)).take (1 + (berLengthBytes size).length + size)
      = tag :: (berLengthBytes size ++ rest.take size) := by
    rw [hcons, take_succ_cons, take_length_add_append]
  have hdrop : (tag :: (berLengthBytes size ++ rest)).drop (1 + (berLengthBytes size).length + size)
      = rest.drop size := by
    rw [hcons, drop_succ_cons, drop_length_add_append]
  have hvalue : (tag :: (berLengthBytes size ++ rest.take size)).drop (1 + (berLengthBytes size).length)
      = rest.take size := by
    rw [Nat.add_comm, drop_succ_cons, drop_left]
  have hlen : (rest.take size).length = size := length_take_of_le hrest
  simp only [htake, hdrop, hvalue]
  refine ⟨⟨?_, ?_⟩, ?_⟩
  · simp only [berTlv, hlen]
  · rw [hlen]
    exact hsize
  · rw [cons_append, append_assoc, take_append_drop]

/-- **The decoder accepts exactly the canonical encodings**, whatever follows them. -/
theorem nextBerTlv_ok_iff {data rest : Bytes} {tlv : BerTlv} :
    nextBerTlv data context = .ok (tlv, rest) ↔ tlv.Canonical ∧ data = tlv.encoded ++ rest := by
  constructor
  · exact nextBerTlv_ok
  · rintro ⟨hcanonical, rfl⟩
    obtain ⟨tag, encoded, value⟩ := tlv
    obtain rfl : encoded = berTlv tag value := hcanonical.encoded_eq
    exact nextBerTlv_berTlv context hcanonical.fits

/-- An encoding determines its object. -/
theorem BerTlv.Canonical.eq_of_encoded {tlv tlv' : BerTlv} (h : tlv.Canonical) (h' : tlv'.Canonical)
    (heq : tlv.encoded = tlv'.encoded) : tlv = tlv' := by
  have hread : nextBerTlv (tlv.encoded ++ []) "" = .ok (tlv, []) := nextBerTlv_ok_iff.mpr ⟨h, rfl⟩
  have hread' : nextBerTlv (tlv.encoded ++ []) "" = .ok (tlv', []) :=
    nextBerTlv_ok_iff.mpr ⟨h', by rw [heq]⟩
  rw [hread] at hread'
  injection hread' with hread'
  exact congrArg Prod.fst hread'

end MartyCore.ChipIo
