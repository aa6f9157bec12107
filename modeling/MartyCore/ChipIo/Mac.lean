import MartyCore.ChipIo.Model

/-!
# `ChipIo.Mac` — padding and the retail MAC on a lawful cipher

`iso7816Pad` fills to whole blocks and `iso7816Unpad` takes the filling off again. On a cipher that keeps the
length of whole blocks (`TdesCbc.Lawful`), none of the parameter checks below the retail MAC can fail: it is a
total function with values of eight bytes.
-/

namespace MartyCore.ChipIo

open List

/-- What the code relies on in the cipher: on whole blocks, under keys and IVs of the right size, encryption keeps
    the length and decryption undoes it. -/
structure TdesCbc.Lawful (cipher : TdesCbc) : Prop where
  encrypt_length : ∀ key iv data : Bytes, key.length = 24 → iv.length = 8 → data.length % 8 = 0 →
    (cipher.encrypt key iv data).length = data.length
  decrypt_encrypt : ∀ key iv data : Bytes, key.length = 24 → iv.length = 8 → data.length % 8 = 0 →
    cipher.decrypt key iv (cipher.encrypt key iv data) = data

/-! ## Padding -/

/-- The loop stops at a block boundary when one is within reach. -/
theorem zeroFill_spec {fuel : Nat} {padded : Bytes} (h : ∃ k ≤ fuel, (padded.length + k) % 8 = 0) :
    ∃ k, zeroFill fuel padded = padded ++ List.replicate k 0x00 ∧ (padded.length + k) % 8 = 0 ∧ k ≤ fuel := by
  induction fuel generalizing padded with
  | zero =>
    obtain ⟨k, hk, hboundary⟩ := h
    obtain rfl : k = 0 := by omega
    exact ⟨0, (append_nil padded).symm, hboundary, hk⟩
  | succ fuel ih =>
    unfold zeroFill
    split
    · rename_i hboundary
      exact ⟨0, (append_nil padded).symm, hboundary, Nat.zero_le _⟩
    · rename_i hinside
      -- one zero more, one step less to the boundary
      obtain ⟨k, hk, hboundary⟩ := h
      have hlen : (padded ++ [(0x00 : UInt8)]).length = padded.length + 1 := by simp
      obtain ⟨k', hfill, hboundary', hk'⟩ :=
        @ih (padded ++ [0x00]) ⟨k - 1, by omega, by rw [hlen]; omega⟩
      refine ⟨k' + 1, ?_, by rw [hlen] at hboundary'; omega, by omega⟩
      rw [hfill, append_assoc, replicate_succ]
      rfl

theorem iso7816Pad_spec (data : Bytes) :
    ∃ k, iso7816Pad data = data ++ 0x80 :: List.replicate k 0x00 ∧ (data.length + 1 + k) % 8 = 0 ∧ k ≤ 7 := by
  have hlen : (data ++ [(0x80 : UInt8)]).length = data.length + 1 := by simp
  have hreach : ∃ k ≤ 7, ((data ++ [(0x80 : UInt8)]).length + k) % 8 = 0 :=
    ⟨(8 - (data.length + 1) % 8) % 8, by omega, by rw [hlen]; omega⟩
  obtain ⟨k, hfill, hboundary, hk⟩ := zeroFill_spec hreach
  rw [hlen] at hboundary
  refine ⟨k, ?_, hboundary, hk⟩
  rw [iso7816Pad, hfill, append_assoc]
  rfl

theorem iso7816Pad_length (data : Bytes) :
    (iso7816Pad data).length % 8 = 0 ∧ data.length < (iso7816Pad data).length ∧
      (iso7816Pad data).length ≤ data.length + 8 := by
  obtain ⟨k, hpad, hboundary, hk⟩ := iso7816Pad_spec data
  have hlen : (iso7816Pad data).length = data.length + 1 + k := by
    rw [hpad, length_append, length_cons, length_replicate]
    omega
  rw [hlen]
  exact ⟨hboundary, by omega, by omega⟩

theorem iso7816Pad_ne_nil (data : Bytes) : iso7816Pad data ≠ [] := by
  have := (iso7816Pad_length data).2.1
  rw [← length_pos_iff]
  omega

theorem unpadLoop_replicate (k : Nat) (rest : Bytes) :
    unpadLoop (List.replicate k 0x00 ++ 0x80 :: rest) = some rest := by
  induction k with
  | zero => rfl
  | succ k ih => exact ih

/-- **Unpadding undoes padding.** -/
theorem iso7816Unpad_iso7816Pad (data : Bytes) : iso7816Unpad (iso7816Pad data) = .ok data := by
  obtain ⟨k, hpad, -, -⟩ := iso7816Pad_spec data
  have hreverse : (iso7816Pad data).reverse = List.replicate k 0x00 ++ 0x80 :: data.reverse := by
    rw [hpad, reverse_append, reverse_cons, reverse_replicate, append_assoc]
    rfl
  unfold iso7816Unpad
  rw [hreverse, unpadLoop_replicate, Exec.orFail_ok_iff, Option.map_some, reverse_reverse]

/-! ## The cipher's parameters -/

theorem extendTo24Bytes_length (key16 : Block 16) : (extendTo24Bytes key16).length = 24 := by
  have := key16.length_eq
  simp only [extendTo24Bytes, length_append, length_take, length_drop]
  omega

theorem validateTdesParams_ok {key iv data : Bytes} (hkey : key.length = 24) (hiv : iv.length = 8)
    (hdata : data ≠ []) (hblocks : data.length % 8 = 0) : validateTdesParams key iv data = .ok () := by
  refine Exec.reject_bind_ok_iff.mpr ⟨not_not.mpr hkey, ?_⟩
  refine Exec.reject_bind_ok_iff.mpr ⟨not_not.mpr hiv, ?_⟩
  rw [Exec.reject_ok_iff]
  rintro (h | h)
  · exact hdata h
  · exact h hblocks

theorem tdesCbcEncrypt_ok (cipher : TdesCbc) {key iv data : Bytes} (hkey : key.length = 24)
    (hiv : iv.length = 8) (hdata : data ≠ []) (hblocks : data.length % 8 = 0) :
    tdesCbcEncrypt cipher key iv data = .ok (cipher.encrypt key iv data) := by
  unfold tdesCbcEncrypt
  rw [validateTdesParams_ok hkey hiv hdata hblocks]
  rfl

/-! ## Retail MAC -/

/-- The chaining value is one block. -/
theorem macIntermediate_ok {cipher : TdesCbc} (hlawful : cipher.Lawful) (key16 : Block 16) {padded : Bytes}
    {n : Nat} (hn : padded.length = n * 8) :
    ∃ intermediate, macIntermediate cipher key16 padded n = .ok intermediate ∧ intermediate.length = 8 := by
  unfold macIntermediate
  split
  · have hkey : (extendSingleDes (key16.bytes.take 8)).length = 24 := by
      simp only [extendSingleDes, length_append, length_take, key16.length_eq]
      rfl
    have hfront : (padded.take ((n - 1) * 8)).length = (n - 1) * 8 := by
      apply length_take_of_le
      omega
    have hnonempty : padded.take ((n - 1) * 8) ≠ [] := by
      rw [← length_pos_iff, hfront]
      omega
    have hblocks : (padded.take ((n - 1) * 8)).length % 8 = 0 := by
      rw [hfront]
      exact Nat.mul_mod_left _ _
    have hcbc := hlawful.encrypt_length _ icao3desCbcIv _ hkey rfl hblocks
    rw [tdesCbcEncrypt_ok cipher hkey rfl hnonempty hblocks]
    refine ⟨_, if_neg ?_, ?_⟩
    · omega
    · rw [length_drop, hcbc, hfront]
      omega
  · exact ⟨icao3desCbcIv, rfl, rfl⟩

/-- **The retail MAC is total on a lawful cipher**, and eight bytes long. -/
theorem retailMac3des_ok {cipher : TdesCbc} (hlawful : cipher.Lawful) (key16 : Block 16) (data : Bytes) :
    ∃ mac, retailMac3des cipher key16 data = .ok mac ∧ mac.length = 8 := by
  obtain ⟨hmod, hlt, -⟩ := iso7816Pad_length data
  have hn : (iso7816Pad data).length = (iso7816Pad data).length / 8 * 8 := by omega
  obtain ⟨intermediate, hint, hlen⟩ := macIntermediate_ok hlawful key16 hn
  -- the last block and the chaining value are both eight bytes
  obtain ⟨xored, hxored⟩ : ∃ xored, List.zipWith (fun a b => a ^^^ b) intermediate
      ((iso7816Pad data).drop (((iso7816Pad data).length / 8 - 1) * 8)) = xored := ⟨_, rfl⟩
  have hblock : xored.length = 8 := by
    rw [← hxored, length_zipWith, hlen, length_drop]
    omega
  have hnonempty : xored ≠ [] := by
    rw [← length_pos_iff, hblock]
    decide
  have hblocks : xored.length % 8 = 0 := by rw [hblock]
  have hfinal := hlawful.encrypt_length _ icao3desCbcIv _ (extendTo24Bytes_length key16) rfl hblocks
  have hencrypt : tdesCbcEncrypt cipher (extendTo24Bytes key16) icao3desCbcIv xored = .ok _ :=
    tdesCbcEncrypt_ok cipher (extendTo24Bytes_length key16) rfl hnonempty hblocks
  have hmac : retailMac3des cipher key16 data
      = .ok ((cipher.encrypt (extendTo24Bytes key16) icao3desCbcIv xored).take 8) := by
    refine Exec.bind_ok_iff.mpr ⟨intermediate, hint, Exec.bind_ok_iff.mpr ⟨_, ?_, if_neg ?_⟩⟩
    · simp only [hxored]
      exact Exec.mapErr_ok_iff.mpr hencrypt
    · rw [hfinal, hblock]
      decide
  refine ⟨_, hmac, ?_⟩
  rw [length_take, hfinal, hblock]
  rfl

end MartyCore.ChipIo
