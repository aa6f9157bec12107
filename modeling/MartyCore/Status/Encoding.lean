import MartyCore.Status.Lists

/-!
# `Status.Encoding` — the encoded form of a status list, and the lists as arrays

An encoded list is read back when the compressor's decoder inverts it and its output stays within the bound the
source allows for (`Codec.Inverts`): the base64 text is then short enough, and the decoder stops exactly at the
advertised length. With what `Status.Lists` says about runs of operations this is the contract of both lists
(`status_lists_are_packed_arrays`).
-/

namespace MartyCore.Status

open Result List

/-- **What is assumed of a compressor**: it always produces something, of at most twice the size and 1024 bytes, and
    its decoder gives the input back and ends there. -/
def Codec.Inverts (codec : Codec) : Prop :=
  ∀ data, ∃ compressed, codec.encode data = .ok compressed ∧ codec.decode compressed = ⟨data, none⟩ ∧
    compressed.length ≤ 2 * data.length + 1024

/-! ## The steps of decoding -/

theorem divCeil_le (a : Nat) {b : Nat} (hb : 0 < b) : divCeil a b ≤ a := by
  have hle : a + (b - 1) < b * (a + 1) := by
    obtain ⟨c, rfl⟩ : ∃ c, b = c + 1 := ⟨b - 1, by omega⟩
    have hmul : a ≤ (c + 1) * a := Nat.le_mul_of_pos_left a hb
    rw [Nat.mul_add, Nat.mul_one]
    omega
  exact Nat.le_of_lt_succ (Nat.div_lt_of_lt_mul hle)

/-- A compressed list within the compressor's bound has a text within the source's. -/
theorem validateEncodedLen_encode {compressed : Bytes} {expected : Nat} (hexpected : expected ≤ maxStatusListEntries)
    (hle : compressed.length ≤ 2 * expected + 1024) :
    validateEncodedLen (Str.len (Base64.encode compressed)) expected = .ok () := by
  refine Exec.reject_neg ?_
  rw [Str.len, Text.utf8Len_of_isAscii (Base64.encode_isAscii _), Base64.length_encode]
  simp only [saturatingAdd, saturatingMul, divCeil, usizeMax, maxStatusListEntries] at *
  omega

theorem decodeBase64url_encode (platform : Platform) (compressed : Bytes) :
    decodeBase64url platform (Base64.encode compressed) = .ok compressed := by
  rw [decodeBase64url, Base64.decode_encode]
  rfl

variable {data : Bytes}

/-- A decoder that ends after the expected bytes is read to its end. -/
theorem readExactBounded_of_length {expected : Nat} (hexpected : expected ≤ maxStatusListEntries)
    (hlength : data.length = expected) : readExactBounded ⟨data, none⟩ expected = .ok data := by
  have hlimit : ¬ saturatingAdd expected 1 ≤ data.length := by
    simp only [saturatingAdd, usizeMax, maxStatusListEntries] at *
    omega
  rw [readExactBounded, Reader.readToEnd, if_neg hlimit]
  show (Exec.reject (data.length ≠ expected) _ >>= _) = _
  rw [Exec.reject_neg_bind (not_not.mpr hlength)]
  rfl

variable {size : Nat}

theorem validateSize_of_le (h : size ≤ maxStatusListEntries) : validateSize size = .ok ⟨h⟩ :=
  dif_neg (Nat.not_lt_of_le h)

theorem validateBits_of_valid {bits : UInt8} (h : ValidBits bits) : validateBits bits = .ok ⟨h⟩ := dif_pos h

/-! ## Round trips -/

variable {platform : Platform}

namespace TokenStatusList

theorem fromBytes_ok_iff {bits : UInt8} {list : TokenStatusList} :
    fromBytes data size bits = .ok list ↔ list.data = data ∧ list.size = size ∧ list.bits = bits := by
  constructor
  · intro h
    obtain ⟨⟨hsize⟩, -, h⟩ := Exec.of_bind h
    obtain ⟨⟨hbits⟩, -, h⟩ := Exec.of_bind h
    dsimp only at h
    split at h
    · injection h with h
      rw [← h]
      exact ⟨rfl, rfl, rfl⟩
    · cases h
  · rintro ⟨rfl, rfl, rfl⟩
    rw [fromBytes, validateSize_of_le list.size_le, validateBits_of_valid list.bits_valid]
    exact dif_pos list.length_eq

theorem length_le (list : TokenStatusList) : list.data.length ≤ maxStatusListEntries := by
  rw [list.length_eq]
  exact (divCeil_le list.size list.layout.perByte_pos).trans list.size_le

/-- **An encoded token status list is read back as the same list.** -/
theorem fromBase64url_toBase64url (hcodec : platform.zlib.Inverts) (list : TokenStatusList) :
    ∃ encoded, list.toBase64url platform = .ok encoded ∧
      fromBase64url platform encoded list.size list.bits = .ok list := by
  obtain ⟨compressed, hencode, hdecode, hlength⟩ := hcodec list.data
  refine ⟨Base64.encode compressed, ?_, ?_⟩
  · rw [toBase64url, compress, hencode]
    rfl
  · have hsize := validateSize_of_le list.size_le
    have hbits := validateBits_of_valid list.bits_valid
    have hexpected : tokenByteLen list.size list.bits ≤ maxStatusListEntries := list.length_eq ▸ list.length_le
    rw [fromBase64url, hsize, ok_bind, hbits, ok_bind,
      validateEncodedLen_encode hexpected (list.length_eq ▸ hlength), ok_bind, decodeBase64url_encode,
      ok_bind, fromCompressed, hsize, ok_bind, hbits, ok_bind, hdecode,
      readExactBounded_of_length hexpected list.length_eq, ok_bind, fromBytes_ok_iff]
    exact ⟨rfl, rfl, rfl⟩

end TokenStatusList

namespace BitstringStatusList

theorem fromBytes_ok_iff {list : BitstringStatusList} :
    fromBytes data size = .ok list ↔ list.data = data ∧ list.size = size := by
  constructor
  · intro h
    obtain ⟨⟨hsize⟩, -, h⟩ := Exec.of_bind h
    dsimp only at h
    split at h
    · injection h with h
      rw [← h]
      exact ⟨rfl, rfl⟩
    · cases h
  · rintro ⟨rfl, rfl⟩
    rw [fromBytes, validateSize_of_le list.size_le]
    exact dif_pos list.length_eq

theorem length_le (list : BitstringStatusList) : list.data.length ≤ maxStatusListEntries := by
  rw [list.length_eq]
  exact (divCeil_le list.size (by omega)).trans list.size_le

/-- **An encoded bitstring status list is read back as the same list.** -/
theorem fromBase64url_toBase64url (hcodec : platform.gzip.Inverts) (list : BitstringStatusList) :
    ∃ encoded, list.toBase64url platform = .ok encoded ∧ fromBase64url platform encoded list.size = .ok list := by
  obtain ⟨compressed, hencode, hdecode, hlength⟩ := hcodec list.data
  refine ⟨'u' :: Base64.encode compressed, ?_, ?_⟩
  · rw [toBase64url, compress, hencode]
    rfl
  · have hsize := validateSize_of_le list.size_le
    have hpayload : stripMultibase ('u' :: Base64.encode compressed) = .ok (Base64.encode compressed) := rfl
    have hexpected : bitstringByteLen list.size ≤ maxStatusListEntries := list.length_eq ▸ list.length_le
    rw [fromBase64url, hsize, ok_bind, hpayload, ok_bind,
      validateEncodedLen_encode hexpected (list.length_eq ▸ hlength), ok_bind, decodeBase64url_encode,
      ok_bind, fromCompressed, hsize, ok_bind, hdecode,
      readExactBounded_of_length hexpected list.length_eq, ok_bind, fromBytes_ok_iff]
    exact ⟨rfl, rfl⟩

end BitstringStatusList

/-! ## The contract -/

section

variable {L V : Type} (machine : Cells.Machine L StatusListError V (Operation V))
  (get : L → Nat → Exec StatusListError V)

/-- **`list` is an array of entries that are `initial` at first.** After any operations an index below the size gives
    the last value that was written there, or the initial one, and any other index is refused; every operation
    either succeeds or returns its error, and none panics; one that fails leaves the list as it is, and any leaves
    the other entries. -/
structure IsArray (initial : Nat → V) (list : L) : Prop where
  get_eq : ∀ operations index, get (machine.runAll operations list).2 index =
    if index < machine.size list then .ok ((machine.lastValue list operations index).getD (initial index))
    else Exec.fail (.indexOutOfRange index (machine.size list))
  outcomes : ∀ operations, (machine.runAll operations list).1 = operations.map (machine.outcome list)
  unchanged : ∀ operations operation e list',
    Method.run (machine.apply operation) (machine.runAll operations list).2 = (.error e, list') →
      list' = (machine.runAll operations list).2
  frame : ∀ operations operation index, index ≠ machine.index operation →
    get (Method.run (machine.apply operation) (machine.runAll operations list).2).2 index =
      get (machine.runAll operations list).2 index

variable {machine get}

/-- A lawful machine whose `get` reads the view is an array. -/
theorem isArray_of_lawful (hlawful : machine.Lawful) (hget : ∀ list index, get list index =
      if index < machine.size list then .ok (machine.view list index)
      else Exec.fail (.indexOutOfRange index (machine.size list)))
    {initial : Nat → V} {list : L} (hinitial : ∀ index < machine.size list, machine.view list index = initial index) :
    IsArray machine get initial list where
  get_eq operations index := by
    obtain ⟨hsize, -, hview⟩ := hlawful.runAll_spec operations list
    rw [hget, hsize, hview]
    by_cases h : index < machine.size list
    · rw [if_pos h, if_pos h, hinitial index h]
    · rw [if_neg h, if_neg h]
  outcomes operations := (hlawful.runAll_spec operations list).2.1
  unchanged operations operation e list' hrun := by
    cases hrefusal : machine.refusal (machine.runAll operations list).2 operation with
    | some e' =>
      rw [hlawful.refused _ operation e' hrefusal, Prod.mk.injEq] at hrun
      exact hrun.2.symm
    | none =>
      obtain ⟨s', hok, -⟩ := hlawful.accepted _ operation hrefusal
      rw [hok] at hrun
      cases hrun
  frame operations operation index hne := by
    cases hrefusal : machine.refusal (machine.runAll operations list).2 operation with
    | some e' => rw [hlawful.refused _ operation e' hrefusal]
    | none =>
      obtain ⟨s', hok, hview, hsize, -⟩ := hlawful.accepted _ operation hrefusal
      rw [hok, hget, hget, hsize, hview, Function.update_of_ne hne]

end

/-- **Status lists are faithful packed arrays, and survive their encoding.** The bytes of a token status list are its
    entries as the digits of one number to the base `2 ^ bits`, lowest first; those of a bitstring status list are
    its entries as bits, highest first. -/
theorem status_lists_are_packed_arrays (platform : Platform) (hzlib : platform.zlib.Inverts)
    (hgzip : platform.gzip.Inverts) :
    (∀ data size bits list, TokenStatusList.fromBytes data size bits = .ok list →
      IsArray tokenMachine TokenStatusList.get
        (fun index => UInt8.ofNat (Bytes.leVal data / 2 ^ (bits.toNat * index) % 2 ^ bits.toNat)) list ∧
      ∀ operations, ∃ encoded,
        (tokenMachine.runAll operations list).2.toBase64url platform = .ok encoded ∧
        TokenStatusList.fromBase64url platform encoded size bits = .ok (tokenMachine.runAll operations list).2) ∧
    (∀ data size list, BitstringStatusList.fromBytes data size = .ok list →
      IsArray bitstringMachine BitstringStatusList.get
        (fun index => decide (Bytes.beVal data / 2 ^ (8 * data.length - 1 - index) % 2 = 1)) list ∧
      ∀ operations, ∃ encoded,
        (bitstringMachine.runAll operations list).2.toBase64url platform = .ok encoded ∧
        BitstringStatusList.fromBase64url platform encoded size = .ok (bitstringMachine.runAll operations list).2) := by
  constructor
  · intro data size bits list h
    obtain ⟨rfl, rfl, rfl⟩ := TokenStatusList.fromBytes_ok_iff.mp h
    refine ⟨isArray_of_lawful tokenMachine_lawful TokenStatusList.get_eq (fun _ => list.entry_eq_digit), ?_⟩
    intro operations
    have hsize : (tokenMachine.runAll operations list).2.size = list.size :=
      (tokenMachine_lawful.runAll_spec operations list).1
    rw [← hsize, ← tokenMachine_bits operations list]
    exact TokenStatusList.fromBase64url_toBase64url hzlib _
  · intro data size list h
    obtain ⟨rfl, rfl⟩ := BitstringStatusList.fromBytes_ok_iff.mp h
    refine ⟨isArray_of_lawful bitstringMachine_lawful BitstringStatusList.get_eq (fun _ => list.entry_eq_digit), ?_⟩
    intro operations
    have hsize : (bitstringMachine.runAll operations list).2.size = list.size :=
      (bitstringMachine_lawful.runAll_spec operations list).1
    rw [← hsize]
    exact BitstringStatusList.fromBase64url_toBase64url hgzip _

/-- A compressor that stores the bytes behind a first one. -/
def storing (magic : UInt8) : Codec :=
  ⟨fun data => .ok (magic :: data), fun data => ⟨data.tail, if data.head? = some magic then none else some []⟩⟩

def storingPlatform : Platform where
  zlib := storing 0x78
  gzip := storing 0x1f
  base64Error encoded := encoded

theorem storing_inverts (magic : UInt8) : (storing magic).Inverts :=
  fun data => ⟨magic :: data, rfl, by simp [storing], by rw [List.length_cons]; omega⟩

/-- The entries 0, 1, 2, 3, 1 of two bits each. -/
def sampleList : TokenStatusList := ⟨2, [0xe4, 0x01], 5, by decide, by decide, by decide⟩

theorem status_lists_are_packed_arrays_sampleList :
    TokenStatusList.fromBytes [0xe4, 0x01] 5 2 = .ok sampleList ∧
    (tokenMachine.runAll [.set 2 3, .set 9 1, .revoke 4] sampleList).1 =
      [.ok (), .error (.err (.indexOutOfRange 9 5)), .ok ()] ∧
    (tokenMachine.runAll [.set 2 3, .set 9 1, .revoke 4] sampleList).2.get 2 = .ok 3 ∧
    (tokenMachine.runAll [.set 2 3, .set 9 1, .revoke 4] sampleList).2.get 3 = .ok 3 ∧
    ∃ encoded, sampleList.toBase64url storingPlatform = .ok encoded ∧
      TokenStatusList.fromBase64url storingPlatform encoded 5 2 = .ok sampleList := by
  have hlist : TokenStatusList.fromBytes [0xe4, 0x01] 5 2 = .ok sampleList :=
    TokenStatusList.fromBytes_ok_iff.mpr ⟨rfl, rfl, rfl⟩
  obtain ⟨harray, hround⟩ :=
    (status_lists_are_packed_arrays storingPlatform (storing_inverts _) (storing_inverts _)).1 _ _ _ _ hlist
  exact ⟨hlist, (harray.outcomes _).trans rfl, (harray.get_eq _ 2).trans rfl, (harray.get_eq _ 3).trans rfl, hround []⟩

/-! ## Counting the revoked entries -/

namespace BitstringStatusList

/-- A byte has as many ones as set entries. -/
theorem countOnes_eq (byte : UInt8) :
    countOnes byte = (List.range 8).countP (fun k => (Packed.msbFirst.slot k).get byte == 1) := by
  have hperm : ((List.range 8).map (7 - ·)).Perm (List.range 8) := by decide
  rw [countOnes, ← hperm.countP_eq, countP_map]
  refine countP_congr fun k hk => ?_
  have hshift : (Packed.msbFirst.slot k).shift = 7 - k := congrArg (7 - ·) (Nat.mod_eq_of_lt (mem_range.mp hk))
  rw [Function.comp_apply, Nat.testBit_eq_decide_div_mod_eq, decide_eq_true_iff, beq_iff_eq, ← UInt8.toNat_inj,
    Packed.Slot.toNat_get, hshift]
  rfl

/-- The ones of all bytes are the set entries at all places, those behind the last entry included. -/
theorem sum_countOnes (data : Bytes) : (data.map countOnes).sum =
    (List.range (8 * data.length)).countP (fun k => (Packed.msbFirst.get? data k).getD 0 == 1) := by
  induction data with
  | nil => rfl
  | cons byte rest ih =>
    have hsplit : 8 * (byte :: rest).length = 8 + 8 * rest.length := by
      rw [length_cons]
      omega
    rw [hsplit, range_add, countP_append, countP_map, map_cons, sum_cons, ih, countOnes_eq]
    refine congrArg₂ (· + ·) (countP_congr fun k hk => ?_) (countP_congr fun k _ => ?_)
    · simp [Packed.Layout.get?, Packed.msbFirst, Nat.div_eq_of_lt (mem_range.mp hk)]
    · have hdiv : (8 + k) / 8 = k / 8 + 1 := by omega
      simp [Packed.Layout.get?, Packed.Layout.slot, Packed.msbFirst, hdiv]

variable (self : BitstringStatusList)

/-- No place behind the last entry is set. -/
def PaddingClear : Prop :=
  ∀ index, self.size ≤ index → index < 8 * self.data.length → self.entry index = false

/-- The bits behind the entries are counted too. -/
theorem countRevoked_eq_iff_paddingClear :
    self.countRevoked = (List.range self.size).countP self.entry ↔ self.PaddingClear := by
  have hle : self.size ≤ 8 * self.data.length := by
    rw [self.length_eq]
    exact le_mul_divCeil _ (by omega)
  have hcount : self.countRevoked = (List.range (8 * self.data.length)).countP self.entry :=
    sum_eq_foldl.symm.trans (sum_countOnes self.data)
  obtain ⟨n, hn⟩ := Nat.exists_eq_add_of_le hle
  rw [hcount, PaddingClear, hn, range_add, countP_append, Nat.add_eq_left, countP_eq_zero]
  simp only [mem_map, mem_range, forall_exists_index, and_imp, forall_apply_eq_imp_iff₂, Bool.not_eq_true]
  constructor
  · intro h index hindex hlt
    obtain ⟨k, rfl⟩ := Nat.exists_eq_add_of_le hindex
    exact h k (by omega)
  · exact fun h k hk => h _ (Nat.le_add_right _ _) (by omega)

theorem paddingClear_runAll_iff (operations : List (Operation Bool)) :
    (bitstringMachine.runAll operations self).2.PaddingClear ↔ self.PaddingClear := by
  obtain ⟨hsize, -, hview⟩ := bitstringMachine_lawful.runAll_spec operations self
  have hkept : ∀ index, self.size ≤ index →
      (bitstringMachine.runAll operations self).2.entry index = self.entry index := by
    intro index hindex
    have hnone : bitstringMachine.lastValue self operations index = none := by
      have hrefused : ∀ operation ∈ operations, ¬ ((bitstringMachine.refusal self operation).isNone &&
          decide (bitstringMachine.index operation = index)) = true := by
        intro operation _ h
        rw [Bool.and_eq_true, Option.isNone_iff_eq_none, decide_eq_true_iff] at h
        obtain ⟨haccepted, rfl⟩ := h
        exact absurd (self.lt_of_refusal haccepted) (Nat.not_lt.mpr hindex)
      rw [Cells.Machine.lastValue, filter_eq_nil_iff.mpr hrefused]
      rfl
    exact (hview index).trans (by rw [hnone]; rfl)
  have hsame : (bitstringMachine.runAll operations self).2.size = self.size := hsize
  simp only [PaddingClear, length_eq, hsame]
  exact forall₂_congr fun index hindex => by rw [hkept index hindex]

variable {list : BitstringStatusList}

theorem paddingClear_new (h : new size = .ok list) : list.PaddingClear := by
  obtain ⟨⟨hsize⟩, -, h⟩ := Exec.of_bind h
  cases h
  intro index _ hindex
  have hbyte : index / 8 < bitstringByteLen size := by
    rw [length_replicate] at hindex
    omega
  simp [entry, Packed.Layout.get?, Packed.msbFirst, Packed.Slot.get, hbyte]

theorem paddingClear_fromBase64urlBounded {platform : Platform} {encoded : Str}
    (h : fromBase64urlBounded platform encoded = .ok list) : list.PaddingClear := by
  obtain ⟨payload, -, h⟩ := Exec.of_bind h
  obtain ⟨_, -, h⟩ := Exec.of_bind h
  obtain ⟨compressed, -, h⟩ := Exec.of_bind h
  obtain ⟨data, -, h⟩ := Exec.of_bind h
  obtain ⟨-, h⟩ := Exec.of_reject h
  obtain ⟨-, h⟩ := Exec.of_reject h
  obtain ⟨rfl, hsize⟩ := fromBytes_ok_iff.mp h
  -- a size within the limit has not been saturated
  have hle := list.size_le
  simp only [hsize, saturatingMul, usizeMax, maxStatusListEntries] at hle
  intro index hindex hlt
  rw [hsize, saturatingMul, usizeMax] at hindex
  omega

/-- **The count is that of the revoked entries exactly when the source's padding is clear**, whatever was revoked and
    reinstated since; it is clear in a new list and in one whose size was derived from its bytes. -/
theorem countRevoked_eq_iff (platform : Platform) (list : BitstringStatusList) (operations : List (Operation Bool)) :
    ((bitstringMachine.runAll operations list).2.countRevoked =
        (List.range (bitstringMachine.runAll operations list).2.size).countP
          (fun index => (bitstringMachine.runAll operations list).2.isRevoked index = .ok true) ↔ list.PaddingClear) ∧
    (∀ size, new size = .ok list → list.PaddingClear) ∧
    ∀ encoded, fromBase64urlBounded platform encoded = .ok list → list.PaddingClear := by
  refine ⟨?_, fun _ => paddingClear_new, fun _ => paddingClear_fromBase64urlBounded⟩
  rw [← paddingClear_runAll_iff list operations, ← countRevoked_eq_iff_paddingClear]
  refine Eq.congr_right (countP_congr fun index hindex => ?_)
  rw [isRevoked, get_eq, if_pos (mem_range.mp hindex), decide_eq_true_iff, Except.ok.injEq]

/-- One entry, which is not revoked, and a set bit behind it. -/
theorem countRevoked_counts_padding : ∃ list, fromBytes [1] 1 = .ok list ∧ list.countRevoked = 1 ∧
    list.size = 1 ∧ list.isRevoked 0 = .ok false :=
  ⟨⟨[1], 1, by decide, by decide⟩, by decide, by decide, rfl, by decide⟩

end BitstringStatusList

end MartyCore.Status
