import MartyCore.ChipIo.Response

/-!
# `ChipIo.Apdu` — the wire format of command APDUs

The embedding of `ApduCommand::from_bytes`, `to_bytes` and `encode_apdu_command` in
`marty-verification/src/chip_io/mod.rs`. After the four bytes of the header come, in the short form, one byte of Lc,
the data and one byte of Le; in the extended form a zero byte and two bytes for each length. Lc and the data are left
out when there is no data, and Le when none is expected, so the parser tells the forms apart by the total length and
by whether the fifth byte is zero.

`fromBytes_toBytes` says that what is written is read back. `protectCommand_fits` is the arithmetic of secure
messaging at its limits: what the objects add always fits into the extended form.
-/

namespace MartyCore.ChipIo

open Exec Method ApduCommand List

namespace ApduCommand

/-! ## Model -/

variable (raw : Bytes)

/-- `u16::from_be_bytes([raw[i], raw[i + 1]]) as usize`. -/
def beU16At (i : Nat) : Exec String Nat := do
  let high ← index raw i
  let low ← index raw (i + 1)
  return high.toNat * 256 + low.toNat

/-- `(n as u16).to_be_bytes()`. -/
def beU16Bytes (n : Nat) : Bytes := [UInt8.ofNat (n / 256), UInt8.ofNat n]

/-- Data and Le in the short form, where the fifth byte is Lc. -/
def shortBody (lc : Nat) : Exec String (Bytes × Option Nat) := do
  let dataEnd := 5 + lc
  reject (2 ^ 64 ≤ dataEnd) "APDU command length overflow"
  reject (raw.length ≠ dataEnd ∧ raw.length ≠ dataEnd + 1) "APDU command has inconsistent short-form Lc/Le"
  let data ← slice raw 5 dataEnd
  if raw.length = dataEnd + 1 then return (data, some (← index raw dataEnd).toNat)
  else return (data, none)

/-- Data and Le in the extended form, where Lc follows a zero byte. -/
def extendedBody : Exec String (Bytes × Option Nat) := do
  reject (raw.length < 7) "Extended APDU is missing its two-byte length"
  let lc ← beU16At raw 5
  let dataEnd := 7 + lc
  reject (2 ^ 64 ≤ dataEnd) "Extended APDU command length overflow"
  reject (raw.length ≠ dataEnd ∧ raw.length ≠ dataEnd + 2) "APDU command has inconsistent extended Lc/Le"
  let data ← slice raw 7 dataEnd
  if raw.length = dataEnd + 2 then return (data, some (← beU16At raw dataEnd)) else return (data, none)

/-- Data and Le of a command of at least four bytes. -/
def body : Exec String (Bytes × Option Nat) :=
  if raw.length = 4 then .ok ([], none)
  else do
    let first ← index raw 4
    if raw.length = 5 then return ([], some first.toNat)
    else if first ≠ 0 then shortBody raw first.toNat
    else if raw.length = 7 then return ([], some (← beU16At raw 5))
    else extendedBody raw

def fromBytes : Exec String ApduCommand := do
  reject (raw.length < 4) "APDU command must contain CLA INS P1 P2"
  let cla ← index raw 0
  let ins ← index raw 1
  let p1 ← index raw 2
  let p2 ← index raw 3
  let (data, le) ← body raw
  return ⟨cla, ins, p1, p2, data, le⟩

end ApduCommand

/-- What follows the header. -/
def encodeApduBody (data : Option Bytes) (le : Option Nat) : Exec String Bytes :=
  match data, le with
  | none, none => .ok []
  | none, some expected =>
    if expected ≤ 255 then .ok [UInt8.ofNat expected] else .ok (0 :: beU16Bytes expected)
  | some value, expected =>
    if value.length ≤ 255 then
      match expected with
      | none => .ok (UInt8.ofNat value.length :: value)
      | some expected =>
        if expected > 255 then fail "Short APDU data cannot be combined with extended Le"
        else .ok (UInt8.ofNat value.length :: value ++ [UInt8.ofNat expected])
    else .ok (0 :: beU16Bytes value.length ++ value ++ expected.elim [] beU16Bytes)

def encodeApduCommand (cla ins p1 p2 : UInt8) (data : Option Bytes) (le : Option Nat) : Exec String Bytes := do
  reject (data.elim 0 List.length > maxApduDataBytes) "APDU command data exceeds extended-length capacity"
  reject (le.any (fun value => decide (value > 65535)) = true) "APDU Le exceeds extended-length capacity"
  let body ← encodeApduBody data le
  return [cla, ins, p1, p2] ++ body

def ApduCommand.toBytes (self : ApduCommand) : Exec String Bytes :=
  encodeApduCommand self.cla self.ins self.p1 self.p2 (if self.data = [] then none else some self.data) self.le

/-! ## Reading back -/

namespace ApduCommand

theorem ofNat_ne_zero {n : Nat} (hpos : 0 < n) (hle : n ≤ 255) : UInt8.ofNat n ≠ 0 := by
  intro h
  have hzero : (UInt8.ofNat n).toNat = 0 := by
    rw [h]
    rfl
  rw [UInt8.toNat_ofNat_of_lt' (Nat.lt_succ_of_le hle)] at hzero
  omega

/-- Two bytes of length read back where they were written. -/
theorem beU16At_append {pre post : Bytes} {n i : Nat} (hn : n ≤ 65535) (hi : i = pre.length) :
    beU16At (pre ++ beU16Bytes n ++ post) i = .ok n := by
  have hhigh : (UInt8.ofNat (n / 256)).toNat = n / 256 := UInt8.toNat_ofNat_of_lt' (show _ < 256 by omega)
  have hlow : (UInt8.ofNat n).toNat = n % 256 := UInt8.toNat_ofNat'
  have hsplit : pre ++ beU16Bytes n ++ post = (pre ++ [UInt8.ofNat (n / 256)]) ++ UInt8.ofNat n :: post := by
    simp [beU16Bytes]
  have hindex : index (pre ++ beU16Bytes n ++ post) i = (.ok (UInt8.ofNat (n / 256)) : Exec String UInt8) := by
    rw [append_assoc]
    exact index_append hi
  rw [beU16At, hindex, Result.ok_bind, hsplit, index_append (by simp [hi]), Result.ok_bind, hhigh, hlow]
  show Except.ok (n / 256 * 256 + n % 256) = _
  rw [Nat.div_add_mod']

/-- The short form is read back behind its first five bytes. -/
theorem shortBody_append (pre data : Bytes) (le : Option Nat) (hpre : pre.length = 5) (hdata : data.length ≤ 255)
    (hle : ∀ expected ∈ le, expected ≤ 255) :
    shortBody (pre ++ data ++ le.elim [] (fun expected => [UInt8.ofNat expected])) data.length = .ok (data, le) := by
  generalize hraw : pre ++ data ++ le.elim [] (fun expected => [UInt8.ofNat expected]) = raw
  have hslice : slice raw 5 (5 + data.length) = (.ok data : Exec String Bytes) := by
    rw [← hraw]
    exact slice_append hpre.symm (by rw [hpre])
  have hlength : raw.length = 5 + data.length + le.elim 0 (fun _ => 1) := by
    rw [← hraw, length_append, length_append, hpre]
    cases le <;> rfl
  have htail : le.elim 0 (fun _ => 1) ≤ 1 := by cases le <;> simp
  rw [shortBody, reject_neg_bind (by omega), reject_neg_bind (by omega), hslice, Result.ok_bind]
  cases le with
  | none =>
    rw [hlength, if_neg (by simp)]
    rfl
  | some expected =>
    have hend : index raw (5 + data.length) = (.ok (UInt8.ofNat expected) : Exec String UInt8) := by
      rw [← hraw, Option.elim_some]
      exact index_append (by rw [length_append, hpre])
    rw [hlength, Option.elim_some, if_pos rfl, hend, Result.ok_bind,
      UInt8.toNat_ofNat_of_lt' (Nat.lt_succ_of_le (hle expected rfl))]
    rfl

/-- The extended form is read back behind its first five bytes, the header and the zero byte. -/
theorem extendedBody_append (pre data : Bytes) (le : Option Nat) (hpre : pre.length = 5)
    (hdata : data.length ≤ 65535) (hle : ∀ expected ∈ le, expected ≤ 65535) :
    extendedBody (pre ++ beU16Bytes data.length ++ data ++ le.elim [] beU16Bytes) = .ok (data, le) := by
  have hhead : (pre ++ beU16Bytes data.length).length = 7 := by
    rw [length_append, hpre]
    rfl
  generalize hraw : pre ++ beU16Bytes data.length ++ data ++ le.elim [] beU16Bytes = raw
  have hlc : beU16At raw 5 = .ok data.length := by
    rw [← hraw, append_assoc _ data]
    exact beU16At_append hdata hpre.symm
  have hslice : slice raw 7 (7 + data.length) = (.ok data : Exec String Bytes) := by
    rw [← hraw]
    exact slice_append hhead.symm (by rw [hhead])
  have hlength : raw.length = 7 + data.length + le.elim 0 (fun _ => 2) := by
    rw [← hraw, length_append, length_append, hhead]
    cases le <;> rfl
  have htail : le.elim 0 (fun _ => 2) = 0 ∨ le.elim 0 (fun _ => 2) = 2 := by cases le <;> simp
  rw [extendedBody, reject_neg_bind (by omega), hlc, Result.ok_bind, reject_neg_bind (by omega),
    reject_neg_bind (by omega), hslice, Result.ok_bind]
  cases le with
  | none =>
    rw [hlength, if_neg (by simp)]
    rfl
  | some expected =>
    have hend : beU16At raw (7 + data.length) = .ok expected := by
      rw [← hraw, Option.elim_some, ← append_nil (_ ++ beU16Bytes expected)]
      exact beU16At_append (hle expected rfl) (by rw [length_append, hhead])
    rw [hlength, Option.elim_some, if_pos rfl, hend, Result.ok_bind]
    rfl

section

variable {header data : Bytes} (hheader : header.length = 4)

include hheader

/-- A body with Le only. -/
theorem body_of_le {expected : Nat} (hle : expected ≤ 65535) :
    body (header ++ if expected ≤ 255 then [UInt8.ofNat expected] else 0 :: beU16Bytes expected) =
      .ok ([], some expected) := by
  by_cases hshort : expected ≤ 255
  · rw [if_pos hshort]
    have hlength : (header ++ [UInt8.ofNat expected]).length = 5 := by rw [length_append, hheader]; rfl
    rw [body, if_neg (by omega), index_append hheader.symm, Result.ok_bind, if_pos hlength,
      UInt8.toNat_ofNat_of_lt' (Nat.lt_succ_of_le hshort)]
    rfl
  · rw [if_neg hshort]
    have hlength : (header ++ 0 :: beU16Bytes expected).length = 7 := by rw [length_append, hheader]; rfl
    have hvalue : beU16At (header ++ 0 :: beU16Bytes expected) 5 = .ok expected := by
      have hsplit : header ++ 0 :: beU16Bytes expected = header ++ [0] ++ beU16Bytes expected ++ [] := by simp
      rw [hsplit]
      exact beU16At_append hle (by rw [length_append, hheader]; rfl)
    rw [body, if_neg (by omega), index_append hheader.symm, Result.ok_bind, if_neg (by omega),
      if_neg (not_not.mpr rfl), if_pos hlength, hvalue]
    rfl

/-- A body in the short form with data. -/
theorem body_of_short (le : Option Nat) (hdata : data ≠ []) (hlen : data.length ≤ 255)
    (hle : ∀ expected ∈ le, expected ≤ 255) :
    body (header ++ UInt8.ofNat data.length :: data ++ le.elim [] (fun expected => [UInt8.ofNat expected])) =
      .ok (data, le) := by
  have hpos : 0 < data.length := length_pos_iff.mpr hdata
  generalize hraw : header ++ UInt8.ofNat data.length :: data ++ le.elim [] (fun expected => [UInt8.ofNat expected]) = raw
  have hshort : shortBody raw data.length = .ok (data, le) := by
    rw [← hraw, append_cons]
    exact shortBody_append _ data le (by rw [length_append, hheader]; rfl) hlen hle
  have hindex : index raw 4 = (.ok (UInt8.ofNat data.length) : Exec String UInt8) := by
    rw [← hraw, append_assoc, cons_append]
    exact index_append hheader.symm
  have hlength : 5 < raw.length := by
    simp only [← hraw, length_append, length_cons, hheader]
    omega
  rw [body, if_neg (by omega), hindex, Result.ok_bind, if_neg (by omega), if_pos (ofNat_ne_zero hpos hlen),
    UInt8.toNat_ofNat_of_lt' (Nat.lt_succ_of_le hlen), hshort]

/-- A body in the extended form with data. -/
theorem body_of_extended {le : Option Nat} (hlong : 255 < data.length) (hlen : data.length ≤ 65535)
    (hle : ∀ expected ∈ le, expected ≤ 65535) :
    body (header ++ 0 :: beU16Bytes data.length ++ data ++ le.elim [] beU16Bytes) = .ok (data, le) := by
  generalize hraw : header ++ 0 :: beU16Bytes data.length ++ data ++ le.elim [] beU16Bytes = raw
  have hextended : extendedBody raw = .ok (data, le) := by
    rw [← hraw, append_cons]
    exact extendedBody_append _ data le (by rw [length_append, hheader]; rfl) hlen hle
  have hindex : index raw 4 = (.ok 0 : Exec String UInt8) := by
    rw [← hraw, append_assoc, append_assoc, cons_append]
    exact index_append hheader.symm
  have hlength : 7 < raw.length := by
    simp only [← hraw, length_append, length_cons, hheader]
    omega
  rw [body, if_neg (by omega), hindex, Result.ok_bind, if_neg (by omega), if_neg (not_not.mpr rfl),
    if_neg (by omega), hextended]

/-- **What is written behind a header is read back behind it.** The total length and the fifth byte tell the forms
    apart. -/
theorem body_append {encoded : Bytes} {le : Option Nat}
    (hdata : data.length ≤ 65535) (hle : ∀ expected ∈ le, expected ≤ 65535)
    (h : encodeApduBody (if data = [] then none else some data) le = .ok encoded) :
    body (header ++ encoded) = .ok (data, le) := by
  by_cases hempty : data = []
  · rw [if_pos hempty] at h
    rw [hempty]
    cases le with
    | none =>
      injection h with h
      rw [← h, append_nil, body, if_pos hheader]
    | some expected =>
      have hencoded : encoded = if expected ≤ 255 then [UInt8.ofNat expected] else 0 :: beU16Bytes expected := by
        simp only [encodeApduBody, ← apply_ite] at h
        exact (Except.ok.inj h).symm
      rw [hencoded]
      exact body_of_le hheader (hle expected rfl)
  · rw [if_neg hempty] at h
    by_cases hshort : data.length ≤ 255
    · cases le with
      | none =>
        simp only [encodeApduBody, hshort, if_true] at h
        injection h with h
        rw [← h, ← append_nil (header ++ _)]
        exact body_of_short hheader none hempty hshort (fun _ hnone => by cases hnone)
      | some expected =>
        simp only [encodeApduBody, hshort, if_true] at h
        split at h
        · cases h
        · injection h with h
          rw [← h, ← append_assoc]
          refine body_of_short hheader (some expected) hempty hshort ?_
          rintro value ⟨⟩
          omega
    · simp only [encodeApduBody, hshort, if_false] at h
      injection h with h
      rw [← h, ← append_assoc, ← append_assoc]
      exact body_of_extended hheader (by omega) hdata hle

end

/-- **A command that can be written is read back as it was.** -/
theorem fromBytes_toBytes {command : ApduCommand} {raw : Bytes} (h : command.toBytes = .ok raw) :
    fromBytes raw = .ok command := by
  obtain ⟨hdata, h⟩ := of_reject h
  obtain ⟨hle, h⟩ := of_reject h
  obtain ⟨encoded, hencoded, h⟩ := of_bind h
  injection h with h
  have hdata' : command.data.length ≤ 65535 := by
    by_cases hempty : command.data = []
    · rw [hempty]
      exact Nat.zero_le _
    · rw [if_neg hempty] at hdata
      exact Nat.le_of_not_lt hdata
  have hle' : ∀ expected ∈ command.le, expected ≤ 65535 := by
    intro expected hmem
    rw [Option.mem_def.mp hmem] at hle
    simpa using hle
  have hbody := @body_append [command.cla, command.ins, command.p1, command.p2] _ rfl _ _ hdata' hle' hencoded
  have hlength : ¬ ([command.cla, command.ins, command.p1, command.p2] ++ encoded).length < 4 := by
    rw [length_append]
    exact Nat.not_lt_of_le (Nat.le_add_right 4 _)
  rw [← h, fromBytes, reject_neg_bind hlength, hbody]
  rfl

theorem not_any_gt {le : Option Nat} {bound : Nat} (h : ∀ expected ∈ le, expected ≤ bound) :
    ¬ le.any (fun value => decide (value > bound)) = true := by
  cases le with
  | none => exact Bool.false_ne_true
  | some expected => simpa using h expected rfl

/-- What fits into the extended form and expects at most one byte of length can be written. -/
theorem toBytes_ok {command : ApduCommand} (hdata : command.data.length ≤ maxApduDataBytes)
    (hle : ∀ expected ∈ command.le, expected ≤ 255) : ∃ raw, command.toBytes = .ok raw := by
  have hsize : ¬ (if command.data = [] then none else some command.data).elim 0 List.length > maxApduDataBytes := by
    split
    · exact Nat.not_lt_zero _
    · exact Nat.not_lt_of_le hdata
  have hany : ¬ command.le.any (fun value => decide (value > 65535)) = true :=
    not_any_gt (fun expected hmem => (hle expected hmem).trans (by omega))
  have hbody : ∃ encoded,
      encodeApduBody (if command.data = [] then none else some command.data) command.le = .ok encoded := by
    unfold encodeApduBody
    split
    · exact ⟨_, rfl⟩
    · split <;> exact ⟨_, rfl⟩
    · split
      · split
        · exact ⟨_, rfl⟩
        · rename_i expected hcommand
          have := hle expected hcommand
          rw [if_neg (by omega)]
          exact ⟨_, rfl⟩
      · exact ⟨_, rfl⟩
  obtain ⟨encoded, hencoded⟩ := hbody
  refine ⟨[command.cla, command.ins, command.p1, command.p2] ++ encoded, ?_⟩
  rw [toBytes, encodeApduCommand, reject_neg_bind hsize, reject_neg_bind hany, hencoded]
  rfl

end ApduCommand

/-! ## Protected commands -/

theorem commandDo97_length_le (le : Option Nat) : (commandDo97 le).length ≤ 3 := by
  cases le with
  | none => exact Nat.zero_le _
  | some expected => exact Nat.le_refl _

/-- **A command within the bounds of secure messaging can be protected**, and what comes out fits into an extended
    APDU: DO'87 of at most 65517 bytes, DO'97 of at most 3 and DO'8E of 10. -/
theorem protectCommand_fits {cipher : TdesCbc} (hlawful : cipher.Lawful) {s : BacSession} {nextSsc : Block 8}
    (hnext : checkedNextSsc s.ssc = .ok nextSsc) {command : ApduCommand}
    (hdata : command.data.length ≤ maxBacCommandDataBytes) (hle : ∀ expected ∈ command.le, expected ≤ 256) :
    ∃ reply, (protectCommand cipher command).run s = (.ok reply, { s with ssc := nextSsc }) ∧
      reply.data.length ≤ maxApduDataBytes ∧ reply.le = some 0 := by
  obtain ⟨do87, hdo87, hdo87Length⟩ := commandDo87_of_length_le hlawful s.kEnc hdata
  have hdo97Length := commandDo97_length_le command.le
  obtain ⟨mac, hmac, hmacLength⟩ := retailMac3des_ok hlawful s.kMac (nextSsc.bytes ++
    ([command.cla ||| 0x0C, command.ins, command.p1, command.p2, 0x80, 0x00, 0x00, 0x00] ++ do87 ++
      commandDo97 command.le))
  have hsize : (do87 ++ commandDo97 command.le ++ [0x8E, 0x08] ++ mac).length ≤ maxApduDataBytes := by
    simp only [length_append, length_cons, length_nil, hmacLength, maxApduDataBytes]
    omega
  refine ⟨{ cla := command.cla ||| 0x0C, ins := command.ins, p1 := command.p1, p2 := command.p2,
            data := do87 ++ commandDo97 command.le ++ [0x8E, 0x08] ++ mac, le := some 0 }, ?_, hsize, rfl⟩
  unfold protectCommand
  rw [run_get_bind, run_call_bind (reject_neg (Nat.not_lt_of_le hdata)),
    run_call_bind (reject_neg (not_any_gt hle)), run_call_bind hnext,
    run_call_bind hdo87]
  rw [run_call_bind hmac, run_call_bind (reject_neg (Nat.not_lt_of_le hsize)), run_set_pure]

/-- **Command APDUs round-trip.** Every command that can be written is read back exactly; and on a lawful cipher,
    with a counter that is not exhausted, every command with data and Le within the bounds of secure messaging can be
    protected, and the protected command can be written and is read back. -/
theorem apdu_commands_round_trip (cipher : TdesCbc) (hlawful : cipher.Lawful) :
    (∀ (command : ApduCommand) (raw : Bytes), command.toBytes = .ok raw → fromBytes raw = .ok command) ∧
    (∀ (s : BacSession) (nextSsc : Block 8) (command : ApduCommand), checkedNextSsc s.ssc = .ok nextSsc →
      command.data.length ≤ maxBacCommandDataBytes → (∀ expected ∈ command.le, expected ≤ 256) →
      ∃ reply raw, (protectCommand cipher command).run s = (.ok reply, { s with ssc := nextSsc }) ∧
        reply.toBytes = .ok raw ∧ fromBytes raw = .ok reply) := by
  constructor
  · intro command raw h
    exact fromBytes_toBytes h
  · intro s nextSsc command hnext hdata hle
    obtain ⟨reply, hrun, hsize, hreply⟩ := protectCommand_fits hlawful hnext hdata hle
    have hexpected : ∀ expected ∈ reply.le, expected ≤ 255 := by
      rw [hreply]
      rintro expected ⟨⟩
      exact Nat.zero_le _
    obtain ⟨raw, hraw⟩ := toBytes_ok hsize hexpected
    exact ⟨reply, raw, hrun, hraw, fromBytes_toBytes hraw⟩

/-- The largest command: the bound of the data, and Le 256. -/
def largestCommand : ApduCommand := ⟨0x00, 0xD6, 0x00, 0x00, List.replicate maxBacCommandDataBytes 0x00, some 256⟩

/-- Inverts every byte. -/
def invertingCipher : TdesCbc where
  encrypt _ _ data := data.map (fun b => ~~~b)
  decrypt _ _ data := data.map (fun b => ~~~b)

theorem apdu_commands_round_trip_largestCommand :
    ∃ reply raw, (protectCommand invertingCipher largestCommand).run icaoSession =
        (.ok reply, { icaoSession with ssc := icaoNextSsc }) ∧
      reply.toBytes = .ok raw ∧ fromBytes raw = .ok reply := by
  have hlawful : invertingCipher.Lawful :=
    ⟨fun _ _ _ _ _ _ => length_map _, fun _ _ _ _ _ _ => by simp [invertingCipher, Function.comp_def]⟩
  exact (apdu_commands_round_trip invertingCipher hlawful).2 icaoSession icaoNextSsc largestCommand (by decide)
    (Nat.le_of_eq length_replicate) (fun _ hmem => Nat.le_of_eq (Option.some.inj hmem).symm)

/-- **Which encodings keep their fields apart.** What is written is read back with its data and Le exactly if the data is
    not present and empty: that writes a zero for Lc, which is read as Le, or as the start of an extended form. So the
    fields can be told from the encoding where neither command has present but empty data. -/
theorem apdu_encoding_read_back_iff (cla ins p1 p2 : UInt8) (data : Option Bytes) (le : Option Nat) (raw : Bytes)
    (h : encodeApduCommand cla ins p1 p2 data le = .ok raw) :
    (fromBytes raw = .ok ⟨cla, ins, p1, p2, data.getD [], le⟩ ↔ data ≠ some []) ∧
    ∀ data' le', encodeApduCommand cla ins p1 p2 data' le' = .ok raw → data ≠ some [] → data' ≠ some [] →
      data.getD [] = data'.getD [] ∧ le = le' := by
  have hback : ∀ {data : Option Bytes} {le : Option Nat}, encodeApduCommand cla ins p1 p2 data le = .ok raw →
      data ≠ some [] → fromBytes raw = .ok ⟨cla, ins, p1, p2, data.getD [], le⟩ := by
    intro data le h hdata
    have hsame : (if data.getD [] = [] then none else some (data.getD [])) = data := by
      cases data with
      | none => rfl
      | some value => exact if_neg (fun hempty => hdata (congrArg some hempty))
    have hwritten : toBytes ⟨cla, ins, p1, p2, data.getD [], le⟩ = .ok raw := by
      rw [toBytes, hsame]
      exact h
    exact fromBytes_toBytes hwritten
  refine ⟨⟨?_, hback h⟩, ?_⟩
  · rintro hread rfl
    obtain ⟨-, h⟩ := of_reject h
    obtain ⟨-, h⟩ := of_reject h
    obtain ⟨body, hbody, h⟩ := of_bind h
    cases h
    cases le with
    | none =>
      cases hbody
      cases hread
    | some expected =>
      simp only [encodeApduBody, length_nil, Nat.zero_le, if_true] at hbody
      split at hbody
      · cases hbody
      · cases hbody
        cases hread
  · intro data' le' h' hdata hdata'
    have hsame := (hback h hdata).symm.trans (hback h' hdata')
    simpa using hsame

theorem apdu_encoding_read_back_iff_select :
    fromBytes [0x00, 0xA4, 0x02, 0x0C, 0x02, 0x01, 0x1E] = .ok ⟨0x00, 0xA4, 0x02, 0x0C, [0x01, 0x1E], none⟩ :=
  ((apdu_encoding_read_back_iff 0x00 0xA4 0x02 0x0C (some [0x01, 0x1E]) none _ rfl).1).mpr (by simp)

/-- Empty data and no Le is written as no data and Le 0 is; with an Le, what is written is not a command. -/
theorem empty_data_is_not_kept_apart :
    encodeApduCommand 0 0xB0 0 0 (some []) none = encodeApduCommand 0 0xB0 0 0 none (some 0) ∧
    encodeApduCommand 0 0xB0 0 0 (some []) (some 1) = .ok [0, 0xB0, 0, 0, 0, 1] ∧
    fromBytes [0, 0xB0, 0, 0, 0, 1] = fail "Extended APDU is missing its two-byte length" :=
  ⟨rfl, rfl, rfl⟩

/-! ## Reading a file -/

/-- The loop of `build_read_binary_commands`. -/
def readBinaryLoop (length offset bytesRead : Nat) : List ApduCommand :=
  if bytesRead < length then
    let chunk := min (length - bytesRead) 255
    let current := offset + bytesRead
    ⟨0, 0xB0, UInt8.ofNat (current / 256), UInt8.ofNat current, [], some chunk⟩ ::
      readBinaryLoop length offset (bytesRead + chunk)
  else []
termination_by length - bytesRead
decreasing_by omega

def buildReadBinaryCommands (length offset : Nat) : Exec String (List ApduCommand) := do
  reject (2 ^ 64 ≤ offset + length) "APDU read range overflow"
  reject (offset + length > 65536) "APDU read range exceeds READ BINARY offset capacity"
  return readBinaryLoop length offset 0

/-- The commands read chunks of 1 to 255 bytes, each where the one before it ends, with P1 and P2 the chunk's offset. -/
inductive Tiles : Nat → Nat → List ApduCommand → Prop
  | done {stop : Nat} : Tiles stop stop []
  | chunk {start stop size : Nat} {command : ApduCommand} {rest : List ApduCommand} (hpos : 1 ≤ size)
      (hsize : size ≤ 255) (hle : command.le = some size) (hoffset : command.p1.toNat * 256 + command.p2.toNat = start)
      (hrest : Tiles (start + size) stop rest) : Tiles start stop (command :: rest)

/-- What the loop emits from a place on; it starts its last command a multiple of 255 bytes later. -/
theorem readBinaryLoop_spec {length offset bytesRead : Nat} (hend : offset + length ≤ 65536)
    (hread : bytesRead ≤ length) :
    Tiles (offset + bytesRead) (offset + length) (readBinaryLoop length offset bytesRead) ∧
    (∀ command ∈ readBinaryLoop length offset bytesRead, command.data = [] ∧ ∀ expected ∈ command.le, expected ≤ 255) ∧
    ((∀ command ∈ readBinaryLoop length offset bytesRead, command.p1 < 0x80) ↔
      (bytesRead < length → offset + bytesRead + (length - bytesRead - 1) / 255 * 255 < 0x8000)) := by
  induction bytesRead using readBinaryLoop.induct length offset with
  | case1 bytesRead hlt chunk ih =>
    obtain ⟨htiles, hplain, hform⟩ := ih (by omega)
    rw [readBinaryLoop, if_pos hlt]
    have hp1 : (UInt8.ofNat ((offset + bytesRead) / 256)).toNat = (offset + bytesRead) / 256 :=
      UInt8.toNat_ofNat_of_lt' (show _ < 256 by omega)
    have hp2 : (UInt8.ofNat (offset + bytesRead)).toNat = (offset + bytesRead) % 256 := UInt8.toNat_ofNat'
    rw [← Nat.add_assoc] at htiles
    refine ⟨.chunk (by omega) (by omega) rfl ?_ htiles, ?_, ?_⟩
    · rw [hp1, hp2, Nat.div_add_mod']
    · rw [forall_mem_cons]
      refine ⟨⟨rfl, ?_⟩, hplain⟩
      rintro expected ⟨⟩
      omega
    · rw [forall_mem_cons, hform, UInt8.lt_iff_toNat_lt, hp1]
      show _ < 128 ∧ _ ↔ _
      omega
  | case2 bytesRead hge =>
    obtain rfl : bytesRead = length := by omega
    rw [readBinaryLoop, if_neg hge]
    exact ⟨.done, by simp, by simp⟩

/-- **Read plans tile the range, and address it as offsets below 32 KiB only.** The commands for an accepted range read
    it chunk by chunk, and each can be written and is read back; a command has the top bit of P1 clear, so that the chip
    takes P1 and P2 for an offset and not for a short file identifier, exactly if the last chunk starts below `0x8000`. -/
theorem read_plan_tiles (length offset : Nat) (commands : List ApduCommand)
    (h : buildReadBinaryCommands length offset = .ok commands) :
    Tiles offset (offset + length) commands ∧
    (∀ command ∈ commands, ∃ raw, command.toBytes = .ok raw ∧ fromBytes raw = .ok command) ∧
    ((∀ command ∈ commands, command.p1 < 0x80) ↔ (0 < length → offset + (length - 1) / 255 * 255 < 0x8000)) := by
  obtain ⟨-, h⟩ := of_reject h
  obtain ⟨hend, h⟩ := of_reject h
  cases h
  obtain ⟨htiles, hplain, hform⟩ := readBinaryLoop_spec (Nat.not_lt.mp hend) (Nat.zero_le length)
  refine ⟨htiles, ?_, hform⟩
  intro command hmem
  obtain ⟨hdata, hle⟩ := hplain command hmem
  have hwritten : ∃ raw, command.toBytes = .ok raw := toBytes_ok (by simp [hdata]) hle
  obtain ⟨raw, hraw⟩ := hwritten
  exact ⟨raw, hraw, fromBytes_toBytes hraw⟩

theorem read_plan_tiles_two_chunks : Tiles 0 300
    [⟨0, 0xB0, 0, 0, [], some 255⟩, ⟨0, 0xB0, 0, 255, [], some 45⟩] :=
  (read_plan_tiles 300 0 _ (by simp [buildReadBinaryCommands, readBinaryLoop]; rfl)).1

/-- The byte at 32 KiB is asked for with the top bit of P1 set: the first byte of the file with identifier 0. -/
theorem read_plan_uses_short_identifier : buildReadBinaryCommands 1 0x8000 = .ok [⟨0, 0xB0, 0x80, 0, [], some 1⟩] := by
  simp [buildReadBinaryCommands, readBinaryLoop]
  rfl

end MartyCore.ChipIo
