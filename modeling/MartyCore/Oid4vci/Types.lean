import MartyCore.Lib.Base64
import MartyCore.Lib.Instant
import MartyCore.Lib.JsonShape

/-!
# `Oid4vci.Types` — errors, algorithms, claims and signers

The types of `marty-oid4vci/src/{error,types,signer}.rs` that the modelled parts of the crate share. A `HashMap` is the list
of its members in the order it is iterated, and a JSON map the list of its members in the order the library keeps them
(`Json.MapOrder`); what makes such a list a map is a field.
-/

namespace MartyCore.Oid4vci

/-! ## 64-bit integers -/

/-- The values of an `i64`. -/
def IsI64 (n : Int) : Prop := -2 ^ 63 ≤ n ∧ n < 2 ^ 63

instance (n : Int) : Decidable (IsI64 n) := inferInstanceAs (Decidable (_ ∧ _))

/-- The result of `checked_add` and `checked_sub`. -/
def checkedI64 (n : Int) : Option Int := if IsI64 n then some n else none

/-! ## Errors -/

inductive Oid4vciError where
  | invalidOffer (message : String)
  | invalidPreAuthCode (message : String)
  | invalidAccessToken (message : String)
  | proofVerificationFailed (message : String)
  | invalidCNonce (expected got : Str)
  | unsupportedFormat (message : String)
  | signingError (message : String)
  | keyError (message : String)
  | jwtError (message : String)
  | mdocError (message : String)
  | sdJwtError (message : String)
  | metadataError (message : String)
  | serializationError (message : String)
  | invalidUrl (message : String)
  | invalidRequest (message : String)
  | configError (message : String)
deriving DecidableEq

/-! ## Signers -/

inductive SigningAlgorithm where
  | es256 | edDSA | es256k | es384 | rs256
deriving DecidableEq

def SigningAlgorithm.asStr : SigningAlgorithm → Str
  | .es256 => "ES256".toList
  | .edDSA => "EdDSA".toList
  | .es256k => "ES256K".toList
  | .es384 => "ES384".toList
  | .rs256 => "RS256".toList

/-- What a `CredentialSigner` answers. -/
structure CredentialSigner where
  sign : Bytes → Except Oid4vciError Bytes
  algorithm : SigningAlgorithm
  issuerId : Str
  kidUrl : Str
  publicJwk : Except Oid4vciError Str

/-! ## Claims -/

inductive CredentialPayloadFormat where
  | ietfSdJwt | w3cVcdmV2SdJwt | w3cVcdmV2JwtVc
deriving DecidableEq

structure CredentialClaims (order : Json.MapOrder) (N : Type) where
  subjectId : Option Str
  credentialType : Str
  claims : List (Str × Json N)
  nodup : (claims.map Prod.fst).Nodup
  held : ∀ m ∈ claims, order.Holds m.2
  expirationSeconds : Option Int
  selectiveDisclosureClaims : List Str
  credentialPayloadFormat : CredentialPayloadFormat
  w3cContext : List Str
  w3cTypes : List Str

/-- `claims.contains_key`. -/
def CredentialClaims.has {order : Json.MapOrder} {N : Type} (claims : CredentialClaims order N) (name : String) : Bool :=
  decide (name.toList ∈ claims.claims.map Prod.fst)

inductive SignedCredential where
  | jwtVcJson (jwt credentialId : Str)
  | sdJwt (compact credentialId : Str)
  | msoMdoc (issuerSignedB64 credentialId : Str)
deriving DecidableEq

end MartyCore.Oid4vci
