import MartyCore.Lib.Pool
import MartyCore.Oid4vci.SdJwt

/-!
# `Oid4vci.SigningBatch` — batches of ES256 signatures, one after the other or concurrently

The embedding of `marty-oid4vci/src/signing_batch.rs`: the frozen identity of the signer, the check of the routes, the
preparation of a batch, the two executors, the validation of their results and the assembly of the credentials.

The serial executor is a function. The concurrent one is the set of runs of a pool of workers (`Pool.Runs`): the mutex
makes taking a number one step, each attempt to start a thread may fail, and the scope joins all threads. What the signer
answers to the call for a job is an argument (`SignReturn`), as is what the preparation of each credential draws from the
clock and from the sources of random numbers. The preparation and assembly of JWT-VCs and mdocs are parameters.
-/

namespace MartyCore.Oid4vci
namespace SigningBatch

open Exec

/-! ## Errors -/

inductive SigningBatchErrorKind where
  | invalidScope | duplicateRoute | preparationFailed | signerMetadataChanged | executorFailed | invalidExecutorResults
  | invalidSignature | assemblyFailed
deriving DecidableEq

structure SigningBatchError where
  kind : SigningBatchErrorKind
  itemOrdinal : Option Nat
deriving DecidableEq

namespace SigningBatchError

def batch (kind : SigningBatchErrorKind) : SigningBatchError := ⟨kind, none⟩

def item (kind : SigningBatchErrorKind) (itemOrdinal : Nat) : SigningBatchError := ⟨kind, some itemOrdinal⟩

end SigningBatchError

/-! ## Parameters -/

/-- What the preparation of a credential draws. -/
structure Draw where
  uuid : Str
  now : Instant
  salts : Nat → Bytes

structure Platform (N : Type) where
  sdJwt : SdJwt.Platform N
  Jwk : Type
  PreparedJwtVc : Type
  PreparedMdoc : Type
  prepareJwtVc : Draw → CredentialSigner → CredentialClaims sdJwt.mapOrder N → Except Oid4vciError PreparedJwtVc
  prepareMdoc : Draw → CredentialSigner → CredentialClaims sdJwt.mapOrder N → Except Oid4vciError PreparedMdoc
  jwtVcSigningPayload : PreparedJwtVc → Bytes
  mdocSigningPayload : PreparedMdoc → Bytes
  assembleJwtVc : PreparedJwtVc → Bytes → Except Oid4vciError SignedCredential
  assembleMdoc : PreparedMdoc → Bytes → Except Oid4vciError SignedCredential
  /-- The confirmation of a public key; private and symmetric keys are refused. -/
  holderPublicJwkConfirmation : Jwk → Except Oid4vciError { v : Json N // sdJwt.mapOrder.Holds v }
  /-- `p256::ecdsa::Signature::from_slice` accepts the bytes. -/
  isP256Signature : Bytes → Bool

variable {N : Type} (platform : Platform N)

/-! ## Inputs -/

inductive Es256SigningBatchInput where
  | jwtVc (routeId : Nat) (claims : CredentialClaims platform.sdJwt.mapOrder N)
  | sdJwt (routeId : Nat) (claims : CredentialClaims platform.sdJwt.mapOrder N) (holderPublicJwk : platform.Jwk)
  | mdoc (routeId : Nat) (claims : CredentialClaims platform.sdJwt.mapOrder N)

def Es256SigningBatchInput.routeId {platform : Platform N} : Es256SigningBatchInput platform → Nat
  | .jwtVc routeId _ => routeId
  | .sdJwt routeId _ _ => routeId
  | .mdoc routeId _ => routeId

/-- The loop over the routes, with the first ordinal of each route and the lowest one that was repeated. -/
def lowestRepeatedFrom : Nat → List Nat → List (Nat × Nat) → Option Nat → Option Nat
  | _, [], _, lowest => lowest
  | ordinal, route :: rest, firstOrdinals, lowest =>
    match firstOrdinals.lookup route with
    | some first => lowestRepeatedFrom (ordinal + 1) rest firstOrdinals (some (lowest.elim first (fun l => min l first)))
    | none => lowestRepeatedFrom (ordinal + 1) rest ((route, ordinal) :: firstOrdinals) lowest

def validateUniqueRoutes (inputs : List (Es256SigningBatchInput platform)) : Exec SigningBatchError Unit :=
  match lowestRepeatedFrom 0 (inputs.map Es256SigningBatchInput.routeId) [] none with
  | some ordinal => fail (.item .duplicateRoute ordinal)
  | none => .ok ()

/-! ## The identity of the signer -/

structure FrozenSignerIdentity where
  algorithm : SigningAlgorithm
  issuerId : Str
  kidUrl : Str
  publicJwk : Str

namespace FrozenSignerIdentity

variable (identity : FrozenSignerIdentity)

def validate : Exec SigningBatchError Unit :=
  reject (identity.algorithm ≠ .es256 ∨ identity.issuerId.trim = [] ∨ identity.kidUrl.trim = []) (.batch .invalidScope)

/-- `matches`. -/
def isMatch (signer : CredentialSigner) : Bool :=
  decide (signer.algorithm = identity.algorithm) && decide (signer.issuerId = identity.issuerId) &&
    decide (signer.kidUrl = identity.kidUrl) &&
    (match signer.publicJwk with
      | .ok publicJwk => decide (publicJwk = identity.publicJwk)
      | .error _ => false)

def capture (signer : CredentialSigner) : Exec SigningBatchError FrozenSignerIdentity :=
  match signer.publicJwk with
  | .error _ => fail (.batch .invalidScope)
  | .ok publicJwk => do
    let identity : FrozenSignerIdentity := ⟨signer.algorithm, signer.issuerId, signer.kidUrl, publicJwk⟩
    identity.validate
    .ok identity

def preparationSigner : CredentialSigner where
  sign _ := .error (.signingError "batch preparation cannot sign")
  algorithm := identity.algorithm
  issuerId := identity.issuerId
  kidUrl := identity.kidUrl
  publicJwk := .ok identity.publicJwk

end FrozenSignerIdentity

/-! ## Preparation -/

structure SigningJobIdentity where
  scopeId : Str
  batchId : Str
  routeId : Nat
  jobId : Nat
deriving DecidableEq

inductive PreparedCredential where
  | jwtVc (prepared : platform.PreparedJwtVc)
  | sdJwt (prepared : SdJwt.PreparedSdJwt)
  | mdoc (prepared : platform.PreparedMdoc)

def PreparedCredential.signingPayload {platform : Platform N} : PreparedCredential platform → Bytes
  | .jwtVc prepared => platform.jwtVcSigningPayload prepared
  | .sdJwt prepared => Str.bytes prepared.signingInput
  | .mdoc prepared => platform.mdocSigningPayload prepared

structure PreparedSigningItem where
  identity : SigningJobIdentity
  credential : PreparedCredential platform

structure PreparedSigningBatch where
  items : List (PreparedSigningItem platform)

def prepareSdJwtWithHolderPublicJwk (draw : Draw) (signer : CredentialSigner)
    (claims : CredentialClaims platform.sdJwt.mapOrder N) (holderJwk : platform.Jwk) :
    Except Oid4vciError SdJwt.PreparedSdJwt := do
  let confirmation ← platform.holderPublicJwkConfirmation holderJwk
  SdJwt.prepareSdJwtWithOptionsAndSources platform.sdJwt signer claims
    { credentialId := none, typ := none, confirmation := some confirmation.1
      held := fun _ hv => Option.some.inj hv ▸ confirmation.2
      x5c := [], includeNbf := false }
    draw.uuid draw.now draw.salts

def prepareCredential (draw : Draw) (signer : CredentialSigner) :
    Es256SigningBatchInput platform → Except Oid4vciError (PreparedCredential platform)
  | .jwtVc _ claims => (platform.prepareJwtVc draw signer claims).map .jwtVc
  | .sdJwt _ claims holderPublicJwk =>
    (prepareSdJwtWithHolderPublicJwk platform draw signer claims holderPublicJwk).map .sdJwt
  | .mdoc _ claims => (platform.prepareMdoc draw signer claims).map .mdoc

/-- `result.map_err(|_| e)?`. -/
def orError {ε α : Type} (e : ε) (x : Except Oid4vciError α) : Exec ε α := orFail e x.toOption

/-- One pass of the loop over the inputs. -/
def prepareItem (identity : FrozenSignerIdentity) (scopeId batchId : Str) (draws : Nat → Draw) (ordinal : Nat)
    (input : Es256SigningBatchInput platform) : Exec SigningBatchError (PreparedSigningItem platform) := do
  -- `u64::try_from(ordinal)`
  reject (2 ^ 64 ≤ ordinal) (.item .preparationFailed ordinal)
  let credential ← orError (.item .preparationFailed ordinal)
    (prepareCredential platform (draws ordinal) identity.preparationSigner input)
  .ok ⟨⟨scopeId, batchId, input.routeId, ordinal⟩, credential⟩

def PreparedSigningBatch.prepare (identity : FrozenSignerIdentity) (scopeId batchId : Str) (draws : Nat → Draw)
    (inputs : List (Es256SigningBatchInput platform)) : Exec SigningBatchError (PreparedSigningBatch platform) := do
  let items ← mapFrom (prepareItem platform identity scopeId batchId draws) 0 inputs
  .ok ⟨items⟩

structure SigningJob where
  identity : SigningJobIdentity
  payload : Bytes

def PreparedSigningBatch.jobs {platform : Platform N} (batch : PreparedSigningBatch platform) : List SigningJob :=
  batch.items.map (fun item => ⟨item.identity, item.credential.signingPayload⟩)

/-! ## The executors -/

/-- How a call of the signer ends. -/
inductive SignReturn where
  | signature (bytes : Bytes)
  | error (e : Oid4vciError)
  | panic (message : String)

inductive SigningOutcome where
  | signature (bytes : Bytes)
  | failed
deriving DecidableEq

structure SigningResult where
  identity : SigningJobIdentity
  outcome : SigningOutcome
deriving DecidableEq

structure SigningExecutionError where
  itemOrdinal : Option Nat

section

variable (sign : Nat → Bytes → SignReturn)

/-- One pass of the loop of `SerialSigningExecutor`. -/
def serialCall (ordinal : Nat) (job : SigningJob) : Exec SigningExecutionError SigningResult :=
  match sign ordinal job.payload with
  | .signature signature => .ok ⟨job.identity, .signature signature⟩
  | .error _ => fail ⟨some ordinal⟩
  | .panic message => .error (.panic message)

def serialExecute (jobs : List SigningJob) : Exec SigningExecutionError (List SigningResult) :=
  mapFrom (serialCall sign) 0 jobs

/-- One pass of the loop of `execute_concurrent_signing_worker`, for a number that was taken. -/
def callJob (jobs : List SigningJob) (ordinal : Nat) : Except String SigningResult :=
  match jobs[ordinal]? with
  | none => .error "index out of bounds"
  | some job =>
    match sign ordinal job.payload with
    | .signature signature => .ok ⟨job.identity, .signature signature⟩
    | .error _ => .ok ⟨job.identity, .failed⟩
    | .panic message => .error message

def workerCount (workerLimit : Nat) (jobs : List SigningJob) : Nat := min workerLimit jobs.length

/-- The caller's results, then those of the threads it joins; or the panic it resumes. -/
def concurrentOutcome (s : Pool.State String SigningResult) : Exec SigningExecutionError (List SigningResult) :=
  match s.firstPanic with
  | some message => .error (.panic message)
  | none => .ok s.results

/-- `ConcurrentSigningExecutor::execute`: the jobs it may have called, in this order, and what it then returns. -/
inductive ConcurrentlyExecutes (workerLimit : Nat) (jobs : List SigningJob) :
    List Nat → Exec SigningExecutionError (List SigningResult) → Prop
  | empty (hjobs : jobs = []) : ConcurrentlyExecutes workerLimit jobs [] (.ok [])
  | ended {n : Nat} {s : Pool.State String SigningResult} (hjobs : jobs ≠ [])
      (hruns : Pool.Runs (callJob sign jobs) jobs.length (Pool.start (workerCount workerLimit jobs - 1)) n s)
      (hended : Pool.Ended s) : ConcurrentlyExecutes workerLimit jobs s.calls (concurrentOutcome s)

end

/-! ## Validation of the results -/

/-- Sixty-four bytes. -/
structure ValidatedSignature where
  raw : Bytes
  length_eq : raw.length = 64

def invalidResults : SigningBatchError := .batch .invalidExecutorResults

/-- The loop over the results, with the identities that are still expected and the outcomes that are known. -/
def placeResults : List SigningResult → List (SigningJobIdentity × Nat) → List (Option SigningOutcome) →
    Exec SigningBatchError (List (SigningJobIdentity × Nat) × List (Option SigningOutcome))
  | [], expected, outcomes => .ok (expected, outcomes)
  | result :: rest, expected, outcomes => do
    let ordinal ← orFail invalidResults (expected.lookup result.identity)
    let known ← index outcomes ordinal
    reject (known.isSome = true) invalidResults
    placeResults rest (expected.filter (fun e => decide (e.1 ≠ result.identity)))
      (outcomes.set ordinal (some result.outcome))

/-- `signature.try_into()` and `Signature::from_slice`. -/
def validateSignature (ordinal : Nat) (signature : Bytes) : Exec SigningBatchError ValidatedSignature :=
  if h : signature.length = 64 then do
    reject (platform.isP256Signature signature = false) (.item .invalidSignature ordinal)
    .ok ⟨signature, h⟩
  else fail (.item .invalidSignature ordinal)

def validateOutcome (ordinal : Nat) : Option SigningOutcome → Exec SigningBatchError ValidatedSignature
  | some (.signature signature) => validateSignature platform ordinal signature
  | _ => .error (.panic "the complete envelope and backend outcomes were validated")

/-- The outcomes of all jobs, in their order. -/
def interpretOutcomes (outcomes : List (Option SigningOutcome)) : Exec SigningBatchError (List ValidatedSignature) :=
  match outcomes.findIdx? (fun outcome => decide (outcome = some .failed)) with
  | some ordinal => fail (.item .executorFailed ordinal)
  | none => mapFrom (validateOutcome platform) 0 outcomes

def validateExecutorResults (jobs : List SigningJob) (results : List SigningResult) :
    Exec SigningBatchError (List ValidatedSignature) := do
  reject (results.length ≠ jobs.length) invalidResults
  reject (¬ (jobs.map SigningJob.identity).Nodup) invalidResults
  let (expected, outcomes) ← placeResults results ((jobs.map SigningJob.identity).zipIdx)
    (List.replicate jobs.length none)
  reject (expected ≠ [] ∨ none ∈ outcomes) invalidResults
  interpretOutcomes platform outcomes

/-! ## Assembly -/

/-- `CanonicalAssembler::assemble`. -/
def assembleCredential (signature : ValidatedSignature) :
    PreparedCredential platform → Except Oid4vciError SignedCredential
  | .jwtVc prepared => platform.assembleJwtVc prepared signature.raw
  | .sdJwt prepared => SdJwt.assembleSdJwt platform.sdJwt prepared signature.raw
  | .mdoc prepared => platform.assembleMdoc prepared signature.raw

def assembleItem (ordinal : Nat) (item : PreparedSigningItem platform × ValidatedSignature) :
    Exec SigningBatchError SignedCredential :=
  orError (.item .assemblyFailed ordinal) (assembleCredential platform item.2 item.1.credential)

def assembleCredentials (prepared : PreparedSigningBatch platform) (signatures : List ValidatedSignature) :
    Exec SigningBatchError (List SignedCredential) :=
  mapFrom (assembleItem platform) 0 (prepared.items.zip signatures)

/-! ## The scopes -/

/-- With the answers the signer gives before it signs. -/
structure Es256SignerScope where
  signer : CredentialSigner
  identity : FrozenSignerIdentity
  scopeId : Str

def Es256SignerScope.new (signer : CredentialSigner) (scopeId : Str) : Exec SigningBatchError Es256SignerScope := do
  let identity ← FrozenSignerIdentity.capture signer
  .ok ⟨signer, identity, scopeId⟩

structure ConcurrentEs256SignerScope extends Es256SignerScope where
  workerLimit : Nat
  workerLimit_pos : 0 < workerLimit

def maxConcurrentSigningWorkers : Nat := 64

def ConcurrentEs256SignerScope.new (signer : CredentialSigner) (authorizedWorkers : { n : Nat // 0 < n }) (scopeId : Str) :
    Exec SigningBatchError ConcurrentEs256SignerScope := do
  let identity ← FrozenSignerIdentity.capture signer
  .ok ⟨⟨signer, identity, scopeId⟩, min authorizedWorkers.1 maxConcurrentSigningWorkers,
    lt_min authorizedWorkers.2 (by decide)⟩

variable (scope : Es256SignerScope) (inputs : List (Es256SigningBatchInput platform)) (batchId : Str) (draws : Nat → Draw)

/-- What both ways of signing begin with. -/
def prepareBatch : Exec SigningBatchError (PreparedSigningBatch platform) := do
  scope.identity.validate
  validateUniqueRoutes platform inputs
  let prepared ← PreparedSigningBatch.prepare platform scope.identity scope.scopeId batchId draws inputs
  reject (scope.identity.isMatch scope.signer = false) (.batch .signerMetadataChanged)
  .ok prepared

def executionFailure (error : SigningExecutionError) : SigningBatchError :=
  match error.itemOrdinal with
  | some ordinal => .item .executorFailed ordinal
  | none => .batch .executorFailed

/-- What both end with. -/
def completeBatch (prepared : PreparedSigningBatch platform) (execution : Exec SigningExecutionError (List SigningResult)) :
    Exec SigningBatchError (List SignedCredential) := do
  let results ← mapErr executionFailure execution
  let signatures ← validateExecutorResults platform prepared.jobs results
  assembleCredentials platform prepared signatures

def signBatch (sign : Nat → Bytes → SignReturn) : Exec SigningBatchError (List SignedCredential) := do
  let prepared ← prepareBatch platform scope inputs batchId draws
  completeBatch platform prepared (serialExecute sign prepared.jobs)

variable (scope : ConcurrentEs256SignerScope)

/-- The part behind the executor, given what it returned and the signer's answers by then. A panic goes on at once. -/
def completeConcurrently (prepared : PreparedSigningBatch platform) (signerAfter : CredentialSigner)
    (execution : Exec SigningExecutionError (List SigningResult)) : Exec SigningBatchError (List SignedCredential) :=
  match execution with
  | .error (.panic message) => .error (.panic message)
  | execution => do
    reject (scope.identity.isMatch signerAfter = false) (.batch .signerMetadataChanged)
    completeBatch platform prepared execution

/-- The jobs that may have been passed to the signer, in this order, and what is then returned. -/
inductive SignBatchConcurrently (sign : Nat → Bytes → SignReturn) (signerAfter : CredentialSigner) :
    List Nat → Exec SigningBatchError (List SignedCredential) → Prop
  | refused {e : Fault SigningBatchError}
      (hprepare : prepareBatch platform scope.toEs256SignerScope inputs batchId draws = .error e) :
      SignBatchConcurrently sign signerAfter [] (.error e)
  | executed {prepared : PreparedSigningBatch platform} {calls : List Nat}
      {execution : Exec SigningExecutionError (List SigningResult)}
      (hprepare : prepareBatch platform scope.toEs256SignerScope inputs batchId draws = .ok prepared)
      (hexecutes : ConcurrentlyExecutes sign scope.workerLimit prepared.jobs calls execution) :
      SignBatchConcurrently sign signerAfter calls (completeConcurrently platform scope prepared signerAfter execution)

end SigningBatch
end MartyCore.Oid4vci
