/-
# The handlers of the platform service

`src/lib/grpcServer/handlers/platform/`, with `src/lib/externalApis/drive/DriveClient.js`,
`fetchProofForStateTransitionFactory.js`, `src/lib/dpp/DriveStateRepository.js` and
`src/lib/externalApis/tenderdash/getConsensusParamsFactory.js`.

A handler is a `Program` over the requests `PlatformRequest`.  What it calls of cbor, of the
generated messages and of the Dash Platform Protocol is a `PlatformLib`.

* The five handlers that read from Drive are one program each, over `DriveClient`.
* `waitForStateTransitionResultHandler` waits, and asks for a proof.
* `broadcastStateTransitionHandler` is in `AbciResult`.
-/
import Dapi.Conversation
import Dapi.DriveErrors
import Dapi.StreamHandler
import Dapi.WaitForTransaction

namespace Dapi

open Async Program

/-! ## What the handlers read -/

/-- A field of bytes, as its getter returns it: bytes, the empty string when it is not set, or
`null`. -/
inductive BytesField
  | null
  | unset
  | bytes (value : Buffer)
  deriving DecidableEq

/-- `!field` -/
def BytesField.isFalsy : BytesField → Bool
  | .null | .unset => true
  | .bytes _ => false

/-- `field && field.length > 0` -/
def BytesField.nonEmpty? : BytesField → Option Buffer
  | .null | .unset => none
  | .bytes value => if value = [] then none else some value

/-- A field of a number, as its getter returns it. -/
inductive NumberField
  | null
  | number (n : ℕ)
  deriving DecidableEq

/-- The `options` of `fetchDocuments`; `none` is `undefined`. -/
structure DocumentsOptions (V : Type) where
  where_ : Option V
  orderBy : Option V
  limit : Option NumberField
  startAfter : Option NumberField
  startAt : Option NumberField
  deriving DecidableEq

/-- The `data` of a request to Drive. -/
inductive DriveData (V : Type)
  | id (id : BytesField)
  | documents (options : DocumentsOptions V) (contractId : BytesField) (type : String)
  | publicKeyHashes (publicKeyHashes : List Buffer)
  | proofs (documentIds identityIds dataContractIds : Option (List Buffer))
  deriving DecidableEq

/-- A proof of Drive. -/
structure DriveProof where
  rootTreeProof : Buffer
  storeTreeProof : Buffer
  signatureLlmqHash : Buffer
  signature : Buffer
  deriving DecidableEq

/-- `metadata` of a response of Drive. -/
structure DriveMetadata where
  height : ℕ
  coreChainLockedHeight : ℕ
  deriving DecidableEq

/-- The decoded response to `fetchProofs`. -/
structure ProofsResponse where
  documentsProof : Option DriveProof
  identitiesProof : Option DriveProof
  dataContractsProof : Option DriveProof
  metadata : Option DriveMetadata
  deriving DecidableEq

/-- A state transition, as the Dash Platform Protocol makes it from bytes. -/
structure StateTransition where
  isDocumentStateTransition : Bool
  isIdentityStateTransition : Bool
  isDataContractStateTransition : Bool
  modifiedDataIds : List Buffer
  deriving DecidableEq

/-- What `consensus_params` says of blocks. -/
structure ConsensusParamsBlock where
  maxBytes : String
  maxGas : String
  timeIotaMs : String
  deriving DecidableEq

/-- What `consensus_params` says of evidence. -/
structure ConsensusParamsEvidence where
  maxAgeNumBlocks : String
  maxAgeDuration : String
  maxBytes : String
  deriving DecidableEq

/-- `result.consensus_params`, and the response that is made of it. -/
structure ConsensusParams where
  block : ConsensusParamsBlock
  evidence : ConsensusParamsEvidence
  deriving DecidableEq

/-- The messages that Drive answers with. -/
inductive ResponseClass
  | GetIdentityResponse
  | GetDataContractResponse
  | GetDocumentsResponse
  | GetIdentitiesByPublicKeyHashesResponse
  | GetIdentityIdsByPublicKeyHashesResponse
  deriving DecidableEq

/-- What the handlers call of libraries.  `D` is the type of decoded `data` objects, `V` that of
decoded options, `R` that of messages and `C` that of data contracts. -/
structure PlatformLib (D V R C : Type) where
  driveErrorLib : DriveErrorLib D
  /-- `cbor.encode(data)` -/
  encodeData : DriveData V → Buffer
  /-- `cbor.decode` of an option -/
  decodeOption : Buffer → Except String V
  /-- `cbor.decode` of a response -/
  decodeProofs : Buffer → Except String ProofsResponse
  /-- `cbor.encode(grpcError.getRawMetadata())`, also of `undefined` -/
  encodeMetadata : Option Metadata → Buffer
  deserializeBinary : ResponseClass → Buffer → Except String R
  /-- `dataContractResponse.getDataContract()` -/
  getDataContract : R → Buffer
  /-- `dpp.dataContract.createFromBuffer(buffer, { skipValidation: true })` -/
  createDataContract : Buffer → Except String C

/-! ## Requests and failures -/

/-- What the handlers await. -/
inductive PlatformRequest
  | abciQuery (query : AbciQuery)
  | consensusParams (height : Option String)
  | waitForTransactionToBeProvable (hashString : String) (timeout : ℕ)
  /-- `dpp.stateTransition.createFromBuffer(buffer, { skipValidation: true })` -/
  | createStateTransition (buffer : Buffer)
  deriving DecidableEq

/-- What an awaited request is answered with, when it does not fail. -/
def PlatformRequest.Answer : PlatformRequest → Type
  | .abciQuery _ => RpcResponse AbciQueryResponse
  | .consensusParams _ => RpcResponse ConsensusParams
  | .waitForTransactionToBeProvable _ _ => TransactionResult
  | .createStateTransition _ => StateTransition

/-- What a handler throws. -/
inductive PlatformFailure
  | request (failure : RequestFailure)
  | transactionWaitPeriodExceeded (transactionHash : String)
  /-- `new DeadlineExceededGrpcError(message, { stateTransitionHash })` -/
  | deadlineExceeded (message : String) (stateTransitionHash : String)
  /-- `new InternalGrpcError(e)` -/
  | internal (error : RPCError)
  deriving DecidableEq

/-- The failure of a wait. -/
def WaitFailure.toPlatformFailure : WaitFailure → PlatformFailure
  | .request failure => .request failure
  | .transactionWaitPeriodExceeded hashString => .transactionWaitPeriodExceeded hashString

/-- `new InvalidArgumentGrpcError(message)` -/
def PlatformFailure.invalidArgument (message : String) : PlatformFailure :=
  .request (.grpc (.common .InvalidArgumentGrpcError (some message) none))

/-- The kind of programs that the handlers are. -/
abbrev platformSignature : Signature where
  Sync := Empty
  SyncAnswer := fun _ => Unit
  Request := PlatformRequest
  Answer := PlatformRequest.Answer
  Failure := PlatformFailure

/-- A part of a handler. -/
abbrev PlatformProgram (α : Type) := Program platformSignature α

namespace Platform

/-- The request of `DriveClient` to Tenderdash. -/
def abciQuery (query : AbciQuery) : PlatformProgram (RpcResponse AbciQueryResponse) :=
  issue (S := platformSignature) (.abciQuery query)

/-- The request of `getConsensusParams`, with the height if there is one. -/
def consensusParams (height : Option String) : PlatformProgram (RpcResponse ConsensusParams) :=
  issue (S := platformSignature) (.consensusParams height)

/-- `waitForTransactionToBeProvable`, which is modelled on its own. -/
def waitForTransactionToBeProvable (hashString : String) (timeout : ℕ) :
    PlatformProgram TransactionResult :=
  issue (S := platformSignature) (.waitForTransactionToBeProvable hashString timeout)

/-- The state transition in the bytes of a transaction. -/
def createStateTransition (buffer : Buffer) : PlatformProgram StateTransition :=
  issue (S := platformSignature) (.createStateTransition buffer)

/-- A function that throws a failure of a request. -/
def ofRequest {α : Type} (x : Except RequestFailure α) : PlatformProgram α :=
  match x with
  | .ok a => .done a
  | .error failure => .throw (.request failure)

/-- A function of a library. -/
def ofLibrary {α : Type} (x : Except String α) : PlatformProgram α :=
  match x with
  | .ok a => .done a
  | .error message => .throw (.request (.library message))

/-- A property of `undefined` is read. -/
def ofDefined {α : Type} (x : Option α) : PlatformProgram α :=
  match x with
  | some a => .done a
  | none => .throw (.request .typeError)

/-! ### Rules -/

section Rules

variable {P α : Type} {T : Protocol platformSignature P} {post : α → P → Prop}
  {exc : PlatformFailure → P → Prop} {p : P}

/-- The failure of a request is thrown. -/
theorem obeys_ofRequest {x : Except RequestFailure α} (hok : ∀ a, x = .ok a → post a p)
    (herror : ∀ failure, x = .error failure → exc (.request failure) p) :
    (ofRequest x).Obeys T post exc p := by
  cases x with
  | ok a => exact hok a rfl
  | error failure => exact herror failure rfl

/-- The failure of a library is thrown. -/
theorem obeys_ofLibrary {x : Except String α} (hok : ∀ a, x = .ok a → post a p)
    (herror : ∀ message, exc (.request (.library message)) p) :
    (ofLibrary x).Obeys T post exc p := by
  cases x with
  | ok a => exact hok a rfl
  | error message => exact herror message

/-- What is not there raises a `TypeError`. -/
theorem obeys_ofDefined {x : Option α} (hsome : ∀ a, x = some a → post a p)
    (hnone : exc (.request .typeError) p) : (ofDefined x).Obeys T post exc p := by
  cases x with
  | some a => exact hsome a rfl
  | none => exact hnone

end Rules

end Platform

section

variable {D V R C : Type} (lib : PlatformLib D V R C)

/-! ## `DriveClient` -/

namespace Drive

/-- The method `request`. -/
def request (path : String) (data : DriveData V) (prove : Bool) : PlatformProgram Buffer := do
  let response ← Platform.abciQuery ⟨path, lib.encodeData data, prove⟩
  Platform.ofRequest
    (DriveClient.request lib.driveErrorLib (fun _ _ => response) path (lib.encodeData data) prove)

/-- A data contract by its identifier. -/
def fetchDataContract (contractId : BytesField) (prove : Bool) : PlatformProgram Buffer :=
  request lib "/dataContracts" (.id contractId) prove

/-- The documents of a type in a contract that the options select. -/
def fetchDocuments (contractId : BytesField) (type : String) (options : DocumentsOptions V)
    (prove : Bool) : PlatformProgram Buffer :=
  request lib "/dataContracts/documents" (.documents options contractId type) prove

/-- An identity by its identifier. -/
def fetchIdentity (id : BytesField) (prove : Bool) : PlatformProgram Buffer :=
  request lib "/identities" (.id id) prove

/-- The identities that have public keys with the hashes. -/
def fetchIdentitiesByPublicKeyHashes (publicKeyHashes : List Buffer) (prove : Bool) :
    PlatformProgram Buffer :=
  request lib "/identities/by-public-key-hash" (.publicKeyHashes publicKeyHashes) prove

/-- The identifiers of these identities. -/
def fetchIdentityIdsByPublicKeyHashes (publicKeyHashes : List Buffer) (prove : Bool) :
    PlatformProgram Buffer :=
  request lib "/identities/by-public-key-hash/id" (.publicKeyHashes publicKeyHashes) prove

/-- The method `fetchProofs`, with `requestCbor`. -/
def fetchProofs (documentIds identityIds dataContractIds : Option (List Buffer)) :
    PlatformProgram ProofsResponse := do
  let responseBuffer ←
    request lib "/proofs" (.proofs documentIds identityIds dataContractIds) false
  Platform.ofLibrary (lib.decodeProofs responseBuffer)

end Drive

/-- `DriveStateRepository.fetchDataContract` -/
def fetchDataContract (contractIdentifier : Buffer) : PlatformProgram C := do
  let dataContractProtoBuffer ← Drive.fetchDataContract lib (.bytes contractIdentifier) false
  let dataContractResponse ←
    Platform.ofLibrary (lib.deserializeBinary .GetDataContractResponse dataContractProtoBuffer)
  Platform.ofLibrary (lib.createDataContract (lib.getDataContract dataContractResponse))

/-! ## The handlers that read from Drive -/

/-- `GetIdentityRequest`, and `GetDataContractRequest` -/
structure IdRequest where
  id : BytesField
  prove : Bool

/-- The handler of `getIdentity`: an identifier is wanted. -/
def getIdentityHandler (request : IdRequest) : PlatformProgram R :=
  if request.id.isFalsy then throw (.invalidArgument "id is not specified")
  else do
    let identityResponseBuffer ← Drive.fetchIdentity lib request.id request.prove
    Platform.ofLibrary (lib.deserializeBinary .GetIdentityResponse identityResponseBuffer)

/-- Here an id that is not set is sent to Drive. -/
def getDataContractHandler (request : IdRequest) : PlatformProgram R :=
  if request.id = .null then throw (.invalidArgument "id is not specified")
  else do
    let dataContractResponseBuffer ← Drive.fetchDataContract lib request.id request.prove
    Platform.ofLibrary (lib.deserializeBinary .GetDataContractResponse dataContractResponseBuffer)

/-- `GetDocumentsRequest`, with the options of the query. -/
structure GetDocumentsRequest where
  dataContractId : BytesField
  documentType : String
  where_ : BytesField
  orderBy : BytesField
  limit : NumberField
  startAfter : NumberField
  startAt : NumberField
  prove : Bool

/-- An option that is a query in cbor. -/
def decodeOption (field : BytesField) : PlatformProgram (Option V) :=
  match field.nonEmpty? with
  | some bytes => do
    let value ← Platform.ofLibrary (lib.decodeOption bytes)
    pure (some value)
  | none => pure none

/-- `if (field !== 0)`: the option, when the number is not the default. -/
def NumberField.notDefault (field : NumberField) : Option NumberField :=
  if field = .number 0 then none else some field

/-- `if (field)` -/
def NumberField.truthy : NumberField → Option NumberField
  | .null | .number 0 => none
  | field => some field

/-- The handler of `getDocuments`: the contract and the type are wanted, and options that are not
set are left out. -/
def getDocumentsHandler (request : GetDocumentsRequest) : PlatformProgram R :=
  if request.dataContractId.isFalsy then throw (.invalidArgument "dataContractId is not specified")
  else if request.documentType = "" then throw (.invalidArgument "documentType is not specified")
  else do
    let where_ ← decodeOption lib request.where_
    let orderBy ← decodeOption lib request.orderBy
    let limit := request.limit.notDefault
    let startAfter := request.startAfter.notDefault
    let startAt := request.startAt.truthy
    let documentResponseBuffer ← Drive.fetchDocuments lib request.dataContractId
      request.documentType ⟨where_, orderBy, limit, startAfter, startAt⟩ request.prove
    Platform.ofLibrary (lib.deserializeBinary .GetDocumentsResponse documentResponseBuffer)

/-- `GetIdentitiesByPublicKeyHashesRequest`, and `GetIdentityIdsByPublicKeyHashesRequest` -/
structure PublicKeyHashesRequest where
  publicKeyHashes : List Buffer
  prove : Bool

/-- What the two handlers for public key hashes do, with their method of `DriveClient`. -/
def publicKeyHashesHandler (fetch : List Buffer → Bool → PlatformProgram Buffer)
    (responseClass : ResponseClass) (request : PublicKeyHashesRequest) : PlatformProgram R :=
  if request.publicKeyHashes = [] then
    throw (.invalidArgument "No public key hashes were provided")
  else do
    let responseBuffer ← fetch request.publicKeyHashes request.prove
    Platform.ofLibrary (lib.deserializeBinary responseClass responseBuffer)

/-- The handler of `getIdentitiesByPublicKeyHashes`. -/
def getIdentitiesByPublicKeyHashesHandler (request : PublicKeyHashesRequest) :
    PlatformProgram R :=
  publicKeyHashesHandler lib (Drive.fetchIdentitiesByPublicKeyHashes lib)
    .GetIdentitiesByPublicKeyHashesResponse request

/-- The handler of `getIdentityIdsByPublicKeyHashes`. -/
def getIdentityIdsByPublicKeyHashesHandler (request : PublicKeyHashesRequest) :
    PlatformProgram R :=
  publicKeyHashesHandler lib (Drive.fetchIdentityIdsByPublicKeyHashes lib)
    .GetIdentityIdsByPublicKeyHashesResponse request

/-! ## The consensus parameters -/

/-- `getConsensusParams` -/
def getConsensusParams (height : Option ℕ) : PlatformProgram ConsensusParams := do
  let response ← Platform.consensusParams (height.map fun height => toString height)
  match response.error with
  | some error => throw (.request (.rpc error.toRPCError))
  | none => Platform.ofDefined response.result

/-- `GetConsensusParamsRequest`; the height 0 stands for the latest one. -/
structure GetConsensusParamsRequest where
  height : ℕ
  prove : Bool

/-- The `e.data` in a template string. -/
def dataText (data : Option String) : String := data.getD "undefined"

/-- The handler of `getConsensusParams`: a proof is refused, and the failure of a height that
Tendermint does not have is translated. -/
def getConsensusParamsHandler (request : GetConsensusParamsRequest) :
    PlatformProgram ConsensusParams :=
  if request.prove then throw (.invalidArgument "Prove is not implemented yet")
  else
    let height := if request.height = 0 then none else some request.height
    (getConsensusParams height).tryCatch fun e =>
      match e with
      | .request (.rpc error) =>
        if error.code = 32603 then
          throw (.request (.grpc (.common .FailedPreconditionGrpcError
            (some ("Invalid height: " ++ dataText error.data)) none)))
        else throw (.internal error)
      | e => throw e

/-! ## The result of a state transition -/

/-- `WaitForStateTransitionResultRequest`; a hash that is not set is `none`. -/
structure ResultRequest where
  stateTransitionHash : Option Buffer
  prove : Bool
  deriving DecidableEq

/-- The message `StateTransitionBroadcastError`. -/
structure StateTransitionBroadcastError where
  code : Option ℤ
  message : String
  data : Buffer
  deriving DecidableEq

/-- The message `StoreTreeProofs`, which has one of the proofs. -/
structure StoreTreeProofs where
  documentsProof : Option Buffer
  identitiesProof : Option Buffer
  dataContractsProof : Option Buffer
  deriving DecidableEq

/-- The message `Proof`. -/
structure ResultProof where
  rootTreeProof : Buffer
  storeTreeProofs : StoreTreeProofs
  signatureLlmqHash : Buffer
  signature : Buffer
  deriving DecidableEq

/-- The message `WaitForStateTransitionResultResponse`: an error, or a proof with its metadata, or
neither. -/
structure WaitForStateTransitionResultResponse where
  error : Option StateTransitionBroadcastError
  metadata : Option DriveMetadata
  proof : Option ResultProof
  deriving DecidableEq

/-- `buffer.toString('hex').toUpperCase()` -/
def Buffer.toUpperHex (b : Buffer) : String := String.ofList (b.toHex.toList.map Char.toUpper)

/-- How long the handler waits, in milliseconds. -/
def stateTransitionWaitTimeout : ℕ := 80000

/-- The error of a response, for the result of a transaction that failed. -/
def createStateTransitionDeliverError (txDeliverResult : AbciResult) :
    Except RequestFailure StateTransitionBroadcastError :=
  match createGrpcErrorFromDriveResponse lib.driveErrorLib txDeliverResult.code
      txDeliverResult.info with
  | .ok grpcError =>
    .ok ⟨txDeliverResult.code, grpcError.getMessage, lib.encodeMetadata grpcError.getRawMetadata⟩
  | .error message => .error (.library message)

/-- `fetchProofForStateTransition` -/
def fetchProofForStateTransition (stateTransition : StateTransition) :
    PlatformProgram (Option DriveProof × Option DriveMetadata) :=
  let modifiedIds := stateTransition.modifiedDataIds
  if stateTransition.isDocumentStateTransition then do
    let proofs ← Drive.fetchProofs lib (some modifiedIds) none none
    pure (proofs.documentsProof, proofs.metadata)
  else if stateTransition.isIdentityStateTransition then do
    let proofs ← Drive.fetchProofs lib none (some modifiedIds) none
    pure (proofs.identitiesProof, proofs.metadata)
  else if stateTransition.isDataContractStateTransition then do
    let proofs ← Drive.fetchProofs lib none none (some modifiedIds)
    pure (proofs.dataContractsProof, proofs.metadata)
  else pure (none, none)

/-- The store tree proof, under the kind of the state transition. -/
def createStoreTreeProofs (stateTransition : StateTransition) (storeTreeProof : Buffer) :
    StoreTreeProofs :=
  if stateTransition.isDocumentStateTransition then ⟨some storeTreeProof, none, none⟩
  else if stateTransition.isIdentityStateTransition then ⟨none, some storeTreeProof, none⟩
  else if stateTransition.isDataContractStateTransition then ⟨none, none, some storeTreeProof⟩
  else ⟨none, none, none⟩

/-- The response with a proof, for the bytes of a transaction. -/
def proveTransaction (transaction : Buffer) :
    PlatformProgram WaitForStateTransitionResultResponse := do
  let stateTransition ← Platform.createStateTransition transaction
  let (proof, metadata) ← fetchProofForStateTransition lib stateTransition
  let metadata ← Platform.ofDefined metadata
  let proofObject ← Platform.ofDefined proof
  let proof : ResultProof :=
    ⟨proofObject.rootTreeProof, createStoreTreeProofs stateTransition proofObject.storeTreeProof,
      proofObject.signatureLlmqHash, proofObject.signature⟩
  pure ⟨none, some metadata, some proof⟩

/-- The response to the result of a transaction. -/
def respondToResult (prove : Bool) (result : TransactionResult) :
    PlatformProgram WaitForStateTransitionResultResponse :=
  match result.resultClass with
  | .TransactionErrorResult => do
    let txDeliverResult ← Platform.ofDefined result.deliverResult
    let error ← Platform.ofRequest (createStateTransitionDeliverError lib txDeliverResult)
    pure ⟨some error, none, none⟩
  | .TransactionOkResult =>
    if prove then proveTransaction lib result.transaction
    else pure ⟨none, none, none⟩

/-- The handler of `waitForStateTransitionResult`: the wait, a deadline when it takes too long, and
the response to its result. -/
def waitForStateTransitionResultHandler (request : ResultRequest) :
    PlatformProgram WaitForStateTransitionResultResponse :=
  match request.stateTransitionHash with
  | none => throw (.invalidArgument "state transition hash is not specified")
  | some stateTransitionHash => do
    let result ←
      (Platform.waitForTransactionToBeProvable stateTransitionHash.toUpperHex
        stateTransitionWaitTimeout).tryCatch fun e =>
          match e with
          | .transactionWaitPeriodExceeded hash =>
            throw (.deadlineExceeded
              ("Waiting period for state transition " ++ hash ++ " exceeded") hash)
          | e => throw e
    respondToResult lib request.prove result

end

end Dapi
