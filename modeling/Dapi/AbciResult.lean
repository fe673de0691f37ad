/-
# ABCI results and their readers

Tenderdash answers with results of ABCI calls.  Four places of the service read
whether a result is a success:
`src/lib/externalApis/tenderdash/waitForTransactionToBeProvable/`
`waitForTransactionResult.js` and `getExistingTransactionResult.js`,
`src/lib/externalApis/drive/DriveClient.js` and
`src/lib/grpcServer/handlers/platform/broadcastStateTransitionHandlerFactory.js`;
with `src/lib/grpcServer/handlers/createGrpcErrorFromDriveResponse.js` for the errors.

* A Base64 string is kept as the bytes and a decimal string as the number that it
  spells; `none` is `undefined`.
* What the errors need of cbor and of the Dash Platform Protocol is a `DriveErrorLib`.
* `consumers_agree_iff`: the four readers agree exactly when the result has a code.
-/
import Dapi.CoreTypes

namespace Dapi

/-! ## JSON RPC -/

/-- The error object of a JSON RPC response. -/
structure JsonRpcError where
  code : Option ℤ
  message : Option String
  data : Option String
  deriving DecidableEq

/-- A JSON RPC response. -/
structure RpcResponse (α : Type) where
  result : Option α
  error : Option JsonRpcError
  deriving DecidableEq

/-- The method and the parameters of a request are answered by a response. -/
abbrev RpcClient (π α : Type) := String → π → RpcResponse α

/-- `new RPCError(code, message, data)` -/
structure RPCError where
  code : ℤ
  message : String
  data : Option String
  deriving DecidableEq

/-- `new RPCError(error.code || -32602, error.message || 'Internal error', error.data)` -/
def JsonRpcError.toRPCError (error : JsonRpcError) : RPCError where
  code := if error.code.getD 0 = 0 then -32602 else error.code.getD 0
  message := if error.message.getD "" = "" then "Internal error" else error.message.getD ""
  data := error.data

/-! ## gRPC errors -/

namespace GrpcErrorCodes

/-- The failure of a server that says no more. -/
def UNKNOWN : ℤ := 2

/-- The request itself is wrong. -/
def INVALID_ARGUMENT : ℤ := 3

/-- The answer took too long. -/
def DEADLINE_EXCEEDED : ℤ := 4

/-- What is asked for is not there. -/
def NOT_FOUND : ℤ := 5

/-- What is to be made is there. -/
def ALREADY_EXISTS : ℤ := 6

/-- A quota is used up. -/
def RESOURCE_EXHAUSTED : ℤ := 8

/-- The state of the node does not admit the request. -/
def FAILED_PRECONDITION : ℤ := 9

/-- The server itself has failed. -/
def INTERNAL : ℤ := 13

/-- The service is not there at the moment. -/
def UNAVAILABLE : ℤ := 14

/-- The caller is not known. -/
def UNAUTHENTICATED : ℤ := 16

end GrpcErrorCodes

/-- The error classes of grpc-common that are made with a message. -/
inductive CommonErrorClass
  | InvalidArgumentGrpcError
  | DeadlineExceededGrpcError
  | NotFoundGrpcError
  | AlreadyExistsGrpcError
  | ResourceExhaustedGrpcError
  | FailedPreconditionGrpcError
  | UnavailableGrpcError
  deriving DecidableEq

/-- The metadata of a gRPC error. -/
inductive Metadata
  | drive (code : Option ℤ) (driveErrorDataBin : Option Buffer)
  | jsonRpc (error : JsonRpcError)
  deriving DecidableEq

/-- The metadata `{}`. -/
def Metadata.empty : Metadata := .drive none none

/-- A gRPC error: of one of the common classes, an internal one made from an error, or one made
with its code.  The message and the metadata are `none` when the constructor is not given any;
`some .empty` is the metadata `{}`. -/
inductive GrpcError
  | common (errorClass : CommonErrorClass) (message : Option String) (metadata : Option Metadata)
  | internal (message stack : Option String) (metadata : Option Metadata)
  | other (code : ℤ) (message : Option String) (metadata : Option Metadata)
  deriving DecidableEq

/-- What the errors of Drive are made with: `cbor`, and `createConsensusError` of the Dash Platform
Protocol.  `D` is the type of the decoded `data` objects. -/
structure DriveErrorLib (D : Type) where
  /-- `cbor.decode`, the fields `message` and `data` of the object -/
  decode : Buffer → Except String (Option String × Option D)
  encode : D → Buffer
  /-- `{}` -/
  emptyData : D
  /-- `Object.keys(data).length === 0` -/
  hasNoKeys : D → Bool
  stack : D → Option String
  /-- `delete data.stack` -/
  deleteStack : D → D
  /-- the message of `createConsensusError(code, data.arguments || [])` -/
  createConsensusError : ℤ → D → Except String String

section DriveErrors

variable {D : Type} (lib : DriveErrorLib D)

/-- `createRawMetadata(data)`, behind the `code` for the errors of the Dash Platform Protocol. -/
def createRawMetadata (code : Option ℤ) (data : D) : Metadata :=
  if lib.hasNoKeys data then .drive code none else .drive code (some (lib.encode data))

/-- The table from codes to classes. -/
def COMMON_ERROR_CLASSES (code : ℤ) : Option CommonErrorClass :=
  if code = GrpcErrorCodes.INVALID_ARGUMENT then some .InvalidArgumentGrpcError
  else if code = GrpcErrorCodes.DEADLINE_EXCEEDED then some .DeadlineExceededGrpcError
  else if code = GrpcErrorCodes.NOT_FOUND then some .NotFoundGrpcError
  else if code = GrpcErrorCodes.ALREADY_EXISTS then some .AlreadyExistsGrpcError
  else if code = GrpcErrorCodes.RESOURCE_EXHAUSTED then some .ResourceExhaustedGrpcError
  else if code = GrpcErrorCodes.FAILED_PRECONDITION then some .FailedPreconditionGrpcError
  else if code = GrpcErrorCodes.UNAVAILABLE then some .UnavailableGrpcError
  else none

/-- `info ? cbor.decode(Buffer.from(info, 'base64')) : {}`, its `message` and `data || {}` -/
def decodeInfo (info : Option Buffer) : Except String (Option String × D) :=
  if info.getD [] = [] then .ok (none, lib.emptyData)
  else
    match lib.decode (info.getD []) with
    | .ok (message, data) => .ok (message, data.getD lib.emptyData)
    | .error message => .error message

/-- The error for a gRPC code. -/
def createGrpcCodeError (code : ℤ) (message : Option String) (data : D) : GrpcError :=
  match COMMON_ERROR_CLASSES code with
  | some errorClass => .common errorClass message (some (createRawMetadata lib none data))
  | none =>
    if code = GrpcErrorCodes.INTERNAL then
      -- the stack of a verbose internal error is restored
      match lib.stack data with
      | some stack =>
        .internal message (some stack) (some (createRawMetadata lib none (lib.deleteStack data)))
      | none => .internal message none (some (createRawMetadata lib none data))
    else .other code message (some (createRawMetadata lib none data))

/-- The error for a code of the Dash Platform Protocol: basic, signature, fee or state. -/
def createDppError (code : ℤ) (message : String) (data : D) : GrpcError :=
  let metadata := some (createRawMetadata lib (some code) data)
  if code < 2000 then .common .InvalidArgumentGrpcError (some message) metadata
  else if code < 3000 then .other GrpcErrorCodes.UNAUTHENTICATED (some message) metadata
  else if code < 4000 then .common .FailedPreconditionGrpcError (some message) metadata
  else .common .InvalidArgumentGrpcError (some message) metadata

/-- The error for a code and an info of Drive; a failure is an exception of the libraries. -/
def createGrpcErrorFromDriveResponse (code : Option ℤ) (info : Option Buffer) :
    Except String GrpcError :=
  match code with
  | none => .ok (.internal (some "Drive’s error code is empty") none none)
  | some code =>
    match decodeInfo lib info with
    | .error message => .error message
    | .ok (message, data) =>
      if code ≤ 16 then .ok (createGrpcCodeError lib code message data)
      else if code < 1000 then
        .ok (.other GrpcErrorCodes.UNKNOWN message (some (createRawMetadata lib none data)))
      else if code < 5000 then
        match lib.createConsensusError code data with
        | .ok message => .ok (createDppError lib code message data)
        | .error message => .error message
      else
        .ok (.internal (some ("Unknown Drive’s error code: " ++ toString code)) none none)

end DriveErrors

/-! ## The four readers -/

/-- The fields that the service reads of every ABCI result. -/
structure AbciResult where
  code : Option ℤ
  info : Option Buffer
  deriving DecidableEq

/-- What a request of the service fails with. -/
inductive RequestFailure
  | rpc (error : RPCError)
  | jsonRpc (error : JsonRpcError)
  | grpc (error : GrpcError)
  /-- the promise of the request is rejected -/
  | rejection (message : String)
  /-- an exception of a library -/
  | library (message : String)
  /-- a property of `undefined` is read -/
  | typeError
  deriving DecidableEq

/-- Which class a transaction result is built with. -/
inductive TransactionResultClass
  | TransactionOkResult
  | TransactionErrorResult
  deriving DecidableEq

/-- `AbstractTransactionResult` -/
structure TransactionResult where
  resultClass : TransactionResultClass
  deliverResult : Option AbciResult
  height : ℕ
  transaction : Buffer
  deriving DecidableEq

/-- `message.data.value.TxResult` of a `Tx` event. -/
structure TxResult where
  result : Option AbciResult
  tx : Buffer
  height : ℕ
  deriving DecidableEq

/-- What the handler of `waitForTransactionResult` resolves its promise with. -/
def handleTxResult (txResult : TxResult) : TransactionResult :=
  let isError :=
    match txResult.result with
    | none => false
    | some deliverResult =>
      decide (deliverResult.code ≠ none) && decide (deliverResult.code ≠ some 0)
  let resultClass : TransactionResultClass :=
    if isError then .TransactionErrorResult else .TransactionOkResult
  ⟨resultClass, txResult.result, txResult.height, txResult.tx⟩

/-- The result of a `tx` request. -/
structure TxQueryResult where
  txResult : AbciResult
  height : ℕ
  tx : Buffer
  deriving DecidableEq

/-- What `getExistingTransactionResult` makes of the response to its request. -/
def readTransactionResult (response : RpcResponse TxQueryResult) :
    Except RequestFailure TransactionResult :=
  match response.error, response.result with
  | some error, _ => .error (.rpc error.toRPCError)
  | none, none => .error .typeError
  | none, some result =>
    let resultClass : TransactionResultClass :=
      if result.txResult.code = some 0 then .TransactionOkResult else .TransactionErrorResult
    .ok ⟨resultClass, some result.txResult, result.height, result.tx⟩

/-- `getExistingTransactionResult`, for a client that answers at once. -/
def getExistingTransactionResult (rpcClient : RpcClient Buffer TxQueryResult) (hash : Buffer) :
    Except RequestFailure TransactionResult :=
  readTransactionResult (rpcClient "tx" hash)

/-- The parameters of an `abci_query` request. -/
structure AbciQuery where
  path : String
  data : Buffer
  prove : Bool
  deriving DecidableEq

/-- The response inside the result of an `abci_query` request. -/
structure AbciQueryResponse extends AbciResult where
  value : Buffer
  deriving DecidableEq

/-- `throw createGrpcErrorFromDriveResponse(code, info)` -/
def driveFailure {D : Type} (lib : DriveErrorLib D) (result : AbciResult) : RequestFailure :=
  match createGrpcErrorFromDriveResponse lib result.code result.info with
  | .ok error => .grpc error
  | .error message => .library message

/-- `DriveClient.request`, `encodedData` being the data in cbor. -/
def DriveClient.request {D : Type} (lib : DriveErrorLib D)
    (client : RpcClient AbciQuery AbciQueryResponse) (path : String) (encodedData : Buffer)
    (prove : Bool) : Except RequestFailure Buffer :=
  let response := client "abci_query" ⟨path, encodedData, prove⟩
  match response.error, response.result with
  | some error, _ => .error (.rpc error.toRPCError)
  | none, none => .error .typeError
  | none, some response =>
    if response.code = none ∨ response.code = some 0 then .ok response.value
    else .error (driveFailure lib response.toAbciResult)

/-- `broadcastStateTransitionHandler`; the response carries no data. -/
def broadcastStateTransitionHandler {D : Type} (lib : DriveErrorLib D)
    (rpcClient : RpcClient Buffer AbciResult) (stateTransition : Option Buffer) :
    Except RequestFailure Unit :=
  match stateTransition with
  | none =>
    .error (.grpc (.common .InvalidArgumentGrpcError (some "State Transition is not specified")
      none))
  | some tx =>
    let response := rpcClient "broadcast_tx_sync" tx
    match response.error, response.result with
    | some error, _ =>
      if error.data = some "tx already exists in cache" then
        .error (.grpc (.common .AlreadyExistsGrpcError
          (some "State transition already in chain") (some (.jsonRpc error))))
      else .error (.jsonRpc error)
    | none, none => .error .typeError
    | none, some result =>
      if result.code ≠ some 0 then .error (driveFailure lib result) else .ok ()

/-! ## When they agree -/

/-- The result of a delivered transaction, as any of the readers may be given it. -/
structure Payload where
  result : AbciResult
  height : ℕ
  tx : Buffer

namespace Payload

variable {D : Type} (lib : DriveErrorLib D) (payload : Payload)

/-- What `waitForTransactionResult` makes of the payload in an event. -/
def fromEvent : TransactionResult :=
  handleTxResult ⟨some payload.result, payload.tx, payload.height⟩

/-- What `getExistingTransactionResult` makes of the payload in a response. -/
def fromQuery : Except RequestFailure TransactionResult :=
  readTransactionResult ⟨some ⟨payload.result, payload.height, payload.tx⟩, none⟩

/-- By the convention, a result is a success when its code is absent or zero. -/
def IsSuccess : Prop := payload.result.code = none ∨ payload.result.code = some 0

/-- The event reader goes by the code being 0 or not there. -/
theorem fromEvent_resultClass_iff :
    payload.fromEvent.resultClass = .TransactionOkResult ↔ payload.IsSuccess := by
  unfold fromEvent handleTxResult IsSuccess
  by_cases hnone : payload.result.code = none
  · simp [hnone]
  · by_cases hzero : payload.result.code = some 0
    · simp [hzero]
    · simp [hnone, hzero]

/-- The query reader goes by the code being 0. -/
theorem fromQuery_eq : payload.fromQuery = .ok
    ⟨if payload.result.code = some 0 then .TransactionOkResult else .TransactionErrorResult,
      some payload.result, payload.height, payload.tx⟩ := rfl

/-- Event and query lead to the same transaction result when the code is present. -/
theorem fromQuery_eq_fromEvent_iff :
    payload.fromQuery = .ok payload.fromEvent ↔ payload.result.code ≠ none := by
  rw [fromQuery_eq]
  unfold fromEvent handleTxResult
  by_cases hnone : payload.result.code = none
  · simp [hnone]
  · by_cases hzero : payload.result.code = some 0
    · simp [hzero]
    · simp [hnone, hzero]

/-- The Drive client goes by the code being 0 or not there. -/
theorem request_ok_iff (path : String) (encodedData value : Buffer) (prove : Bool) :
    (∃ buffer, DriveClient.request lib (fun _ _ => ⟨some ⟨payload.result, value⟩, none⟩) path
      encodedData prove = .ok buffer) ↔ payload.IsSuccess := by
  unfold DriveClient.request IsSuccess
  by_cases h : payload.result.code = none ∨ payload.result.code = some 0
  · simp [h]
  · simp [h]

/-- The broadcast handler goes by the code being 0. -/
theorem broadcast_ok_iff (tx : Buffer) :
    (∃ u, broadcastStateTransitionHandler lib (fun _ _ => ⟨some payload.result, none⟩)
      (some tx) = .ok u) ↔ payload.result.code = some 0 := by
  unfold broadcastStateTransitionHandler
  by_cases h : payload.result.code = some 0
  · simp [h]
  · simp [h]

/-- **The four readers classify the payload alike**: the first two build the same result, and all
take it for a success when its code is absent or zero. -/
structure ConsumersAgree : Prop where
  results : payload.fromQuery = .ok payload.fromEvent
  event : payload.fromEvent.resultClass = .TransactionOkResult ↔ payload.IsSuccess
  request : ∀ path encodedData value prove,
    (∃ buffer, DriveClient.request lib (fun _ _ => ⟨some ⟨payload.result, value⟩, none⟩) path
      encodedData prove = .ok buffer) ↔ payload.IsSuccess
  broadcast : ∀ tx,
    (∃ u, broadcastStateTransitionHandler lib (fun _ _ => ⟨some payload.result, none⟩)
      (some tx) = .ok u) ↔ payload.IsSuccess

/-- **The readers agree exactly when the code is present.** -/
theorem consumers_agree_iff : payload.ConsumersAgree lib ↔ payload.result.code ≠ none := by
  constructor
  · intro h
    exact payload.fromQuery_eq_fromEvent_iff.mp h.results
  · intro hsome
    refine ⟨payload.fromQuery_eq_fromEvent_iff.mpr hsome, payload.fromEvent_resultClass_iff,
      payload.request_ok_iff lib, fun tx => ?_⟩
    rw [payload.broadcast_ok_iff lib tx, IsSuccess]
    exact ⟨Or.inr, fun h => h.resolve_left hsome⟩

/-- Libraries for data objects without contents. -/
def plainLib : DriveErrorLib Unit where
  decode _ := .ok (none, none)
  encode _ := []
  emptyData := ()
  hasNoKeys _ := true
  stack _ := none
  deleteStack _ := ()
  createConsensusError _ _ := .ok ""

/-- On a result without a code the readers disagree, in both pairs. -/
theorem not_consumers_agree_absent :
    ¬ Payload.ConsumersAgree plainLib ⟨⟨none, none⟩, 145, [1]⟩ ∧
      Payload.fromQuery ⟨⟨none, none⟩, 145, [1]⟩ ≠
        .ok (Payload.fromEvent ⟨⟨none, none⟩, 145, [1]⟩) ∧
      broadcastStateTransitionHandler plainLib (fun _ _ => ⟨some ⟨none, none⟩, none⟩)
        (some [1]) =
          .error (.grpc (.internal (some "Drive’s error code is empty") none none)) := by
  refine ⟨fun h => ?_, by decide, by decide⟩
  have hresults := h.results
  revert hresults
  decide

end Payload

end Dapi
