/-
# The handlers of the core service

`src/lib/grpcServer/handlers/core/getBlockHandlerFactory.js`, `getTransactionHandlerFactory.js`
and `broadcastTransactionHandlerFactory.js`, with `src/lib/externalApis/dashcore/rpc.js` and
`src/lib/errors/DashCoreRpcError.js`.

A handler is a `Program` over the requests to Core, `DashCoreRequest`.  What it calls of
dashcore-lib is a `TransactionLib`.

* The values of JSON are `Json`: the commands of the JSON RPC server hand them on as they are.
* A method of `rpc.js` rejects with a `DashCoreRpcError` made of what Core reports.
* `getBlockHandler_obeys`, `getTransactionHandler_obeys`, `broadcastTransactionHandler_obeys`: what
  a handler asks, returns and throws, in terms of its conversation.
-/
import Dapi.PlatformHandlers

namespace Dapi

open Async Program

/-! ## Core -/

/-- A value of JSON. -/
inductive Json
  | null
  | boolean (b : Bool)
  | number (n : ℚ)
  | string (s : String)
  | array (values : List Json)
  | object (properties : List (String × Json))

/-- What Core reports, in the callback of a method. -/
structure NodeError where
  message : String
  code : Option ℤ
  deriving DecidableEq

/-- `class DashCoreRpcError` -/
structure DashCoreRpcError where
  message : String
  code : Option ℤ
  deriving DecidableEq

/-- `new DashCoreRpcError(err.message, null, err.code)`; a code of zero is not kept. -/
def NodeError.toDashCoreRpcError (err : NodeError) : DashCoreRpcError where
  message := err.message
  code := if err.code = some 0 then none else err.code

/-- The methods of `rpc.js` that the handlers and the commands call.  An argument that a command
hands on may be any value, or `undefined`. -/
inductive DashCoreRequest
  | getBestBlockHash
  | getBlockHash (index : Option Json)
  | getRawBlock (blockhash : String)
  | getRawTransaction (txid : String)
  | sendRawTransaction (tx : Buffer)
  | getMnListDiff (baseBlockHash blockHash : Option Json)
  | generateToAddress (blocksNumber address : Option Json)

/-- What the handler reads of a transaction in verbose mode. -/
structure VerboseTransaction where
  hex : Buffer
  blockhash : Option Buffer
  height : Option ℤ
  confirmations : Option ℤ
  instantlock_internal : Option Bool
  chainlock : Option Bool
  deriving DecidableEq

/-- What Core answers a request with, when it does not fail. -/
def DashCoreRequest.Answer : DashCoreRequest → Type
  | .getBestBlockHash | .getBlockHash _ | .sendRawTransaction _ => String
  | .getRawBlock _ => Buffer
  | .getRawTransaction _ => VerboseTransaction
  | .getMnListDiff _ _ | .generateToAddress _ _ => Json

/-- What the handlers and the commands throw. -/
inductive CoreFailure
  | dashCoreRpc (error : DashCoreRpcError)
  | grpc (error : GrpcError)
  | argumentsValidation (message : String)
  | rpc (error : RPCError)
  /-- an exception of dashcore-lib -/
  | library (message : String)
  deriving DecidableEq

namespace CoreFailure

/-- `e.code`, for errors of Core -/
def code : CoreFailure → Option ℤ
  | .dashCoreRpc error => error.code
  | _ => none

/-- `e.message` -/
def message : CoreFailure → String
  | .dashCoreRpc error => error.message
  | .grpc error => error.getMessage
  | .argumentsValidation message | .library message => message
  | .rpc error => error.message

/-- An error of one of the common classes. -/
def common (errorClass : CommonErrorClass) (message : String) : CoreFailure :=
  .grpc (.common errorClass (some message) none)

end CoreFailure

/-- The kind of programs that the handlers are. -/
abbrev coreSignature : Signature where
  Sync := Empty
  SyncAnswer := fun _ => Unit
  Request := DashCoreRequest
  Answer := DashCoreRequest.Answer
  Failure := CoreFailure

/-- A part of a handler. -/
abbrev CoreProgram (α : Type) := Program coreSignature α

namespace DashCore

/-- The hash of the tip. -/
def getBestBlockHash : CoreProgram String := issue (S := coreSignature) .getBestBlockHash

/-- The hash of the block at a height, which is passed on as it was given. -/
def getBlockHash (index : Option Json) : CoreProgram String :=
  issue (S := coreSignature) (.getBlockHash index)

/-- The bytes of a block. -/
def getRawBlock (blockhash : String) : CoreProgram Buffer :=
  issue (S := coreSignature) (.getRawBlock blockhash)

/-- A transaction with what Core knows of it. -/
def getRawTransaction (txid : String) : CoreProgram VerboseTransaction :=
  issue (S := coreSignature) (.getRawTransaction txid)

/-- A transaction is broadcast, and its identifier comes back. -/
def sendRawTransaction (tx : Buffer) : CoreProgram String :=
  issue (S := coreSignature) (.sendRawTransaction tx)

/-- The difference of two lists of masternodes. -/
def getMnListDiff (baseBlockHash blockHash : Option Json) : CoreProgram Json :=
  issue (S := coreSignature) (.getMnListDiff baseBlockHash blockHash)

/-- Blocks are generated for an address. -/
def generateToAddress (blocksNumber address : Option Json) : CoreProgram Json :=
  issue (S := coreSignature) (.generateToAddress blocksNumber address)

end DashCore

/-- The functions of dashcore-lib that the handlers call; `T` is the type of its transactions. -/
structure TransactionLib (T : Type) where
  newTransaction : Buffer → Except String T
  /-- `transaction.verify()`; `none` is `true` -/
  verify : T → Option String
  toBuffer : T → Buffer

/-! ## The handlers -/

/-- `GetBlockRequest`; a hash that is not set is the empty string. -/
structure GetBlockRequest where
  height : ℕ
  hash : String
  deriving DecidableEq

/-- The number that a client sent as a height. -/
def heightArgument (height : ℕ) : Option Json := some (.number height)

/-- What is thrown when there is no hash for the height. -/
def heightFailure (e : CoreFailure) : CoreFailure :=
  -- block height out of range
  if e.code = some (-8) then .common .NotFoundGrpcError "Invalid block height"
  -- not an integer, or out of the range of integers
  else if e.code = some (-1) then .common .InvalidArgumentGrpcError e.message
  else e

/-- The hash of the block: given, or that of the given height. -/
def resolveHash (request : GetBlockRequest) : CoreProgram String :=
  if request.hash = "" then
    (DashCore.getBlockHash (heightArgument request.height)).tryCatch fun e =>
      throw (heightFailure e)
  else pure request.hash

/-- What is thrown when there is no block for the hash, or no transaction for the id. -/
def notFoundFailure (message : String) (e : CoreFailure) : CoreFailure :=
  if e.code = some (-5) then .common .NotFoundGrpcError message else e

/-- The bytes of the block with a hash; a hash that Core does not know is told as not found. -/
def fetchBlock (hash : String) : CoreProgram Buffer :=
  (DashCore.getRawBlock hash).tryCatch fun e => throw (notFoundFailure "Block not found" e)

/-- The handler of `getBlock`: by hash, or by height. -/
def getBlockHandler (request : GetBlockRequest) : CoreProgram Buffer :=
  if request.hash = "" ∧ request.height = 0 then
    throw (.common .InvalidArgumentGrpcError "hash or height is not specified")
  else do
    let hash ← resolveHash request
    fetchBlock hash

/-- `GetTransactionResponse` -/
structure GetTransactionResponse where
  transaction : Buffer
  blockHash : Buffer
  height : Option ℤ
  confirmations : Option ℤ
  isInstantLocked : Option Bool
  isChainLocked : Option Bool
  deriving DecidableEq

section

variable {T : Type} (lib : TransactionLib T)

/-- The handler of `getTransaction`: the answer of Core, with the transaction parsed and written
again. -/
def getTransactionHandler (id : String) : CoreProgram GetTransactionResponse :=
  if id = "" then throw (.common .InvalidArgumentGrpcError "id is not specified")
  else do
    let rawTransaction ← (DashCore.getRawTransaction id).tryCatch fun e =>
      throw (notFoundFailure "Transaction not found" e)
    match lib.newTransaction rawTransaction.hex with
    | .error message => throw (.library message)
    | .ok transaction =>
      let blockHash := rawTransaction.blockhash.getD []
      pure ⟨lib.toBuffer transaction, blockHash, rawTransaction.height,
        rawTransaction.confirmations, rawTransaction.instantlock_internal,
        rawTransaction.chainlock⟩

/-- The error for what Core says to a transaction. -/
def broadcastFailure (e : CoreFailure) : CoreFailure :=
  if e.code = some (-22) ∨ e.code = some (-25) then
    .common .InvalidArgumentGrpcError ("invalid transaction: " ++ e.message)
  else if e.code = some (-26) then
    .common .FailedPreconditionGrpcError ("Transaction is rejected: " ++ e.message)
  else if e.code = some (-27) then
    .common .AlreadyExistsGrpcError ("Transaction already in chain: " ++ e.message)
  else e

/-- The bytes of a request that are a valid transaction, or what is thrown. -/
def checkTransaction (transaction : BytesField) : Except CoreFailure Buffer :=
  match transaction with
  | .null | .unset => .error (.common .InvalidArgumentGrpcError "transaction is not specified")
  | .bytes serializedTransaction =>
    match lib.newTransaction serializedTransaction with
    | .error message =>
      .error (.common .InvalidArgumentGrpcError ("invalid transaction: " ++ message))
    | .ok transactionInstance =>
      match lib.verify transactionInstance with
      | some transactionIsValid =>
        .error (.common .InvalidArgumentGrpcError ("invalid transaction: " ++ transactionIsValid))
      | none => .ok serializedTransaction

/-- What is accepted is a valid transaction. -/
theorem checkTransaction_eq_ok {lib : TransactionLib T} {transaction : BytesField} {tx : Buffer}
    (h : checkTransaction lib transaction = .ok tx) :
    transaction = .bytes tx ∧ ∃ transactionInstance,
      lib.newTransaction tx = .ok transactionInstance ∧ lib.verify transactionInstance = none := by
  cases transaction with
  | bytes serializedTransaction =>
      simp only [checkTransaction] at h
      split at h
      · cases h
      · rename_i transactionInstance htransaction
        split at h
        · cases h
        · rename_i hvalid
          cases h
          exact ⟨rfl, transactionInstance, htransaction, hvalid⟩
  | _ => cases h

/-- What is not accepted is an invalid argument. -/
theorem checkTransaction_eq_error {lib : TransactionLib T} {transaction : BytesField}
    {e : CoreFailure} (h : checkTransaction lib transaction = .error e) :
    ∃ message, e = .common .InvalidArgumentGrpcError message := by
  unfold checkTransaction at h
  split at h
  · exact ⟨_, (Except.error.inj h).symm⟩
  · exact ⟨_, (Except.error.inj h).symm⟩
  · split at h
    · exact ⟨_, (Except.error.inj h).symm⟩
    · split at h
      · exact ⟨_, (Except.error.inj h).symm⟩
      · cases h

/-- The handler of `broadcastTransaction`: only a transaction that passes the checks is sent. -/
def broadcastTransactionHandler (transaction : BytesField) : CoreProgram String := do
  let serializedTransaction ← Program.ofExcept (checkTransaction lib transaction)
  (DashCore.sendRawTransaction serializedTransaction).tryCatch fun e => throw (broadcastFailure e)

end

/-! ### What the errors tell -/

section

variable {error : DashCoreRpcError} {message text : String}

/-- A height is not found when Core says that it is out of range. -/
theorem heightFailure_eq_notFound
    (h : heightFailure (.dashCoreRpc error) = .common .NotFoundGrpcError message) :
    error.code = some (-8) ∧ message = "Invalid block height" := by
  unfold heightFailure at h
  split_ifs at h with hrange hinteger
  · cases h
    exact ⟨hrange, rfl⟩
  · cases h
  · cases h

/-- A hash is not found when Core does not know it. -/
theorem notFoundFailure_eq_notFound
    (h : notFoundFailure text (.dashCoreRpc error) = .common .NotFoundGrpcError message) :
    error.code = some (-5) ∧ message = text := by
  unfold notFoundFailure at h
  split_ifs at h with hcode
  · cases h
    exact ⟨hcode, rfl⟩
  · cases h

/-- The transaction is there already, says Core. -/
theorem broadcastFailure_eq_alreadyExists
    (h : broadcastFailure (.dashCoreRpc error) = .common .AlreadyExistsGrpcError message) :
    error.code = some (-27) ∧ message = "Transaction already in chain: " ++ error.message := by
  unfold broadcastFailure at h
  split_ifs at h with hinvalid hrejected hchain
  · cases h
  · cases h
  · cases h
    exact ⟨hchain, rfl⟩
  · cases h

end

/-! ## What they ask, return and throw -/

/-- What was asked of Core, with the answers. -/
abbrev CoreConversation := List (Exchange coreSignature)

namespace GetBlock

variable (request : GetBlockRequest)

/-- The hash that the handler has, after a conversation. -/
inductive HasHash : CoreConversation → String → Prop
  | given (h : request.hash ≠ "") : HasHash [] request.hash
  | atHeight (h : request.hash = "") (hash : String) :
    HasHash [⟨.getBlockHash (heightArgument request.height), .ok hash⟩] hash

/-- What the handler asks after a conversation. -/
inductive MayAsk : CoreConversation → DashCoreRequest → Prop
  | hash (h : request.hash = "") (hheight : request.height ≠ 0) :
    MayAsk [] (.getBlockHash (heightArgument request.height))
  | block {c : CoreConversation} {hash : String} (h : HasHash request c hash) :
    MayAsk c (.getRawBlock hash)

/-- The block is the one with the hash. -/
inductive Returns : Buffer → CoreConversation → Prop
  | block {c : CoreConversation} {hash : String} (h : HasHash request c hash) (block : Buffer) :
    Returns block (c ++ [⟨.getRawBlock hash, .ok block⟩])

/-- Nothing was specified, or there is no hash, or no block. -/
inductive Fails : CoreFailure → CoreConversation → Prop
  | unspecified : Fails (.common .InvalidArgumentGrpcError "hash or height is not specified") []
  | hash (h : request.hash = "") (e : CoreFailure) :
    Fails (heightFailure e) [⟨.getBlockHash (heightArgument request.height), .error e⟩]
  | block {c : CoreConversation} {hash : String} (h : HasHash request c hash) (e : CoreFailure) :
    Fails (notFoundFailure "Block not found" e) (c ++ [⟨.getRawBlock hash, .error e⟩])

end GetBlock

/-- What `getBlock` asks, returns and throws. -/
theorem getBlockHandler_obeys (request : GetBlockRequest) :
    (getBlockHandler request).Obeys (Protocol.remembering (GetBlock.MayAsk request))
      (GetBlock.Returns request) (GetBlock.Fails request) [] := by
  unfold getBlockHandler
  have hfetch : ∀ c hash, GetBlock.HasHash request c hash →
      (fetchBlock hash).Obeys (Protocol.remembering (GetBlock.MayAsk request))
        (GetBlock.Returns request) (GetBlock.Fails request) c :=
    fun c hash h => obeys_issue_throw (.block h) (fun block => .block h block) fun e => .block h e
  split_ifs with hunspecified
  · exact .unspecified
  · refine obeys_bind ?_
    unfold resolveHash
    split_ifs with hhash
    · have hheight : request.height ≠ 0 := fun hheight => hunspecified ⟨hhash, hheight⟩
      exact obeys_issue_throw (.hash hhash hheight)
        (fun hash => hfetch _ hash (.atHeight hhash hash)) fun e => .hash hhash e
    · exact hfetch [] request.hash (.given hhash)

section

variable {T : Type} (lib : TransactionLib T)

namespace GetTransaction

variable (id : String)

/-- Core is asked for the transaction, once. -/
inductive MayAsk : CoreConversation → DashCoreRequest → Prop
  | transaction (h : id ≠ "") : MayAsk [] (.getRawTransaction id)

/-- The response is made of one answer. -/
inductive Returns : GetTransactionResponse → CoreConversation → Prop
  | transaction (rawTransaction : VerboseTransaction) (transaction : T)
    (h : lib.newTransaction rawTransaction.hex = .ok transaction) :
    Returns ⟨lib.toBuffer transaction, rawTransaction.blockhash.getD [], rawTransaction.height,
        rawTransaction.confirmations, rawTransaction.instantlock_internal,
        rawTransaction.chainlock⟩
      [⟨.getRawTransaction id, .ok rawTransaction⟩]

/-- It fails without an identifier, with the library, or because Core has failed. -/
inductive Fails : CoreFailure → CoreConversation → Prop
  | unspecified : Fails (.common .InvalidArgumentGrpcError "id is not specified") []
  | library (rawTransaction : VerboseTransaction) (message : String)
    (h : lib.newTransaction rawTransaction.hex = .error message) :
    Fails (.library message) [⟨.getRawTransaction id, .ok rawTransaction⟩]
  | transaction (e : CoreFailure) : Fails (notFoundFailure "Transaction not found" e)
      [⟨.getRawTransaction id, .error e⟩]

end GetTransaction

/-- What `getTransaction` asks, returns and throws. -/
theorem getTransactionHandler_obeys (id : String) :
    (getTransactionHandler lib id).Obeys (Protocol.remembering (GetTransaction.MayAsk id))
      (GetTransaction.Returns lib id) (GetTransaction.Fails lib id) [] := by
  unfold getTransactionHandler
  split_ifs with hid
  · exact .unspecified
  · refine obeys_bind (obeys_issue_throw (.transaction hid) (fun rawTransaction => ?_) fun e =>
      .transaction e)
    cases htransaction : lib.newTransaction rawTransaction.hex with
    | error message => exact .library rawTransaction message htransaction
    | ok transaction => exact .transaction rawTransaction transaction htransaction

namespace BroadcastTransaction

variable (transaction : BytesField)

/-- Core is sent the bytes that pass the checks, once. -/
inductive MayAsk : CoreConversation → DashCoreRequest → Prop
  | send (tx : Buffer) (h : checkTransaction lib transaction = .ok tx) :
    MayAsk [] (.sendRawTransaction tx)

/-- The identifier is the one that Core has answered. -/
inductive Returns : String → CoreConversation → Prop
  | sent (tx : Buffer) (h : checkTransaction lib transaction = .ok tx) (transactionId : String) :
    Returns transactionId [⟨.sendRawTransaction tx, .ok transactionId⟩]

/-- It fails in the checks, and then Core was sent nothing, or because Core has failed. -/
inductive Fails : CoreFailure → CoreConversation → Prop
  | invalid (e : CoreFailure) (h : checkTransaction lib transaction = .error e) : Fails e []
  | sent (tx : Buffer) (h : checkTransaction lib transaction = .ok tx) (e : CoreFailure) :
    Fails (broadcastFailure e) [⟨.sendRawTransaction tx, .error e⟩]

end BroadcastTransaction

/-- What `broadcastTransaction` asks, returns and throws. -/
theorem broadcastTransactionHandler_obeys (transaction : BytesField) :
    (broadcastTransactionHandler lib transaction).Obeys
      (Protocol.remembering (BroadcastTransaction.MayAsk lib transaction))
      (BroadcastTransaction.Returns lib transaction) (BroadcastTransaction.Fails lib transaction)
      [] := by
  refine obeys_bind (obeys_ofExcept (fun tx htx => ?_) fun e he => .invalid e he)
  exact obeys_issue_throw (.send tx htx) (fun transactionId => .sent tx htx transactionId) fun e =>
    .sent tx htx e

end

end Dapi
