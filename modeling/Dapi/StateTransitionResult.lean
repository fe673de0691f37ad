/-
# The result of a state transition

What one call of `waitForStateTransitionResultHandler`
(`src/lib/grpcServer/handlers/platform/waitForStateTransitionResultHandlerFactory.js`) asks and
answers, whatever it is answered.  `Dapi.ResultService` puts all its calls together.

* `TransitionKind` is what a state transition is about; its proof is asked for, read and handed out
  under one of three names.
* `mayAsk`: what the handler asks after what.
* `AnswersResult`, `RespondsToResult`, `FailsToRespond`: what it answers after which conversation.
* `resultHandler_obeys`: the handler keeps to all of it.
-/
import Dapi.PlatformHandlers
import Dapi.ReturnedResults

namespace Dapi

open Async Program

/-! ## The kinds of state transitions -/

/-- What a state transition is about. -/
inductive TransitionKind
  | document
  | identity
  | dataContract
  deriving DecidableEq

/-- The kind that the handler goes by. -/
def StateTransition.kind (stateTransition : StateTransition) : Option TransitionKind :=
  if stateTransition.isDocumentStateTransition then some .document
  else if stateTransition.isIdentityStateTransition then some .identity
  else if stateTransition.isDataContractStateTransition then some .dataContract
  else none

namespace TransitionKind

/-- The data of a request for the proof of a kind. -/
def data {V : Type} (ids : List Buffer) : TransitionKind → DriveData V
  | document => .proofs (some ids) none none
  | identity => .proofs none (some ids) none
  | dataContract => .proofs none none (some ids)

/-- The proof of a kind. -/
def proof (proofs : ProofsResponse) : TransitionKind → Option DriveProof
  | document => proofs.documentsProof
  | identity => proofs.identitiesProof
  | dataContract => proofs.dataContractsProof

/-- The proof of a kind, in the response. -/
def storeTreeProofs (storeTreeProof : Buffer) : TransitionKind → StoreTreeProofs
  | document => ⟨some storeTreeProof, none, none⟩
  | identity => ⟨none, some storeTreeProof, none⟩
  | dataContract => ⟨none, none, some storeTreeProof⟩

end TransitionKind

/-- The proof is put under the kind of the state transition. -/
theorem createStoreTreeProofs_eq {stateTransition : StateTransition} {kind : TransitionKind}
    (h : stateTransition.kind = some kind) (storeTreeProof : Buffer) :
    createStoreTreeProofs stateTransition storeTreeProof = kind.storeTreeProofs storeTreeProof := by
  unfold StateTransition.kind at h
  unfold createStoreTreeProofs
  split_ifs at h ⊢
  · cases h
    rfl
  · cases h
    rfl
  · cases h
    rfl

/-! ## One handler -/

/-- The hash string of a request. -/
def ResultRequest.hashString (request : ResultRequest) : Option String :=
  request.stateTransitionHash.map Buffer.toUpperHex

/-- The request is answered by the service, not from outside. -/
def PlatformRequest.IsWait : PlatformRequest → Prop
  | .waitForTransactionToBeProvable _ _ => True
  | .abciQuery _ | .consensusParams _ | .createStateTransition _ => False

/-- A conversation with what the handlers wait for. -/
abbrev PlatformConversation := List (Exchange platformSignature)

/-- The wait of a handler, with its answer. -/
def waitExchange (hashString : String) (answer : Except PlatformFailure TransactionResult) :
    Exchange platformSignature :=
  ⟨.waitForTransactionToBeProvable hashString stateTransitionWaitTimeout, answer⟩

section

variable {D V R C : Type} (lib : PlatformLib D V R C)

/-- The query for the proof of a state transition. -/
def proofQuery (kind : TransitionKind) (stateTransition : StateTransition) : AbciQuery :=
  ⟨"/proofs", lib.encodeData (kind.data stateTransition.modifiedDataIds), false⟩

/-- What a handler may ask, after what. -/
def mayAsk (request : ResultRequest) (c : PlatformConversation) : PlatformRequest → Prop
  | .waitForTransactionToBeProvable hashString timeout =>
    c = [] ∧ request.hashString = some hashString ∧ timeout = stateTransitionWaitTimeout
  | .createStateTransition transaction =>
    request.prove = true ∧ ∃ hashString result, request.hashString = some hashString ∧
      c = [waitExchange hashString (.ok result)] ∧
        result.resultClass = .TransactionOkResult ∧ transaction = result.transaction
  | .abciQuery query =>
    request.prove = true ∧ ∃ hashString result stateTransition kind,
      request.hashString = some hashString ∧ c = [waitExchange hashString (.ok result),
          ⟨.createStateTransition result.transaction, .ok stateTransition⟩] ∧
        result.resultClass = .TransactionOkResult ∧ stateTransition.kind = some kind ∧
          query = proofQuery lib kind stateTransition
  | .consensusParams _ => False

/-- **A proof for a transaction**: Drive was asked for what the state transition in the bytes of
the transaction is about, and the proof is in its response under the kind that it has there. -/
def IsProofOf (c : PlatformConversation) (transaction : Buffer) (metadata : DriveMetadata)
    (proof : ResultProof) : Prop :=
  ∃ stateTransition kind response value proofs proofObject,
    c = [⟨.createStateTransition transaction, .ok stateTransition⟩,
        ⟨.abciQuery (proofQuery lib kind stateTransition), .ok response⟩] ∧
      stateTransition.kind = some kind ∧
        DriveClient.request lib.driveErrorLib (fun _ _ => response) "/proofs"
          (lib.encodeData (kind.data stateTransition.modifiedDataIds)) false = .ok value ∧
          lib.decodeProofs value = .ok proofs ∧ proofs.metadata = some metadata ∧
            kind.proof proofs = some proofObject ∧
              proof = ⟨proofObject.rootTreeProof, kind.storeTreeProofs proofObject.storeTreeProof,
                proofObject.signatureLlmqHash, proofObject.signature⟩

/-- The response fits the result, and what was asked after the wait. -/
def AnswersResult (request : ResultRequest) (result : TransactionResult)
    (response : WaitForStateTransitionResultResponse) (c : PlatformConversation) : Prop :=
  match result.resultClass with
  | .TransactionErrorResult =>
    c = [] ∧ ∃ deliverResult error, result.deliverResult = some deliverResult ∧
      createStateTransitionDeliverError lib deliverResult = .ok error ∧
        response = ⟨some error, none, none⟩
  | .TransactionOkResult =>
    if request.prove then
      ∃ metadata proof, response = ⟨none, some metadata, some proof⟩ ∧
        IsProofOf lib c result.transaction metadata proof
    else c = [] ∧ response = ⟨none, none, none⟩

/-- The wait was answered with a result, which the response fits. -/
def RespondsToResult (request : ResultRequest) (response : WaitForStateTransitionResultResponse)
    (c : PlatformConversation) : Prop :=
  ∃ hashString result c', request.hashString = some hashString ∧
    c = waitExchange hashString (.ok result) :: c' ∧ AnswersResult lib request result response c'

/-- What the handler makes of a failed wait. -/
def translateWaitFailure : PlatformFailure → PlatformFailure
  | .transactionWaitPeriodExceeded hash =>
    .deadlineExceeded ("Waiting period for state transition " ++ hash ++ " exceeded") hash
  | e => e

/-- The handler fails without a hash, with its wait, or later. -/
def FailsToRespond (request : ResultRequest) (e : PlatformFailure) (c : PlatformConversation) :
    Prop :=
  (request.hashString = none ∧ c = [] ∧
      e = .invalidArgument "state transition hash is not specified") ∨
    (∃ hashString failure, request.hashString = some hashString ∧
      c = [waitExchange hashString (.error failure)] ∧ e = translateWaitFailure failure) ∨
      ∃ hashString result c', request.hashString = some hashString ∧
        c = waitExchange hashString (.ok result) :: c' ∧
          ((∃ failure, e = .request failure) ∨
            ∃ r : PlatformRequest, ¬ r.IsWait ∧ (⟨r, .error e⟩ : Exchange platformSignature) ∈ c')

/-- The rules that a handler keeps to. -/
abbrev resultProtocol (request : ResultRequest) :
    Protocol platformSignature PlatformConversation :=
  Protocol.remembering (mayAsk lib request)

variable {lib} {request : ResultRequest} {hashString : String} {result : TransactionResult}

/-- The three ways to answer. -/
theorem AnswersResult.cases {response : WaitForStateTransitionResultResponse}
    {c : PlatformConversation} (h : AnswersResult lib request result response c) :
    (result.resultClass = .TransactionErrorResult ∧ ∃ deliverResult error,
        result.deliverResult = some deliverResult ∧
          createStateTransitionDeliverError lib deliverResult = .ok error ∧
            response = ⟨some error, none, none⟩) ∨
      (result.resultClass = .TransactionOkResult ∧ request.prove = false ∧
        response = ⟨none, none, none⟩) ∨
      (result.resultClass = .TransactionOkResult ∧ request.prove = true ∧
        ∃ metadata proof, response = ⟨none, some metadata, some proof⟩ ∧
          IsProofOf lib c result.transaction metadata proof) := by
  unfold AnswersResult at h
  split at h
  · rename_i hclass
    exact Or.inl ⟨hclass, h.2⟩
  · rename_i hclass
    split_ifs at h with hprove
    · exact Or.inr (Or.inr ⟨hclass, hprove, h⟩)
    · exact Or.inr (Or.inl ⟨hclass, by simpa using hprove, h.2⟩)

/-- The error has the code of the result. -/
theorem createStateTransitionDeliverError_code {deliverResult : AbciResult}
    {error : StateTransitionBroadcastError}
    (h : createStateTransitionDeliverError lib deliverResult = .ok error) :
    error.code = deliverResult.code := by
  unfold createStateTransitionDeliverError at h
  split at h
  · cases h
    rfl
  · cases h

/-- A failure after the wait. -/
theorem fails_of_request (hhash : request.hashString = some hashString)
    (c' : PlatformConversation) (failure : RequestFailure) :
    FailsToRespond request (.request failure) (waitExchange hashString (.ok result) :: c') :=
  Or.inr (Or.inr ⟨hashString, result, c', hhash, rfl, Or.inl ⟨failure, rfl⟩⟩)

/-- A request after the wait may fail. -/
theorem fails_of_exchange (hhash : request.hashString = some hashString)
    (c' : PlatformConversation) {r : PlatformRequest} (hr : ¬ r.IsWait) (e : PlatformFailure) :
    FailsToRespond request e (waitExchange hashString (.ok result) :: c' ++ [⟨r, .error e⟩]) :=
  Or.inr (Or.inr ⟨hashString, result, c' ++ [⟨r, .error e⟩], hhash, rfl,
    Or.inr ⟨r, hr, List.mem_append_right c' List.mem_cons_self⟩⟩)

/-- **The proof of a kind** is asked for, and read. -/
theorem fetchProofs_obeys (hhash : request.hashString = some hashString)
    (hprove : request.prove = true) (hok : result.resultClass = .TransactionOkResult)
    {stateTransition : StateTransition} {kind : TransitionKind}
    (hkind : stateTransition.kind = some kind) :
    (fetchProofForStateTransition lib stateTransition).Obeys (resultProtocol lib request)
      (fun proof c => ∃ response value proofs,
        c = [waitExchange hashString (.ok result),
          ⟨.createStateTransition result.transaction, .ok stateTransition⟩,
          ⟨.abciQuery (proofQuery lib kind stateTransition), .ok response⟩] ∧
        DriveClient.request lib.driveErrorLib (fun _ _ => response) "/proofs"
          (lib.encodeData (kind.data stateTransition.modifiedDataIds)) false = .ok value ∧
          lib.decodeProofs value = .ok proofs ∧ proof = (kind.proof proofs, proofs.metadata))
      (FailsToRespond request)
      [waitExchange hashString (.ok result),
        ⟨.createStateTransition result.transaction, .ok stateTransition⟩] := by
  -- the three branches are one program
  have heq : fetchProofForStateTransition lib stateTransition =
      (Drive.request lib "/proofs" (kind.data stateTransition.modifiedDataIds) false).bind
        fun responseBuffer => (Platform.ofLibrary (lib.decodeProofs responseBuffer)).bind
          fun proofs => .done (kind.proof proofs, proofs.metadata) := by
    unfold StateTransition.kind at hkind
    unfold fetchProofForStateTransition
    split_ifs at hkind ⊢
    · cases hkind
      exact bind_bind _ _ _
    · cases hkind
      exact bind_bind _ _ _
    · cases hkind
      exact bind_bind _ _ _
  rw [heq]
  refine obeys_bind (obeys_bind (obeys_issue ?_ (fun response => ?_) fun e => ?_))
  · exact ⟨hprove, hashString, result, stateTransition, kind, hhash, rfl, hok, hkind, rfl⟩
  · refine Platform.obeys_ofRequest (fun value hvalue => ?_) fun failure _ => ?_
    · refine obeys_bind (Platform.obeys_ofLibrary (fun proofs hproofs => ?_) fun message => ?_)
      · exact ⟨response, value, proofs, rfl, hvalue, hproofs, rfl⟩
      · exact fails_of_request hhash _ _
    · exact fails_of_request hhash _ failure
  · exact fails_of_exchange hhash _ id e

/-- **A handler that proves** asks for the state transition and its proof. -/
theorem proveTransaction_obeys (hhash : request.hashString = some hashString)
    (hprove : request.prove = true) (hok : result.resultClass = .TransactionOkResult) :
    (proveTransaction lib result.transaction).Obeys (resultProtocol lib request)
      (RespondsToResult lib request) (FailsToRespond request)
      [waitExchange hashString (.ok result)] := by
  refine obeys_bind (obeys_issue ?_ (fun stateTransition => ?_) fun e => ?_)
  · exact ⟨hprove, hashString, result, hhash, rfl, hok, rfl⟩
  · cases hkind : stateTransition.kind with
    | none =>
        -- there are no metadata to read
        have heq : fetchProofForStateTransition lib stateTransition = .done (none, none) := by
          unfold StateTransition.kind at hkind
          unfold fetchProofForStateTransition
          split_ifs at hkind ⊢
          rfl
        rw [heq]
        exact fails_of_request hhash _ _
    | some kind =>
        refine obeys_bind ((fetchProofs_obeys hhash hprove hok hkind).mono ?_ fun _ _ he => he)
        rintro ⟨proof, metadata⟩ c ⟨response, value, proofs, rfl, hvalue, hproofs, heq⟩
        obtain ⟨rfl, rfl⟩ := Prod.mk.inj heq
        refine obeys_bind (Platform.obeys_ofDefined (fun metadata hmetadata => ?_)
          (fails_of_request hhash _ _))
        refine obeys_bind (Platform.obeys_ofDefined (fun proofObject hproof => ?_)
          (fails_of_request hhash _ _))
        refine ⟨hashString, result, _, hhash, rfl, ?_⟩
        unfold AnswersResult
        rw [hok]
        simp only [hprove, if_true]
        refine ⟨metadata, _, rfl, stateTransition, kind, response, value, proofs, proofObject, rfl,
          hkind, hvalue, hproofs, hmetadata, hproof, ?_⟩
        rw [createStoreTreeProofs_eq hkind]
  · exact fails_of_exchange hhash _ id e

/-- **What a handler asks and answers**, whatever it is answered. -/
theorem resultHandler_obeys (request : ResultRequest) :
    (waitForStateTransitionResultHandler lib request).Obeys (resultProtocol lib request)
      (RespondsToResult lib request) (FailsToRespond request) [] := by
  unfold waitForStateTransitionResultHandler
  cases hash : request.stateTransitionHash with
  | none =>
      refine Or.inl ⟨?_, rfl, rfl⟩
      rw [ResultRequest.hashString, hash]
      rfl
  | some stateTransitionHash =>
      have hhash : request.hashString = some stateTransitionHash.toUpperHex := by
        rw [ResultRequest.hashString, hash]
        rfl
      refine obeys_bind (obeys_tryCatch (obeys_issue ⟨rfl, hhash, rfl⟩
        (fun result => ?_) fun e => ?_))
      · show (respondToResult lib request.prove result).Obeys _ _ _ _
        unfold respondToResult
        cases hclass : result.resultClass with
        | TransactionErrorResult =>
            refine obeys_bind (Platform.obeys_ofDefined (fun deliverResult hdeliver => ?_)
              (fails_of_request hhash [] _))
            refine obeys_bind (Platform.obeys_ofRequest (fun error herror => ?_) fun failure _ =>
              fails_of_request hhash [] failure)
            refine ⟨_, result, [], hhash, rfl, ?_⟩
            unfold AnswersResult
            rw [hclass]
            exact ⟨rfl, deliverResult, error, hdeliver, herror, rfl⟩
        | TransactionOkResult =>
            simp only
            split_ifs with hprove
            · exact proveTransaction_obeys hhash hprove hclass
            · refine ⟨_, result, [], hhash, rfl, ?_⟩
              unfold AnswersResult
              rw [hclass]
              rw [if_neg hprove]
              exact ⟨rfl, rfl⟩
      · cases e with
        | _ => exact Or.inr (Or.inl ⟨_, _, hhash, rfl, rfl⟩)

end

end Dapi
