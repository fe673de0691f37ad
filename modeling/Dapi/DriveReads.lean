/-
# Reads from Drive

The five handlers of `PlatformHandlers` that read from Drive are one abstract thing, a
`DriveRead`: one query, and the message that its answer is read as.

* `handle_eq_perform`: every handler is the read of its request.
* `read_ok_iff`: what it returns, and that it asks at most once.
* `read_failure_told`: an error of Drive is told as it is.
* `fetchDataContract_eq`: the state repository reads contracts as the handler does.
* `consensusParams_ok_iff`, `consensusParams_failure_told`: the same of the consensus parameters,
  which are read from Tenderdash.
-/
import Dapi.PlatformHandlers

namespace Dapi

open Async Program

section

variable {D V R C : Type} (lib : PlatformLib D V R C)

/-- The requests of the handlers that read. -/
inductive ReadRequest
  | getIdentity (request : IdRequest)
  | getDataContract (request : IdRequest)
  | getDocuments (request : GetDocumentsRequest)
  | getIdentitiesByPublicKeyHashes (request : PublicKeyHashesRequest)
  | getIdentityIdsByPublicKeyHashes (request : PublicKeyHashesRequest)

/-- The handler of a request. -/
def ReadRequest.handle : ReadRequest → PlatformProgram R
  | .getIdentity request => getIdentityHandler lib request
  | .getDataContract request => getDataContractHandler lib request
  | .getDocuments request => getDocumentsHandler lib request
  | .getIdentitiesByPublicKeyHashes request => getIdentitiesByPublicKeyHashesHandler lib request
  | .getIdentityIdsByPublicKeyHashes request => getIdentityIdsByPublicKeyHashesHandler lib request

/-! ## The abstract read -/

/-- **A read**: its query, or why there is none, and the message that is read. -/
structure DriveRead where
  query : Except PlatformFailure AbciQuery
  responseClass : ResponseClass

/-- The bytes in a response of Drive. -/
def driveValue (response : RpcResponse AbciQueryResponse) : Except RequestFailure Buffer :=
  match response.error, response.result with
  | some error, _ => .error (.rpc error.toRPCError)
  | none, none => .error .typeError
  | none, some response =>
    if response.code = none ∨ response.code = some 0 then .ok response.value
    else .error (driveFailure lib.driveErrorLib response.toAbciResult)

namespace DriveRead

/-- What is made of the answer to the query. -/
def respond (read : DriveRead) (answer : Except PlatformFailure (RpcResponse AbciQueryResponse)) :
    Except PlatformFailure R :=
  match answer with
  | .error failure => .error failure
  | .ok response =>
    match driveValue lib response with
    | .error failure => .error (.request failure)
    | .ok buffer =>
      match lib.deserializeBinary read.responseClass buffer with
      | .error message => .error (.request (.library message))
      | .ok message => .ok message

/-- A read asks once, when it asks at all. -/
def perform (read : DriveRead) : PlatformProgram R :=
  match read.query with
  | .error failure => throw failure
  | .ok query => await (S := platformSignature) (.abciQuery query) fun answer =>
      ofExcept (read.respond lib answer)

end DriveRead

/-- An option of `getDocuments`, decoded. -/
def readOption (field : BytesField) : Except PlatformFailure (Option V) :=
  match field.nonEmpty? with
  | some bytes => ((lib.decodeOption bytes).map some).mapError fun message =>
      .request (.library message)
  | none => .ok none

/-- The query of a request for documents. -/
def documentsQuery (request : GetDocumentsRequest) : Except PlatformFailure AbciQuery :=
  if request.dataContractId.isFalsy then .error (.invalidArgument "dataContractId is not specified")
  else if request.documentType = "" then
    .error (.invalidArgument "documentType is not specified")
  else do
    let where_ ← readOption lib request.where_
    let orderBy ← readOption lib request.orderBy
    .ok ⟨"/dataContracts/documents", lib.encodeData (.documents
      ⟨where_, orderBy, request.limit.notDefault, request.startAfter.notDefault,
        request.startAt.truthy⟩ request.dataContractId request.documentType), request.prove⟩

/-- The query of a request with public key hashes. -/
def publicKeyHashesQuery (path : String) (request : PublicKeyHashesRequest) :
    Except PlatformFailure AbciQuery :=
  if request.publicKeyHashes = [] then
    .error (.invalidArgument "No public key hashes were provided")
  else .ok ⟨path, lib.encodeData (.publicKeyHashes request.publicKeyHashes), request.prove⟩

/-- The read of a request. -/
def ReadRequest.read : ReadRequest → DriveRead
  | .getIdentity request =>
    ⟨if request.id.isFalsy then .error (.invalidArgument "id is not specified")
      else .ok ⟨"/identities", lib.encodeData (.id request.id), request.prove⟩,
      .GetIdentityResponse⟩
  | .getDataContract request =>
    ⟨if request.id = .null then .error (.invalidArgument "id is not specified")
      else .ok ⟨"/dataContracts", lib.encodeData (.id request.id), request.prove⟩,
      .GetDataContractResponse⟩
  | .getDocuments request => ⟨documentsQuery lib request, .GetDocumentsResponse⟩
  | .getIdentitiesByPublicKeyHashes request =>
    ⟨publicKeyHashesQuery lib "/identities/by-public-key-hash" request,
      .GetIdentitiesByPublicKeyHashesResponse⟩
  | .getIdentityIdsByPublicKeyHashes request =>
    ⟨publicKeyHashesQuery lib "/identities/by-public-key-hash/id" request,
      .GetIdentityIdsByPublicKeyHashesResponse⟩

end

/-! ## Every handler is a read -/

section

variable {D V R C : Type} {lib : PlatformLib D V R C}

/-- The request to Drive and the reading of its response are a read. -/
theorem request_bind_eq (path : String) (data : DriveData V) (prove : Bool)
    (responseClass : ResponseClass) :
    ((Drive.request lib path data prove).bind fun buffer =>
      Platform.ofLibrary (lib.deserializeBinary responseClass buffer)) =
        DriveRead.perform lib ⟨.ok ⟨path, lib.encodeData data, prove⟩, responseClass⟩ := by
  refine congrArg (await (S := platformSignature) _) (funext fun answer => ?_)
  cases answer with
  | error failure => rfl
  | ok response =>
      show ((Platform.ofRequest (driveValue lib response)).bind _) = _
      unfold DriveRead.respond
      cases hvalue : driveValue lib response with
      | error failure =>
          simp only [hvalue]
          rfl
      | ok buffer =>
          simp only [hvalue]
          show Platform.ofLibrary (lib.deserializeBinary responseClass buffer) = _
          cases lib.deserializeBinary responseClass buffer <;> rfl

/-- The options are decoded as a program decodes them. -/
theorem decodeOption_eq (field : BytesField) :
    decodeOption lib field = Program.ofExcept (readOption lib field) := by
  unfold decodeOption readOption
  cases field.nonEmpty? with
  | none => rfl
  | some bytes =>
      simp only [bind_eq]
      cases lib.decodeOption bytes <;> rfl

/-- **Every handler is the read of its request.** -/
theorem handle_eq_perform (r : ReadRequest) : r.handle lib = (r.read lib).perform lib := by
  cases r with
  | getIdentity request =>
      simp only [ReadRequest.handle, ReadRequest.read, getIdentityHandler]
      split_ifs with hid
      · rfl
      · exact request_bind_eq _ _ _ _
  | getDataContract request =>
      simp only [ReadRequest.handle, ReadRequest.read, getDataContractHandler]
      split_ifs with hid
      · rfl
      · exact request_bind_eq _ _ _ _
  | getDocuments request =>
      simp only [ReadRequest.handle, ReadRequest.read, getDocumentsHandler, documentsQuery]
      split_ifs with hid htype
      · rfl
      · rfl
      · rw [decodeOption_eq, decodeOption_eq]
        cases readOption lib request.where_ with
        | error failure => rfl
        | ok where_ =>
            cases readOption lib request.orderBy with
            | error failure => rfl
            | ok orderBy => exact request_bind_eq _ _ _ _
  | getIdentitiesByPublicKeyHashes request =>
      simp only [ReadRequest.handle, ReadRequest.read, getIdentitiesByPublicKeyHashesHandler,
        publicKeyHashesHandler, publicKeyHashesQuery]
      split_ifs with hhashes
      · rfl
      · exact request_bind_eq _ _ _ _
  | getIdentityIdsByPublicKeyHashes request =>
      simp only [ReadRequest.handle, ReadRequest.read, getIdentityIdsByPublicKeyHashesHandler,
        publicKeyHashesHandler, publicKeyHashesQuery]
      split_ifs with hhashes
      · rfl
      · exact request_bind_eq _ _ _ _

/-! ## What a read answers -/

/-- The outcome of a request and the log of what its handler asked, for the answers of Drive. -/
def ReadRequest.eval (r : ReadRequest) (lib : PlatformLib D V R C)
    (answer : (q : PlatformRequest) → Except PlatformFailure q.Answer) :
    Except PlatformFailure R × List (Program.Event platformSignature) :=
  (r.handle lib).eval (fun op => Empty.elim op) answer

variable {r : ReadRequest} {answer : (q : PlatformRequest) → Except PlatformFailure q.Answer}

/-- A request without a query asks nothing. -/
theorem eval_of_error {failure : PlatformFailure} (h : (r.read lib).query = .error failure) :
    r.eval lib answer = (.error failure, []) := by
  unfold ReadRequest.eval
  rw [handle_eq_perform, DriveRead.perform, h]
  rfl

/-- A request with a query asks it, and reads the answer. -/
theorem eval_of_query {query : AbciQuery} (h : (r.read lib).query = .ok query) :
    r.eval lib answer =
      ((r.read lib).respond lib (answer (.abciQuery query)), [.await (.abciQuery query)]) := by
  unfold ReadRequest.eval
  rw [handle_eq_perform, DriveRead.perform, h]
  exact congrArg (fun x : _ × List (Event platformSignature) => (x.1, _ :: x.2))
    (eval_ofExcept _ _ ((r.read lib).respond lib (answer (.abciQuery query))))

/-- Bytes are read from a response without an error, in either sense. -/
theorem driveValue_ok_iff {response : RpcResponse AbciQueryResponse} {buffer : Buffer} :
    driveValue lib response = .ok buffer ↔ ∃ result, response = ⟨some result, none⟩ ∧
      (result.code = none ∨ result.code = some 0) ∧ result.value = buffer := by
  obtain ⟨result, error⟩ := response
  cases error with
  | some error => simp [driveValue]
  | none =>
      cases result with
      | none => simp [driveValue]
      | some result =>
          by_cases hcode : result.code = none ∨ result.code = some 0
          · simp [driveValue, hcode]
          · simp [driveValue, hcode]

/-- When an answer is read as a message. -/
theorem respond_ok_iff {read : DriveRead}
    {answer : Except PlatformFailure (RpcResponse AbciQueryResponse)} {message : R} :
    read.respond lib answer = .ok message ↔ ∃ result, answer = .ok ⟨some result, none⟩ ∧
      (result.code = none ∨ result.code = some 0) ∧
        lib.deserializeBinary read.responseClass result.value = .ok message := by
  constructor
  · intro h
    unfold DriveRead.respond at h
    cases answer with
    | error failure => cases h
    | ok response =>
        cases hvalue : driveValue lib response with
        | error failure =>
            simp only [hvalue] at h
            cases h
        | ok buffer =>
            obtain ⟨result, rfl, hcode, rfl⟩ := driveValue_ok_iff.mp hvalue
            simp only [hvalue] at h
            cases hmessage : lib.deserializeBinary read.responseClass result.value with
            | error message =>
                simp only [hmessage] at h
                cases h
            | ok message' =>
                simp only [hmessage] at h
                exact ⟨result, rfl, hcode, Except.ok.inj h ▸ hmessage⟩
  · rintro ⟨result, rfl, hcode, hmessage⟩
    have hvalue : driveValue lib ⟨some result, none⟩ = .ok result.value :=
      driveValue_ok_iff.mpr ⟨result, rfl, hcode, rfl⟩
    unfold DriveRead.respond
    simp only [hvalue, hmessage]

/-- The state repository reads a contract as the handler does, without a proof. -/
theorem fetchDataContract_eq (contractIdentifier : Buffer) :
    fetchDataContract lib contractIdentifier =
      (getDataContractHandler lib ⟨.bytes contractIdentifier, false⟩).bind fun response =>
        Platform.ofLibrary (lib.createDataContract (lib.getDataContract response)) := by
  unfold fetchDataContract getDataContractHandler
  rw [if_neg (fun h => by cases h)]
  simp only [bind_eq, bind_bind]

end

/-- **A read returns what Drive has.**  Whatever is requested and whatever Drive answers: a handler
asks nothing but the query of its request, and at most once; and it returns a message exactly when
the response to it has no error, of JSON RPC or of Drive, and the message is in its bytes. -/
theorem read_ok_iff {D V R C : Type} (lib : PlatformLib D V R C) (r : ReadRequest)
    (answer : (q : PlatformRequest) → Except PlatformFailure q.Answer) :
    ((r.eval lib answer).2 = [] ∨ ∃ query, (r.read lib).query = .ok query ∧
        (r.eval lib answer).2 = [.await (.abciQuery query)]) ∧
      ∀ message, (r.eval lib answer).1 = .ok message ↔ ∃ query result,
        (r.read lib).query = .ok query ∧ answer (.abciQuery query) = .ok ⟨some result, none⟩ ∧
          (result.code = none ∨ result.code = some 0) ∧
            lib.deserializeBinary (r.read lib).responseClass result.value = .ok message := by
  cases hquery : (r.read lib).query with
  | error failure =>
      rw [eval_of_error hquery]
      refine ⟨Or.inl rfl, fun message => ⟨fun h => (by cases h), ?_⟩⟩
      rintro ⟨query, result, h, -⟩
      cases h
  | ok query =>
      rw [eval_of_query hquery]
      refine ⟨Or.inr ⟨query, rfl, rfl⟩, fun message => ?_⟩
      refine respond_ok_iff.trans ?_
      constructor
      · rintro ⟨result, hrest⟩
        exact ⟨query, result, rfl, hrest⟩
      · rintro ⟨query', result, heq, hrest⟩
        obtain rfl := Except.ok.inj heq
        exact ⟨result, hrest⟩

/-- **A read fails as Drive did.**  When Drive answers a read with a code that is not zero, its
handler throws an error whose status tells that code and the data in the info; or a library does
not know the report, and the handler throws the exception of it. -/
theorem read_failure_told {D V R C : Type} (lib : PlatformLib D V R C) (decodeData : Buffer → D)
    (hlib : lib.driveErrorLib.Lawful decodeData) (r : ReadRequest)
    (answer : (q : PlatformRequest) → Except PlatformFailure q.Answer) (query : AbciQuery)
    (hquery : (r.read lib).query = .ok query) (result : AbciQueryResponse)
    (hanswer : answer (.abciQuery query) = .ok ⟨some result, none⟩) (code : ℤ)
    (hcode : result.code = some code) (hne : code ≠ 0) :
    (∃ error, (r.eval lib answer).1 = .error (.request (.grpc error)) ∧
        error.toStatus.Tells lib.driveErrorLib decodeData code result.info) ∨
      ∃ message, (r.eval lib answer).1 = .error (.request (.library message)) ∧
        createGrpcErrorFromDriveResponse lib.driveErrorLib (some code) result.info =
          .error message := by
  have hvalue : driveValue lib ⟨some result, none⟩ =
      .error (driveFailure lib.driveErrorLib result.toAbciResult) := by
    refine if_neg ?_
    rw [hcode]
    simp [hne]
  have heval : (r.eval lib answer).1 =
      .error (.request (driveFailure lib.driveErrorLib result.toAbciResult)) := by
    rw [eval_of_query hquery, hanswer]
    unfold DriveRead.respond
    simp only [hvalue]
  rw [heval]
  rcases driveFailure_tells hlib hcode with ⟨error, herror, htells⟩ | ⟨message, hmessage, hfail⟩
  · exact Or.inl ⟨error, by rw [herror], htells⟩
  · exact Or.inr ⟨message, by rw [hmessage], hfail⟩

/-- A library for data of at most one byte, where a message is its bytes. -/
def bytePlatformLib : PlatformLib (Option UInt8) Unit Buffer Buffer where
  driveErrorLib := byteErrorLib
  encodeData _ := []
  decodeOption _ := .ok ()
  decodeProofs _ := .error "no proofs"
  encodeMetadata _ := []
  deserializeBinary _ buffer := .ok buffer
  getDataContract buffer := buffer
  createDataContract buffer := .ok buffer

/-- Drive does not find the identity. -/
def notFoundAnswer : (q : PlatformRequest) → Except PlatformFailure q.Answer
  | .abciQuery _ => .ok ⟨some ⟨⟨some 5, some [7]⟩, []⟩, none⟩
  | .createStateTransition _ | .consensusParams _ | .waitForTransactionToBeProvable _ _ =>
    .error (.request .typeError)

/-- The client is told the code and the data. -/
theorem read_failure_told_notFound :
    ∃ error, ((ReadRequest.getIdentity ⟨.bytes [1], false⟩).eval bytePlatformLib
        notFoundAnswer).1 = .error (.request (.grpc error)) ∧
      error.toStatus.driveCode = 5 ∧
        error.toStatus.driveData byteErrorLib (fun buffer => buffer.head?) = some 7 := by
  rcases read_failure_told bytePlatformLib _ byteErrorLib_lawful
    (.getIdentity ⟨.bytes [1], false⟩) notFoundAnswer _ rfl _ rfl 5 rfl (by decide) with
    ⟨error, herror, htells⟩ | ⟨message, -, hfail⟩
  · exact ⟨error, herror, htells.driveCode, htells.driveData none (some 7) rfl (by decide)⟩
  · cases hfail

/-! ## The consensus parameters -/

namespace GetConsensusParamsRequest

/-- The height that is asked for; one that is not set is read as zero. -/
def heightParam (request : GetConsensusParamsRequest) : Option String :=
  if request.height = 0 then none else some (toString request.height)

/-- The outcome of a request and the log of what its handler asked, for the answers of
Tenderdash. -/
def eval (request : GetConsensusParamsRequest)
    (answer : (q : PlatformRequest) → Except PlatformFailure q.Answer) :
    Except PlatformFailure ConsensusParams × List (Event platformSignature) :=
  (getConsensusParamsHandler request).eval (fun op => Empty.elim op) answer

end GetConsensusParamsRequest

/-- The failure that a client is told of: an error of Tenderdash is an invalid height or an internal
error. -/
def translateConsensusFailure : PlatformFailure → PlatformFailure
  | .request (.rpc error) =>
    if error.code = 32603 then
      .request (.grpc (.common .FailedPreconditionGrpcError
        (some ("Invalid height: " ++ dataText error.data)) none))
    else .internal error
  | e => e

/-- What the handler makes of the answer of Tenderdash. -/
def readConsensusParams (answer : Except PlatformFailure (RpcResponse ConsensusParams)) :
    Except PlatformFailure ConsensusParams :=
  match answer with
  | .error failure => .error (translateConsensusFailure failure)
  | .ok ⟨_, some error⟩ => .error (translateConsensusFailure (.request (.rpc error.toRPCError)))
  | .ok ⟨some params, none⟩ => .ok params
  | .ok ⟨none, none⟩ => .error (.request .typeError)

section

variable {request : GetConsensusParamsRequest}
  {answer : (q : PlatformRequest) → Except PlatformFailure q.Answer}

/-- What is caught is thrown again, translated. -/
theorem tryCatch_throw_eq_translate (e : PlatformFailure) :
    ((throw e : PlatformProgram ConsensusParams).tryCatch fun e =>
      match e with
      | .request (.rpc error) =>
        if error.code = 32603 then
          throw (.request (.grpc (.common .FailedPreconditionGrpcError
            (some ("Invalid height: " ++ dataText error.data)) none)))
        else throw (.internal error)
      | e => throw e) = .throw (translateConsensusFailure e) := by
  cases e with
  | request failure =>
      cases failure with
      | rpc error =>
          simp only [Program.tryCatch, translateConsensusFailure]
          split_ifs <;> rfl
      | _ => rfl
  | _ => rfl

/-- **The handler asks once**, for the parameters at its height, and reads the answer. -/
theorem getConsensusParamsHandler_eq (hprove : request.prove = false) :
    getConsensusParamsHandler request =
      await (S := platformSignature) (.consensusParams request.heightParam) fun answer =>
        ofExcept (readConsensusParams answer) := by
  have hheight : Option.map (fun height : ℕ => toString height)
      (if request.height = 0 then none else some request.height) = request.heightParam := by
    unfold GetConsensusParamsRequest.heightParam
    split_ifs <;> rfl
  unfold getConsensusParamsHandler getConsensusParams
  simp only [hprove, Bool.false_eq_true, if_false, hheight]
  refine congrArg (await (S := platformSignature) _) (funext fun answer => ?_)
  rcases answer with failure | ⟨_ | params, _ | error⟩
  · exact tryCatch_throw_eq_translate failure
  · rfl
  · exact tryCatch_throw_eq_translate (.request (.rpc error.toRPCError))
  · rfl
  · exact tryCatch_throw_eq_translate (.request (.rpc error.toRPCError))

/-- The parameters come from a response with a result and no error. -/
theorem readConsensusParams_ok_iff
    {answer : Except PlatformFailure (RpcResponse ConsensusParams)} {params : ConsensusParams} :
    readConsensusParams answer = .ok params ↔ answer = .ok ⟨some params, none⟩ := by
  rcases answer with failure | ⟨_ | params', _ | error⟩ <;> simp [readConsensusParams]

/-- What a request for no proof comes to. -/
theorem consensusParams_eval (hprove : request.prove = false) : request.eval answer =
    (readConsensusParams (answer (.consensusParams request.heightParam)),
      [.await (.consensusParams request.heightParam)]) := by
  unfold GetConsensusParamsRequest.eval
  rw [getConsensusParamsHandler_eq hprove]
  exact congrArg (fun x : _ × List (Event platformSignature) => (x.1, _ :: x.2))
    (eval_ofExcept _ _ (readConsensusParams (answer (.consensusParams request.heightParam))))

end

/-- **The consensus parameters are those of Tenderdash.**  A request for a proof asks nothing; any
other one asks for the parameters at its height, once, and returns them exactly when the response
has them and no error. -/
theorem consensusParams_ok_iff (request : GetConsensusParamsRequest)
    (answer : (q : PlatformRequest) → Except PlatformFailure q.Answer) :
    (request.eval answer).2 =
        (if request.prove then [] else [.await (.consensusParams request.heightParam)]) ∧
      ∀ params, (request.eval answer).1 = .ok params ↔ request.prove = false ∧
        answer (.consensusParams request.heightParam) = .ok ⟨some params, none⟩ := by
  cases hprove : request.prove with
  | true =>
      have heval : request.eval answer =
          (.error (.invalidArgument "Prove is not implemented yet"), []) := by
        unfold GetConsensusParamsRequest.eval getConsensusParamsHandler
        rw [hprove]
        rfl
      rw [heval]
      exact ⟨rfl, fun params => ⟨fun h => (by cases h), fun h => (by cases h.1)⟩⟩
  | false =>
      rw [consensusParams_eval hprove]
      refine ⟨rfl, fun params => ?_⟩
      rw [eq_self_iff_true, true_and]
      exact readConsensusParams_ok_iff

/-- **An error of Tenderdash is told** as an invalid height when its code is the positive 32603, and
as an internal error else; so -32603, the code of JSON RPC for internal errors, is not read as an
invalid height. -/
theorem consensusParams_failure_told (request : GetConsensusParamsRequest)
    (answer : (q : PlatformRequest) → Except PlatformFailure q.Answer)
    (hprove : request.prove = false) (result : Option ConsensusParams) (error : JsonRpcError)
    (hanswer : answer (.consensusParams request.heightParam) = .ok ⟨result, some error⟩) :
    (error.code = some 32603 ∧ (request.eval answer).1 = .error (.request (.grpc
        (.common .FailedPreconditionGrpcError
          (some ("Invalid height: " ++ dataText error.data)) none)))) ∨
      (error.code ≠ some 32603 ∧
        (request.eval answer).1 = .error (.internal error.toRPCError)) := by
  rw [consensusParams_eval hprove, hanswer]
  have hcode : error.toRPCError.code = 32603 ↔ error.code = some 32603 := by
    unfold JsonRpcError.toRPCError
    cases error.code with
    | none => simp
    | some code =>
        by_cases hzero : code = 0
        · simp [hzero]
        · simp [hzero]
  by_cases h : error.code = some 32603
  · refine Or.inl ⟨h, ?_⟩
    simp only [readConsensusParams, translateConsensusFailure, hcode.mpr h, if_true]
    rfl
  · refine Or.inr ⟨h, ?_⟩
    simp only [readConsensusParams, translateConsensusFailure, hcode.not.mpr h, if_false]

end Dapi
