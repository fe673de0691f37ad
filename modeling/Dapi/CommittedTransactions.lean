/-
# Committed transactions

The service of `WaitForTransaction` with the node that it asks and listens to.

The node commits transactions.  It answers a `tx` query by what is committed when
the query is evaluated, and sends an event for each commit to the open WebSocket.
A query, its answer and the events are in flight for any time.  A request may also
fail: then its answer is anything but a result.

* A transaction is known by the hash string that its event and the calls have.
* `Owned`: the handlers for transactions are those of the calls.
* `Followed` is the invariant of a call: its promises follow each other, and as long
  as it waits, the news of a commit is on the way.
* `committed_result`: when no message is in flight, a call whose transaction is
  committed has its result, unless its own request has failed.
-/
import Dapi.WaitForTransaction

namespace Dapi

/-! ## The node -/

/-- Where the query of a call is. -/
inductive TxQuery
  | unsent
  | sent
  | evaluated (response : RpcResponse TxQueryResult)
  | delivered
  | failed (failure : RequestFailure)

/-- A query or its answer is in flight. -/
def TxQuery.IsInFlight : TxQuery → Prop
  | .sent | .evaluated _ => True
  | .unsent | .delivered | .failed _ => False

instance : (query : TxQuery) → Decidable query.IsInFlight
  | .sent | .evaluated _ => isTrue trivial
  | .unsent | .delivered | .failed _ => isFalse id

/-- What `getExistingTransactionResult` makes of the answer to its request. -/
def readAnswer (answer : Except RequestFailure (RpcResponse TxQueryResult)) :
    Except RequestFailure TransactionResult :=
  match answer with
  | .ok response => readTransactionResult response
  | .error failure => .error failure

namespace Payload

/-- The answer to a query for a committed transaction. -/
def foundResponse (payload : Payload) : RpcResponse TxQueryResult :=
  ⟨some ⟨payload.result, payload.height, payload.tx⟩, none⟩

/-- The event of a commit. -/
def txMessage (payload : Payload) (hashString : String) : TxMessage :=
  ⟨some [hashString], ⟨some payload.result, payload.tx, payload.height⟩⟩

/-- A result of this payload. -/
structure HasResult (payload : Payload) (result : TransactionResult) : Prop where
  deliverResult : result.deliverResult = some payload.result
  height : result.height = payload.height
  transaction : result.transaction = payload.tx

/-- The event tells the payload. -/
theorem hasResult_fromEvent (payload : Payload) : payload.HasResult payload.fromEvent :=
  ⟨rfl, rfl, rfl⟩

/-- The answer to a query tells the payload. -/
theorem exists_fromQuery (payload : Payload) :
    ∃ result, payload.fromQuery = .ok result ∧ payload.HasResult result :=
  ⟨_, payload.fromQuery_eq, rfl, rfl, rfl⟩

end Payload

/-- The answer to a query for another transaction. -/
def notFoundResponse (message : Option String) (hashString : String) :
    RpcResponse TxQueryResult :=
  ⟨none, some ⟨some (-32603), message, some (notFoundData hashString)⟩⟩

/-- The service, what is committed, and the messages in flight. -/
structure NodeState where
  service : WaitState
  committed : String → Option Payload
  queries : ℕ → TxQuery
  events : List TxMessage

namespace NodeState

/-- Nothing is committed, and nothing was asked. -/
def initial : NodeState where
  service := .initial
  committed := fun _ => none
  queries := fun _ => .unsent
  events := []

/-- What can happen to the node, the messages and the service. -/
inductive Action
  | call (i : ℕ) (hashString : String)
  | commit (hashString : String) (payload : Payload)
  | evaluate (i : ℕ) (message : Option String)
  | deliverAnswer (i : ℕ)
  | failAnswer (i : ℕ) (answer : Except RequestFailure (RpcResponse TxQueryResult))
  | deliverEvent (message : TxMessage)
  | newBlock (height : ℕ)
  | timeout (i : ℕ)
  | job (i : ℕ) (job : Job)

/-- What the node answers. -/
def evaluate (message : Option String) (hashString : String) (s : NodeState) :
    RpcResponse TxQueryResult :=
  match s.committed hashString with
  | some payload => payload.foundResponse
  | none => notFoundResponse message hashString

/-- The state after an action. -/
def step (s : NodeState) : Action → NodeState
  | .call i hashString =>
    if s.service.calls i = none then
      { s with
        service := s.service.step (.call i hashString)
        queries := Function.update s.queries i .sent }
    else s
  | .commit hashString payload =>
    if hashString ≠ "" ∧ s.committed hashString = none then
      { s with
        committed := Function.update s.committed hashString (some payload)
        events := s.events ++ [payload.txMessage hashString] }
    else s
  | .evaluate i message =>
    match s.queries i, s.service.calls i with
    | .sent, some call =>
      { s with
        queries :=
          Function.update s.queries i (.evaluated (s.evaluate message call.hashString)) }
    | _, _ => s
  | .deliverAnswer i =>
    match s.queries i with
    | .evaluated response =>
      { s with
        service := s.service.step (.answer i (.ok response))
        queries := Function.update s.queries i .delivered }
    | _ => s
  | .failAnswer i answer =>
    match readAnswer answer with
    | .error failure =>
      if (s.queries i).IsInFlight then
        { s with
          service := s.service.step (.answer i answer)
          queries := Function.update s.queries i (.failed failure) }
      else s
    | .ok _ => s
  | .deliverEvent message =>
    if message ∈ s.events then
      { s with
        service := s.service.step (.tx message)
        events := s.events.erase message }
    else s
  | .newBlock height => { s with service := s.service.step (.newBlock height) }
  | .timeout i => { s with service := s.service.step (.timeout i) }
  | .job i job => { s with service := s.service.step (.job i job) }

/-- A run of the service and the node. -/
abbrev run : NodeState → List Action → NodeState := Machine.run step

/-- Nothing is in flight for a call, and none of its reactions is due. -/
structure Quiet (s : NodeState) (i : ℕ) (call : ProvableCall) : Prop where
  query : ¬ (s.queries i).IsInFlight
  events : s.events = []
  reactions : ∀ job, call.react (WaitState.isReached i s.service.toHeightState) job = call

end NodeState

/-! ## The handlers for transactions -/

/-- The registration of a call. -/
def registration (i : ℕ) (hashString : String) : Registration ChainEvent ChainListener :=
  ⟨.transaction hashString, .transactionHandler i, false⟩

namespace WaitState

variable {s : WaitState} {call call' : ProvableCall} {i j : ℕ} {hs : HeightState}
  {hashString : String}

/-- The handler of a call is registered. -/
def IsListening (s : HeightState) (i : ℕ) (hashString : String) : Prop :=
  registration i hashString ∈ s.blockchainListener.registrations

/-- Every registration for a transaction is the one of a call. -/
def Owned (s : WaitState) : Prop :=
  ∀ r ∈ s.blockchainListener.registrations, r.event ≠ .newBlock →
    ∃ i call, s.calls i = some call ∧ r = registration i call.hashString

/-- The handlers of the other calls are left alone by a detachment. -/
theorem isListening_detach_of_ne (h : j ≠ i) (hashString hashString' : String) (hs : HeightState) :
    IsListening (detach i hashString' hs) j hashString ↔ IsListening hs j hashString := by
  refine EventEmitter.mem_removeListener_iff fun hr => h ?_
  injection hr.2

/-- Waiting for a height leaves the handlers for transactions alone. -/
theorem mem_waitForHeight {r : Registration ChainEvent ChainListener} (hr : r.event ≠ .newBlock)
    (i height : ℕ) : r ∈ (hs.waitForHeight i height).blockchainListener.registrations ↔
      r ∈ hs.blockchainListener.registrations := by
  unfold HeightState.waitForHeight
  split_ifs
  · exact Iff.rfl
  · rw [EventEmitter.mem_on_iff]
    constructor
    · rintro (h | rfl)
      · exact h
      · exact absurd rfl hr
    · exact Or.inl

/-- A job detaches the handler of its call, when an existing result arrived, or it leaves the
registrations for transactions as they are. -/
theorem mem_effect {r : Registration ChainEvent ChainListener} (hr : r.event ≠ .newBlock) (i : ℕ)
    (call : ProvableCall) (job : Job) (hs : HeightState) :
    (r ∈ (effect i call job hs).blockchainListener.registrations ↔
        r ∈ hs.blockchainListener.registrations) ∨
      (effect i call job hs = detach i call.hashString hs ∧ job = .detachExisting ∧
        call.detached = .pending ∧ ∃ result, call.existing = .fulfilled result) := by
  cases job with
  | detachExisting =>
      unfold effect
      simp only
      split
      · rename_i result hdetached hexisting
        exact Or.inr ⟨rfl, trivial, hdetached, result, hexisting⟩
      · exact Or.inl Iff.rfl
  | commitment =>
      left
      rcases commit_cases i call hs with
        ⟨result, -, -, -, -, heffect⟩ | ⟨_, -, -, -, -, heffect⟩ | ⟨-, heffect⟩
      · rw [heffect]
        exact mem_waitForHeight hr i _
      · rw [heffect]
      · rw [heffect]
  | _ => exact Or.inl Iff.rfl

/-- A job registers no handler for a transaction. -/
theorem mem_of_mem_effect {r : Registration ChainEvent ChainListener} (hr : r.event ≠ .newBlock)
    {job : Job} (hmem : r ∈ (effect i call job hs).blockchainListener.registrations) :
    r ∈ hs.blockchainListener.registrations := by
  rcases mem_effect hr i call job hs with h | ⟨heq, -⟩
  · exact h.mp hmem
  · rw [heq] at hmem
    exact EventEmitter.mem_of_mem_removeListener hmem

/-- A job leaves the handlers of the other calls alone. -/
theorem isListening_effect_of_ne (h : j ≠ i) (job : Job) :
    IsListening (effect i call job hs) j hashString ↔ IsListening hs j hashString := by
  have hevent : (registration j hashString).event ≠ .newBlock := by
    unfold registration
    simp
  rcases mem_effect hevent i call job hs with hmem | ⟨heq, -⟩
  · exact hmem
  · rw [heq]
    exact isListening_detach_of_ne h _ _ hs

/-- A call keeps its hash. -/
theorem react_hashString (isReached : Bool) (call : ProvableCall) (job : Job) :
    (call.react isReached job).hashString = call.hashString := by
  cases job with
  | commitment =>
      show call.commit.hashString = call.hashString
      obtain ⟨awaited, provable, heq⟩ := exists_commit call
      rw [heq]
  | heightReached =>
      show (call.continueCommitment isReached).hashString = call.hashString
      obtain ⟨provable, heq⟩ := exists_continueCommitment isReached call
      rw [heq]
  | _ => rfl

/-- One call changes, and no registration for a transaction is new. -/
theorem Owned.setCall (h : Owned s) (hcall : s.calls i = some call)
    (hhash : call'.hashString = call.hashString)
    (hmem : ∀ r ∈ hs.blockchainListener.registrations, r.event ≠ .newBlock →
      r ∈ s.blockchainListener.registrations) :
    Owned (WaitState.setCall i call' { s with toHeightState := hs }) := by
  intro r hr hevent
  obtain ⟨j, call₁, hj, rfl⟩ := h r (hmem r hr hevent) hevent
  by_cases hji : j = i
  · subst hji
    obtain rfl : call = call₁ := Option.some.inj (hcall.symm.trans hj)
    exact ⟨j, call', setCall_self, by rw [hhash]⟩
  · exact ⟨j, call₁, (setCall_of_ne hji).trans hj, rfl⟩

/-- What the event of a transaction does to the calls: nothing, or it is the transaction of the
call and resolves the upcoming result. -/
def Emitted (hashString : String) (txResult : TxResult) (s s' : WaitState) : Prop :=
  ∀ i call', s'.calls i = some call' → ∃ call, s.calls i = some call ∧
    ((call' = call ∧ (IsListening s.toHeightState i call.hashString →
        IsListening s'.toHeightState i call.hashString)) ∨
      (call.hashString = hashString ∧ call' =
        { call with upcoming := call.upcoming.resolve (.fulfilled (handleTxResult txResult)) }))

/-- One handler runs. -/
theorem Emitted.handleTransaction {txResult : TxResult} {s' : WaitState}
    (h : Emitted hashString txResult s s') (hj : s.calls j = some call)
    (hhash : call.hashString = hashString) :
    Emitted hashString txResult s (s'.handleTransaction j txResult) := by
  unfold WaitState.handleTransaction
  cases hj' : s'.calls j with
  | none => exact h
  | some call₁ =>
      intro i call' hi
      by_cases hij : i = j
      · subst hij
        obtain rfl : _ = call' := Option.some.inj (setCall_self.symm.trans hi)
        refine ⟨call, hj, Or.inr ⟨hhash, ?_⟩⟩
        obtain ⟨call₀, hcall₀, heq⟩ := h i call₁ hj'
        obtain rfl : call = call₀ := Option.some.inj (hj.symm.trans hcall₀)
        rcases heq with ⟨rfl, -⟩ | ⟨-, rfl⟩
        · rfl
        · -- the promise is resolved already
          cases call.upcoming <;> rfl
      · obtain ⟨call₀, hcall₀, heq⟩ := h i call' ((setCall_of_ne hij).symm.trans hi)
        refine ⟨call₀, hcall₀, ?_⟩
        rcases heq with ⟨rfl, hlisten⟩ | hresolved
        · refine Or.inl ⟨rfl, fun hl => ?_⟩
          exact (isListening_detach_of_ne hij _ _ _).mpr (hlisten hl)
        · exact Or.inr hresolved

/-- **The event of a transaction** is only for the calls that wait for it. -/
theorem Owned.emitTransaction (h : Owned s) (hashString : String) (txResult : TxResult) :
    Owned (s.emitTransaction hashString txResult) ∧
      Emitted hashString txResult s (s.emitTransaction hashString txResult) := by
  refine EventEmitter.emit_invariant_of_mem
    (I := fun s' : WaitState => Owned s' ∧ Emitted hashString txResult s s') ?_
    ⟨h, fun i call hcall => ⟨call, hcall, Or.inl ⟨rfl, id⟩⟩⟩
  intro r hr s' ⟨howned, hemitted⟩
  obtain ⟨hmem, hevent⟩ := EventEmitter.mem_listeners_iff.mp hr
  have hne : r.event ≠ .newBlock := by
    rw [hevent]
    simp
  obtain ⟨j, call, hj, rfl⟩ := h r hmem hne
  have hhash : call.hashString = hashString := by
    injection hevent
  refine ⟨?_, hemitted.handleTransaction hj hhash⟩
  show Owned (s'.handleTransaction j txResult)
  unfold handleTransaction
  cases hj' : s'.calls j with
  | none => exact howned
  | some call' =>
      exact howned.setCall hj' rfl fun r hr _ => EventEmitter.mem_of_mem_removeListener hr

/-- The upcoming result of a call that is there is at most resolved by a listener. -/
theorem exists_runListener (hcall : s.calls i = some call) (txResult : TxResult)
    (l : ChainListener) : ∃ call', (runListener txResult l s).calls i = some call' ∧
      Promise.Extends call.upcoming call'.upcoming := by
  cases l with
  | transactionHandler j =>
      show ∃ call', (s.handleTransaction j txResult).calls i = some call' ∧ _
      unfold handleTransaction
      cases hj : s.calls j with
      | none => exact ⟨call, hcall, .refl _⟩
      | some call₁ =>
          by_cases hij : i = j
          · subst hij
            obtain rfl : call = call₁ := Option.some.inj (hcall.symm.trans hj)
            exact ⟨_, setCall_self, Promise.extends_resolve _ _⟩
          · exact ⟨call, (setCall_of_ne hij).trans hcall, .refl _⟩
  | setCurrentHeight => exact ⟨call, hcall, .refl _⟩
  | heightHandler j => exact ⟨call, hcall, .refl _⟩

/-- **A call that listens is served.** -/
theorem ne_pending_emitTransaction (hcall : s.calls i = some call) {txResult : TxResult}
    (hlisten : IsListening s.toHeightState i hashString) : ∃ call',
      (s.emitTransaction hashString txResult).calls i = some call' ∧ call'.upcoming ≠ .pending := by
  refine EventEmitter.emit_served (r := registration i hashString)
    (I := fun s' : WaitState => ∃ call', s'.calls i = some call')
    (Q := fun s' : WaitState => ∃ call', s'.calls i = some call' ∧ call'.upcoming ≠ .pending)
    hlisten rfl (fun _ _ _ h => h) ?_ ?_ ?_ ⟨call, hcall⟩
  · rintro l s' ⟨call', hcall'⟩
    obtain ⟨call'', hcall'', -⟩ := exists_runListener hcall' txResult l
    exact ⟨call'', hcall''⟩
  · rintro s' ⟨call', hcall'⟩
    show ∃ call', (s'.handleTransaction i txResult).calls i = some call' ∧ _
    unfold handleTransaction
    rw [hcall']
    exact ⟨_, setCall_self, call'.upcoming.resolve_ne_pending fun h => by cases h⟩
  · rintro r s' ⟨call', hcall', hne⟩
    obtain ⟨call'', hcall'', hext⟩ := exists_runListener
      (s := { s' with blockchainListener := s'.blockchainListener.served r }) hcall' txResult
      r.listener
    refine ⟨call'', hcall'', ?_⟩
    rw [hext.eq_of_ne hne]
    exact hne

end WaitState

/-! ## What is on the way -/

namespace NodeState

variable {committed : String → Option Payload} {query : TxQuery} {events : List TxMessage}
  {isListening : Prop} {call : ProvableCall} {hashString : String}

/-- An answer that the node has given, or may have given before a commit. -/
inductive Honest (committed : String → Option Payload) (hashString : String) :
    RpcResponse TxQueryResult → Prop
  | found (payload : Payload) (h : committed hashString = some payload) :
    Honest committed hashString payload.foundResponse
  | notFound (message : Option String) :
    Honest committed hashString (notFoundResponse message hashString)

/-- The query of a call, and what the call knows of the answer. -/
inductive Asked (committed : String → Option Payload) (call : ProvableCall) : TxQuery → Prop
  | sent (h : call.response = .pending) : Asked committed call .sent
  | evaluated (response : RpcResponse TxQueryResult) (h : call.response = .pending)
    (hhonest : Honest committed call.hashString response) :
    Asked committed call (.evaluated response)
  | delivered (response : RpcResponse TxQueryResult) (h : call.response = .fulfilled response)
    (hhonest : Honest committed call.hashString response) : Asked committed call .delivered
  | failed (failure : RequestFailure) (h : call.readResponse = .rejected (.request failure)) :
    Asked committed call (.failed failure)

/-- The other promises play no part in it. -/
theorem Asked.of_eq {call' : ProvableCall} (h : Asked committed call query)
    (hresponse : call'.response = call.response) (hhash : call'.hashString = call.hashString) :
    Asked committed call' query := by
  cases h with
  | sent hpending => exact .sent (hresponse.trans hpending)
  | evaluated response hpending hhonest =>
      exact .evaluated response (hresponse.trans hpending) (hhash ▸ hhonest)
  | delivered response hfulfilled hhonest =>
      exact .delivered response (hresponse.trans hfulfilled) (hhash ▸ hhonest)
  | failed failure hread =>
      refine .failed failure (Eq.trans ?_ hread)
      unfold ProvableCall.readResponse
      rw [hresponse]

/-- What the promise with the `.catch(...)` is resolved with. -/
def catchOutcome (call : ProvableCall) : ResultPromise :=
  call.detached.catchDo fun error =>
    if isNotFound call.hashString error then .locked else .rejected error

/-- The promise is pending, or it has a result of the transaction. -/
def HasResultOf (committed : String → Option Payload) (hashString : String)
    (p : ResultPromise) : Prop :=
  p = .pending ∨ ∃ payload result, committed hashString = some payload ∧
    payload.HasResult result ∧ p = .fulfilled result

/-- The promise is rejected with the failure of the request, when that does not say that the
transaction is not found. -/
def HasFailureOf (query : TxQuery) (hashString : String) (p : ResultPromise) : Prop :=
  ∃ failure, query = .failed failure ∧ isNotFound hashString (.request failure) = false ∧
    p = .rejected (.request failure)

/-- **The invariant of a call.**  Its promises follow each other; and as long as the call waits
for its transaction, it listens, and the news of a commit is on the way, unless its request has
failed. -/
structure Followed (committed : String → Option Payload) (query : TxQuery)
    (events : List TxMessage) (isListening : Prop) (call : ProvableCall) : Prop where
  asked : Asked committed call query
  existing : call.existing.Follows call.readResponse
  detached : call.detached.Follows (call.existing.thenDo .fulfilled)
  caught : call.caught.Follows (catchOutcome call)
  upcoming : HasResultOf committed call.hashString call.upcoming
  transactionResult : HasResultOf committed call.hashString call.transactionResult ∨
    HasFailureOf query call.hashString call.transactionResult
  listening : call.timeout = .pending → call.upcoming = .pending →
    (∀ result, call.detached ≠ .fulfilled result) → isListening
  informed : ∀ payload, committed call.hashString = some payload → call.timeout = .pending →
    call.upcoming = .pending → payload.txMessage call.hashString ∈ events ∨ query = .sent ∨
      query = .evaluated payload.foundResponse ∨
        call.response = .fulfilled payload.foundResponse ∨ ∃ failure, query = .failed failure

/-! ## The chain of promises -/

/-- The answer that the transaction is found becomes a result. -/
theorem readResponse_found {payload : Payload}
    (h : call.response = .fulfilled payload.foundResponse) :
    ∃ result, call.readResponse = .fulfilled result ∧ payload.HasResult result := by
  obtain ⟨result, hresult, hhas⟩ := payload.exists_fromQuery
  refine ⟨result, ?_, hhas⟩
  unfold ProvableCall.readResponse
  rw [h]
  simp only
  have hread : readTransactionResult payload.foundResponse = .ok result := hresult
  rw [hread]

/-- The answer that the transaction is not found is recognised. -/
theorem readResponse_notFound {message : Option String}
    (h : call.response = .fulfilled (notFoundResponse message call.hashString)) :
    ∃ failure, call.readResponse = .rejected failure ∧
      isNotFound call.hashString failure = true := by
  unfold ProvableCall.readResponse
  rw [h]
  refine ⟨_, rfl, ?_⟩
  simp [isNotFound, JsonRpcError.toRPCError]

/-- What the query leads to, stage by stage. -/
theorem Followed.existing_cases (h : Followed committed query events isListening call) :
    call.existing = .pending ∨
      (∃ payload result, committed call.hashString = some payload ∧
        call.response = .fulfilled payload.foundResponse ∧ payload.HasResult result ∧
          call.existing = .fulfilled result) ∨
      (∃ failure, call.existing = .rejected failure ∧
        isNotFound call.hashString failure = true) ∨
      ∃ failure, query = .failed failure ∧ call.existing = .rejected (.request failure) := by
  rcases h.existing with hpending | heq
  · exact Or.inl hpending
  · rw [heq]
    cases h.asked with
    | sent hresponse =>
        left
        unfold ProvableCall.readResponse
        rw [hresponse]
    | evaluated response hresponse =>
        left
        unfold ProvableCall.readResponse
        rw [hresponse]
    | delivered response hresponse hhonest =>
        right
        cases hhonest with
        | found payload hcommitted =>
            obtain ⟨result, hread, hhas⟩ := readResponse_found hresponse
            exact Or.inl ⟨payload, result, hcommitted, hresponse, hhas, hread⟩
        | notFound message => exact Or.inr (Or.inl (readResponse_notFound hresponse))
    | failed failure hread => exact Or.inr (Or.inr (Or.inr ⟨failure, rfl, hread⟩))

/-- A call is detached by an existing result only when the query has found it. -/
theorem Followed.found_of_detached (h : Followed committed query events isListening call)
    {result : TransactionResult} (hdetached : call.detached = .fulfilled result) :
    ∃ payload, committed call.hashString = some payload ∧
      call.response = .fulfilled payload.foundResponse := by
  have hexisting : call.existing = .fulfilled result := by
    rcases h.detached with hpending | heq
    · cases hpending.symm.trans hdetached
    · rw [hdetached] at heq
      cases hex : call.existing with
      | fulfilled result' =>
          rw [hex] at heq
          exact heq.symm
      | _ =>
          rw [hex] at heq
          cases heq
  rcases h.existing_cases with
    hpending | ⟨payload, _, hcommitted, hresponse, -⟩ | ⟨_, hrejected, -⟩ | ⟨_, -, hrejected⟩
  · cases hpending.symm.trans hexisting
  · exact ⟨payload, hcommitted, hresponse⟩
  · cases hrejected.symm.trans hexisting
  · cases hrejected.symm.trans hexisting

/-- The query ends the race with a failure only when the request has failed. -/
theorem Followed.caught_cases (h : Followed committed query events isListening call) :
    call.caught = .locked ∨ HasResultOf committed call.hashString call.caught ∨
      HasFailureOf query call.hashString call.caught := by
  rcases h.caught with hpending | heq
  · exact Or.inr (Or.inl (Or.inl hpending))
  · rw [heq, catchOutcome]
    rcases h.detached with hdetached | hdetached
    · rw [hdetached]
      exact Or.inr (Or.inl (Or.inl rfl))
    · rw [hdetached]
      rcases h.existing_cases with
        hex | ⟨payload, result, hcommitted, -, hhas, hex⟩ | ⟨_, hex, hnot⟩ | ⟨failure, hquery, hex⟩
      · rw [hex]
        exact Or.inr (Or.inl (Or.inl rfl))
      · rw [hex]
        exact Or.inr (Or.inl (Or.inr ⟨payload, result, hcommitted, hhas, rfl⟩))
      · rw [hex]
        left
        simp [Promise.thenDo, Promise.catchDo, hnot]
      · -- the failure is passed on, unless it reads as the answer that there is none
        rw [hex]
        cases hnot : isNotFound call.hashString (.request failure) with
        | true =>
            left
            simp [Promise.thenDo, Promise.catchDo, hnot]
        | false =>
            refine Or.inr (Or.inr ⟨failure, hquery, hnot, ?_⟩)
            simp [Promise.thenDo, Promise.catchDo, hnot]

/-! ## What the steps keep -/

variable {committed' : String → Option Payload} {events' : List TxMessage} {isListening' : Prop}

/-- A new call listens, and has sent its query. -/
theorem followed_new (hashString : String) (hlisten : isListening) :
    Followed committed .sent events isListening (.new hashString) where
  asked := .sent rfl
  existing := Or.inl rfl
  detached := Or.inl rfl
  caught := Or.inl rfl
  upcoming := Or.inl rfl
  transactionResult := Or.inl (Or.inl rfl)
  listening := fun _ _ _ => hlisten
  informed := fun _ _ _ _ => Or.inr (Or.inl rfl)

/-- The handler of the call is still there, when it was. -/
theorem Followed.of_listening (h : Followed committed query events isListening call)
    (hlisten : isListening → isListening') : Followed committed query events isListening' call :=
  { h with listening := fun ht hu hd => hlisten (h.listening ht hu hd) }

/-- A result stays one when more is committed. -/
theorem HasResultOf.mono {p : ResultPromise} (h : HasResultOf committed hashString p)
    (hmono : ∀ payload, committed hashString = some payload →
      committed' hashString = some payload) : HasResultOf committed' hashString p := by
  rcases h with h | ⟨payload, result, hcommitted, hhas, hp⟩
  · exact Or.inl h
  · exact Or.inr ⟨payload, result, hmono payload hcommitted, hhas, hp⟩

/-- An answer stays honest when more is committed. -/
theorem Honest.mono {response : RpcResponse TxQueryResult}
    (h : Honest committed hashString response)
    (hmono : ∀ payload, committed hashString = some payload →
      committed' hashString = some payload) : Honest committed' hashString response := by
  cases h with
  | found payload hcommitted => exact .found payload (hmono payload hcommitted)
  | notFound message => exact .notFound message

/-- **A commit.**  What was committed stays so, and for what is new there is an event. -/
theorem Followed.commit (h : Followed committed query events isListening call)
    (hmono : ∀ payload, committed call.hashString = some payload →
      committed' call.hashString = some payload)
    (hnew : ∀ payload, committed' call.hashString = some payload →
      committed call.hashString = some payload ∨ payload.txMessage call.hashString ∈ events')
    (hevents : ∀ message ∈ events, message ∈ events') :
    Followed committed' query events' isListening call where
  asked := by
    cases h.asked with
    | sent hresponse => exact .sent hresponse
    | evaluated response hresponse hhonest =>
        exact .evaluated response hresponse (hhonest.mono hmono)
    | delivered response hresponse hhonest =>
        exact .delivered response hresponse (hhonest.mono hmono)
    | failed failure hread => exact .failed failure hread
  existing := h.existing
  detached := h.detached
  caught := h.caught
  upcoming := h.upcoming.mono hmono
  transactionResult := h.transactionResult.imp_left fun hr => hr.mono hmono
  listening := h.listening
  informed := fun payload hcommitted ht hu => by
    rcases hnew payload hcommitted with hold | hevent
    · rcases h.informed payload hold ht hu with hevent | hrest
      · exact Or.inl (hevents _ hevent)
      · exact Or.inr hrest
    · exact Or.inl hevent

/-- As long as the request has not failed, the race has no failure. -/
theorem Followed.hasResultOf (h : Followed committed query events isListening call)
    (hquery : ∀ failure, query ≠ .failed failure) :
    HasResultOf committed call.hashString call.transactionResult :=
  h.transactionResult.resolve_right fun ⟨failure, hfailed, _⟩ => hquery failure hfailed

/-- **The node evaluates the query.** -/
theorem Followed.evaluate (h : Followed committed .sent events isListening call)
    {response : RpcResponse TxQueryResult} (hhonest : Honest committed call.hashString response)
    (hfound : ∀ payload, committed call.hashString = some payload →
      response = payload.foundResponse) :
    Followed committed (.evaluated response) events isListening call where
  asked := by
    cases h.asked with
    | sent hresponse => exact .evaluated response hresponse hhonest
  existing := h.existing
  detached := h.detached
  caught := h.caught
  upcoming := h.upcoming
  transactionResult := Or.inl (h.hasResultOf (by simp))
  listening := h.listening
  informed := fun payload hcommitted _ _ => by
    rw [hfound payload hcommitted]
    exact Or.inr (Or.inr (Or.inl rfl))

/-- **The answer arrives.** -/
theorem Followed.answer {response : RpcResponse TxQueryResult}
    (h : Followed committed (.evaluated response) events isListening call) :
    Followed committed .delivered events isListening
      { call with response := call.response.resolve (Promise.ofExcept (.ok response)) } := by
  cases h.asked with
  | evaluated _ hresponse hhonest =>
      have hnew : call.response.resolve (Promise.ofExcept (.ok response)) =
          .fulfilled response := by
        rw [hresponse]
        rfl
      -- until now the answer was not there, so nothing was read
      have hread : call.readResponse = .pending := by
        unfold ProvableCall.readResponse
        rw [hresponse]
      refine ⟨.delivered response hnew hhonest, ?_, h.detached, h.caught, h.upcoming,
        Or.inl (h.hasResultOf (by simp)), h.listening, ?_⟩
      · rcases h.existing with hex | hex
        · exact Or.inl hex
        · exact Or.inl (hex.trans hread)
      · intro payload hcommitted ht hu
        rcases h.informed payload hcommitted ht hu with
          hevent | hsent | hfound | hfound | ⟨_, hfailed⟩
        · exact Or.inl hevent
        · cases hsent
        · cases hfound
          exact Or.inr (Or.inr (Or.inr (Or.inl hnew)))
        · cases hresponse.symm.trans hfound
        · cases hfailed

/-- **The request fails.** -/
theorem Followed.fail (h : Followed committed query events isListening call)
    (hquery : query.IsInFlight) {answer : Except RequestFailure (RpcResponse TxQueryResult)}
    {failure : RequestFailure} (hanswer : readAnswer answer = .error failure) :
    Followed committed (.failed failure) events isListening
      { call with response := call.response.resolve (Promise.ofExcept answer) } := by
  -- the answer was not there, so nothing was read, and now there is the failure to read
  have hpending : call.response = .pending := by
    cases h.asked with
    | sent hresponse => exact hresponse
    | evaluated _ hresponse _ => exact hresponse
    | delivered _ _ _ => exact hquery.elim
    | failed _ _ => exact hquery.elim
  have hread : call.readResponse = .pending := by
    unfold ProvableCall.readResponse
    rw [hpending]
  have hnew : ProvableCall.readResponse
      { call with response := call.response.resolve (Promise.ofExcept answer) } =
        .rejected (.request failure) := by
    unfold ProvableCall.readResponse
    rw [hpending]
    cases answer with
    | ok response =>
        have hfailure : readTransactionResult response = .error failure := hanswer
        simp [Promise.resolve, Promise.ofExcept, hfailure]
    | error failure' =>
        obtain rfl : failure' = failure := Except.error.inj hanswer
        rfl
  have hunfailed : ∀ failure', query ≠ .failed failure' := by
    rintro failure' rfl
    exact hquery
  refine ⟨.failed failure hnew, ?_, h.detached, h.caught, h.upcoming,
    Or.inl (h.hasResultOf hunfailed), h.listening,
    fun _ _ _ _ => Or.inr (Or.inr (Or.inr (Or.inr ⟨failure, rfl⟩)))⟩
  rcases h.existing with hex | hex
  · exact Or.inl hex
  · exact Or.inl (hex.trans hread)

/-- **The handler resolves the upcoming result.** -/
theorem Followed.handle (h : Followed committed query events isListening call) {payload : Payload}
    (hcommitted : committed call.hashString = some payload) :
    Followed committed query events' isListening'
      { call with upcoming := call.upcoming.resolve (.fulfilled payload.fromEvent) } := by
  have hne : call.upcoming.resolve (.fulfilled payload.fromEvent) ≠ .pending :=
    call.upcoming.resolve_ne_pending fun heq => by cases heq
  refine ⟨h.asked.of_eq rfl rfl, h.existing, h.detached, h.caught, ?_, h.transactionResult,
    fun _ hu => absurd hu hne, fun _ _ _ hu => absurd hu hne⟩
  rcases Promise.cases_resolve call.upcoming (.fulfilled payload.fromEvent) with heq | heq
  · show HasResultOf _ _ (call.upcoming.resolve _)
    rw [heq]
    exact h.upcoming
  · exact Or.inr ⟨payload, _, hcommitted, payload.hasResult_fromEvent, heq⟩

/-- **An event that does not reach the handler.**  The call is detached, or the event is not for
it. -/
theorem Followed.erase (h : Followed committed query events isListening call)
    {message : TxMessage} (hmissed : call.upcoming = .pending →
      message.hashString = some call.hashString → ¬ isListening)
    (hempty : call.hashString = "" → committed call.hashString = none) :
    Followed committed query (events.erase message) isListening call :=
  { h with
    informed := fun payload hcommitted ht hu => by
      rcases h.informed payload hcommitted ht hu with hevent | hrest
      · by_cases hm : payload.txMessage call.hashString = message
        · have hhash : message.hashString = some call.hashString := by
            rw [← hm]
            refine if_neg fun hzero => ?_
            rw [hempty hzero] at hcommitted
            cases hcommitted
          have hdetached : ¬ ∀ result, call.detached ≠ .fulfilled result :=
            fun hd => hmissed hu hhash (h.listening ht hu hd)
          push Not at hdetached
          obtain ⟨result, hresult⟩ := hdetached
          obtain ⟨payload', hcommitted', hfound⟩ := h.found_of_detached hresult
          obtain rfl : payload = payload' := Option.some.inj (hcommitted.symm.trans hcommitted')
          exact Or.inr (Or.inr (Or.inr (Or.inl hfound)))
        · exact Or.inl ((List.mem_erase_of_ne hm).mpr hevent)
      · exact Or.inr hrest }

/-- **The timer fires.** -/
theorem Followed.expire (h : Followed committed query events isListening call)
    {failure : WaitFailure} : Followed committed query events isListening'
      { call with timeout := call.timeout.resolve (.rejected failure) } := by
  have hne : call.timeout.resolve (.rejected failure) ≠ .pending :=
    call.timeout.resolve_ne_pending fun heq => by cases heq
  exact ⟨h.asked.of_eq rfl rfl, h.existing, h.detached, h.caught, h.upcoming, h.transactionResult,
    fun ht => absurd ht hne, fun _ _ ht => absurd ht hne⟩

/-- The promises that the result comes from are not changed. -/
theorem Followed.of_listening_of_eq (h : Followed committed query events isListening call)
    (hlisten : isListening → isListening') (awaited : Option TransactionResult)
    (provable result : ResultPromise) : Followed committed query events isListening'
      { call with awaited := awaited, provable := provable, result := result } :=
  ⟨h.asked.of_eq rfl rfl, h.existing, h.detached, h.caught, h.upcoming, h.transactionResult,
    fun ht hu hd => hlisten (h.listening ht hu hd), h.informed⟩

/-- A contender with a result or a failure may decide the race. -/
theorem HasResultOf.race {p contender : ResultPromise}
    (h : HasResultOf committed hashString p ∨ HasFailureOf query hashString p)
    (hcontender : contender = .locked ∨ HasResultOf committed hashString contender ∨
      HasFailureOf query hashString contender) :
    HasResultOf committed hashString (p.race contender) ∨
      HasFailureOf query hashString (p.race contender) := by
  rcases h with (rfl | ⟨payload, result, hcommitted, hhas, rfl⟩) | ⟨failure, hquery, hnot, rfl⟩
  · rcases hcontender with rfl | (rfl | ⟨payload, result, hcommitted, hhas, rfl⟩) |
      ⟨failure, hquery, hnot, rfl⟩
    · exact Or.inl (Or.inl rfl)
    · exact Or.inl (Or.inl rfl)
    · exact Or.inl (Or.inr ⟨payload, result, hcommitted, hhas, rfl⟩)
    · exact Or.inr ⟨failure, hquery, hnot, rfl⟩
  · exact Or.inl (Or.inr ⟨payload, result, hcommitted, hhas, rfl⟩)
  · exact Or.inr ⟨failure, hquery, hnot, rfl⟩

/-- **A reaction.**  It takes the outcome of a promise over to the next one; and it detaches the
handler only when it takes over an existing result. -/
theorem Followed.react (h : Followed committed query events isListening call) (isReached : Bool)
    (job : Job) (hlisten : isListening → isListening' ∨ (job = .detachExisting ∧
      call.detached = .pending ∧ ∃ result, call.existing = .fulfilled result)) :
    Followed committed query events isListening' (call.react isReached job) := by
  have hkept : job ≠ .detachExisting → isListening → isListening' :=
    fun hjob hl => (hlisten hl).resolve_right fun hd => hjob hd.1
  cases job with
  | readResponse =>
      refine ⟨h.asked.of_eq rfl rfl, h.existing.resolve, ?_, h.caught, h.upcoming,
        h.transactionResult, fun ht hu hd => hkept (by simp) (h.listening ht hu hd), h.informed⟩
      exact h.detached.resolve_arg (f := fun p => p.thenDo .fulfilled) rfl _
  | detachExisting =>
      refine ⟨h.asked.of_eq rfl rfl, h.existing, h.detached.resolve, ?_, h.upcoming,
        h.transactionResult, fun ht hu hd => ?_, h.informed⟩
      · exact h.caught.resolve_arg (f := fun p => p.catchDo _) rfl _
      · -- the handler was there before, and only an existing result has detached it
        have hd' : ∀ result, call.detached.resolve (call.existing.thenDo .fulfilled) ≠
            .fulfilled result := hd
        have hold : ∀ result, call.detached ≠ .fulfilled result := by
          intro result hdetached
          refine hd' result ?_
          rw [hdetached]
          rfl
        rcases hlisten (h.listening ht hu hold) with hl | ⟨-, hpending, result, hexisting⟩
        · exact hl
        · refine absurd ?_ (hd' result)
          rw [hpending, hexisting]
          rfl
  | catchNotFound =>
      exact ⟨h.asked.of_eq rfl rfl, h.existing, h.detached, h.caught.resolve, h.upcoming,
        h.transactionResult, fun ht hu hd => hkept (by simp) (h.listening ht hu hd), h.informed⟩
  | raceExisting =>
      exact ⟨h.asked.of_eq rfl rfl, h.existing, h.detached, h.caught, h.upcoming,
        HasResultOf.race h.transactionResult h.caught_cases,
        fun ht hu hd => hkept (by simp) (h.listening ht hu hd), h.informed⟩
  | raceUpcoming =>
      exact ⟨h.asked.of_eq rfl rfl, h.existing, h.detached, h.caught, h.upcoming,
        HasResultOf.race h.transactionResult (Or.inr (Or.inl h.upcoming)),
        fun ht hu hd => hkept (by simp) (h.listening ht hu hd), h.informed⟩
  | commitment =>
      show Followed committed query events isListening' call.commit
      obtain ⟨awaited, provable, heq⟩ := WaitState.exists_commit call
      rw [heq]
      exact h.of_listening_of_eq (hkept (by simp)) awaited provable call.result
  | heightReached =>
      show Followed committed query events isListening' (call.continueCommitment isReached)
      obtain ⟨provable, heq⟩ := WaitState.exists_continueCommitment isReached call
      rw [heq]
      exact h.of_listening_of_eq (hkept (by simp)) call.awaited provable call.result
  | raceProvable => exact h.of_listening_of_eq (hkept (by simp)) _ _ _
  | raceTimeout => exact h.of_listening_of_eq (hkept (by simp)) _ _ _

/-! ## All calls -/

/-- The invariant: the handlers, the events in flight, and all calls. -/
structure Sound (s : NodeState) : Prop where
  owned : s.service.Owned
  noEmptyHash : s.committed "" = none
  events : ∀ message ∈ s.events, ∃ hashString payload, s.committed hashString = some payload ∧
    message = payload.txMessage hashString
  calls : ∀ i call, s.service.calls i = some call → Followed s.committed (s.queries i) s.events
    (WaitState.IsListening s.service.toHeightState i call.hashString) call

variable {s : NodeState} {call' : ProvableCall} {i : ℕ} {hs : HeightState}

/-- One call changes; the others listen as before. -/
theorem Sound.setCall (h : Sound s) (hcall : s.service.calls i = some call)
    (hhash : call'.hashString = call.hashString)
    (hmem : ∀ r ∈ hs.blockchainListener.registrations, r.event ≠ .newBlock →
      r ∈ s.service.blockchainListener.registrations)
    (hothers : ∀ j, j ≠ i → ∀ hashString,
      WaitState.IsListening s.service.toHeightState j hashString →
        WaitState.IsListening hs j hashString)
    (queries : ℕ → TxQuery) (hqueries : ∀ j, j ≠ i → queries j = s.queries j)
    (hfollowed : Followed s.committed (queries i) s.events
      (WaitState.IsListening hs i call'.hashString) call') :
    Sound { s with
      service := WaitState.setCall i call' { s.service with toHeightState := hs }
      queries := queries } := by
  refine ⟨h.owned.setCall hcall hhash hmem, h.noEmptyHash, h.events, fun j call₁ hj => ?_⟩
  by_cases hji : j = i
  · subst hji
    obtain rfl : call' = call₁ := Option.some.inj (WaitState.setCall_self.symm.trans hj)
    exact hfollowed
  · show Followed s.committed (queries j) s.events _ call₁
    rw [hqueries j hji]
    have hold := h.calls j call₁ ((WaitState.setCall_of_ne hji).symm.trans hj)
    exact hold.of_listening (hothers j hji call₁.hashString)

/-- **A new call** attaches its handler and sends its query. -/
theorem Sound.step_call (h : Sound s) (i : ℕ) (hashString : String) :
    Sound (s.step (.call i hashString)) := by
  rw [step]
  split_ifs with hnone
  · have hservice : s.service.step (.call i hashString) =
        s.service.waitForTransactionToBeProvable i hashString := if_pos hnone
    simp only [hservice]
    refine ⟨?_, h.noEmptyHash, h.events, fun j call hj => ?_⟩
    · intro r hr hevent
      rcases EventEmitter.mem_on_iff.mp hr with hold | rfl
      · obtain ⟨j, call, hj, rfl⟩ := h.owned r hold hevent
        -- the new call is none of the old ones
        have hji : j ≠ i := by
          rintro rfl
          rw [hnone] at hj
          cases hj
        exact ⟨j, call, (WaitState.setCall_of_ne hji).trans hj, rfl⟩
      · exact ⟨i, _, WaitState.setCall_self, rfl⟩
    · by_cases hji : j = i
      · subst hji
        obtain rfl : ProvableCall.new hashString = call :=
          Option.some.inj (WaitState.setCall_self.symm.trans hj)
        show Followed s.committed (Function.update s.queries j .sent j) s.events _ _
        rw [Function.update_self]
        exact followed_new hashString (EventEmitter.mem_on_iff.mpr (Or.inr rfl))
      · show Followed s.committed (Function.update s.queries i .sent j) s.events _ call
        rw [Function.update_of_ne hji]
        have hold := h.calls j call ((WaitState.setCall_of_ne hji).symm.trans hj)
        exact hold.of_listening fun hl => EventEmitter.mem_on_iff.mpr (Or.inl hl)
  · exact h

/-- **A commit** sends its event. -/
theorem Sound.step_commit (h : Sound s) (hashString : String) (payload : Payload) :
    Sound (s.step (.commit hashString payload)) := by
  rw [step]
  split_ifs with hnew
  · -- a transaction is committed once
    have hmono : ∀ hash payload', s.committed hash = some payload' →
        Function.update s.committed hashString (some payload) hash = some payload' := by
      intro hash payload' hcommitted
      rw [Function.update_of_ne ?_]
      · exact hcommitted
      · rintro rfl
        rw [hnew.2] at hcommitted
        cases hcommitted
    refine ⟨h.owned, ?_, ?_, fun i call hi => ?_⟩
    · show Function.update s.committed hashString (some payload) "" = none
      rw [Function.update_of_ne (Ne.symm hnew.1)]
      exact h.noEmptyHash
    · intro message hmem
      rcases List.mem_append.mp hmem with hold | hlast
      · obtain ⟨hash, payload', hcommitted, rfl⟩ := h.events message hold
        exact ⟨hash, payload', hmono hash payload' hcommitted, rfl⟩
      · rw [List.mem_singleton] at hlast
        exact ⟨hashString, payload, Function.update_self _ _ _, hlast⟩
    · refine (h.calls i call hi).commit (hmono call.hashString) ?_
        fun message hmem => List.mem_append_left _ hmem
      intro payload' hcommitted
      change Function.update s.committed hashString (some payload) call.hashString = _ at hcommitted
      by_cases hhash : call.hashString = hashString
      · rw [hhash, Function.update_self] at hcommitted
        cases hcommitted
        rw [hhash]
        exact Or.inr (List.mem_append_right _ List.mem_cons_self)
      · rw [Function.update_of_ne hhash] at hcommitted
        exact Or.inl hcommitted
  · exact h

/-- **A query is evaluated** by what is committed. -/
theorem Sound.step_evaluate (h : Sound s) (i : ℕ) (message : Option String) :
    Sound (s.step (.evaluate i message)) := by
  rw [step]
  split
  · rename_i call hquery hcall
    refine ⟨h.owned, h.noEmptyHash, h.events, fun j call₁ hj => ?_⟩
    by_cases hji : j = i
    · subst hji
      obtain rfl : call = call₁ := Option.some.inj (hcall.symm.trans hj)
      have hsent := h.calls j call hcall
      rw [hquery] at hsent
      show Followed s.committed (Function.update s.queries j _ j) s.events _ call
      rw [Function.update_self]
      refine hsent.evaluate ?_ ?_
      · unfold NodeState.evaluate
        cases hcommitted : s.committed call.hashString with
        | some payload => exact .found payload hcommitted
        | none => exact .notFound message
      · intro payload hcommitted
        unfold NodeState.evaluate
        rw [hcommitted]
    · show Followed s.committed (Function.update s.queries i _ j) s.events _ call₁
      rw [Function.update_of_ne hji]
      exact h.calls j call₁ hj
  · exact h

/-- An answer concerns its own call. -/
theorem Sound.answer (h : Sound s) {i : ℕ}
    (answer : Except RequestFailure (RpcResponse TxQueryResult)) (query : TxQuery)
    (hfollowed : ∀ call, s.service.calls i = some call → Followed s.committed query s.events
      (WaitState.IsListening s.service.toHeightState i call.hashString)
      { call with response := call.response.resolve (Promise.ofExcept answer) }) :
    Sound { s with
      service := s.service.answer i answer
      queries := Function.update s.queries i query } := by
  unfold WaitState.answer
  cases hcall : s.service.calls i with
  | none =>
      refine ⟨h.owned, h.noEmptyHash, h.events, fun j call₁ hj => ?_⟩
      have hji : j ≠ i := by
        rintro rfl
        cases hcall.symm.trans hj
      show Followed s.committed (Function.update s.queries i _ j) s.events _ call₁
      rw [Function.update_of_ne hji]
      exact h.calls j call₁ hj
  | some call =>
      refine h.setCall hcall (by rfl) (fun _ hr _ => hr)
        (fun _ _ _ hl => hl) (Function.update s.queries i query)
        (fun j hji => Function.update_of_ne hji _ _) ?_
      rw [Function.update_self]
      exact hfollowed call hcall

/-- **An answer is delivered.** -/
theorem Sound.step_deliverAnswer (h : Sound s) (i : ℕ) : Sound (s.step (.deliverAnswer i)) := by
  rw [step]
  split
  · rename_i response hquery
    refine h.answer (.ok response) .delivered fun call hcall => ?_
    have hfollowed := h.calls i call hcall
    rw [hquery] at hfollowed
    exact hfollowed.answer
  · exact h

/-- **A request fails.** -/
theorem Sound.step_failAnswer (h : Sound s) (i : ℕ)
    (answer : Except RequestFailure (RpcResponse TxQueryResult)) :
    Sound (s.step (.failAnswer i answer)) := by
  rw [step]
  split
  · rename_i failure hanswer
    split_ifs with hquery
    · exact h.answer answer (.failed failure) fun call hcall =>
        (h.calls i call hcall).fail hquery hanswer
    · exact h
  · exact h

/-- **An event is delivered** to the calls that wait for its transaction. -/
theorem Sound.step_deliverEvent (h : Sound s) (message : TxMessage) :
    Sound (s.step (.deliverEvent message)) := by
  rw [step]
  split_ifs with hmem
  · obtain ⟨hashString, payload, hcommitted, rfl⟩ := h.events message hmem
    have hzero : hashString ≠ "" := by
      rintro rfl
      rw [h.noEmptyHash] at hcommitted
      cases hcommitted
    have hhash : (payload.txMessage hashString).hashString = some hashString := if_neg hzero
    have hservice : s.service.step (.tx (payload.txMessage hashString)) =
        s.service.emitTransaction hashString (payload.txMessage hashString).txResult := by
      show s.service.receiveTransaction _ = _
      unfold WaitState.receiveTransaction
      rw [hhash]
    simp only [hservice]
    obtain ⟨howned, hemitted⟩ :=
      h.owned.emitTransaction hashString (payload.txMessage hashString).txResult
    refine ⟨howned, h.noEmptyHash, ?_, fun i call' hi => ?_⟩
    · exact fun message hmessage => h.events message (List.mem_of_mem_erase hmessage)
    · obtain ⟨call, hcall, heq⟩ := hemitted i call' hi
      have hfollowed := h.calls i call hcall
      rcases heq with ⟨rfl, hlisten⟩ | ⟨hfor, rfl⟩
      · refine (hfollowed.erase ?_ ?_).of_listening hlisten
        · -- a call that listens for the event would have been served
          intro hpending hfor hl
          rw [hhash] at hfor
          cases hfor
          obtain ⟨call', hi', hne⟩ := WaitState.ne_pending_emitTransaction hcall hl
          rw [hi] at hi'
          cases hi'
          exact hne hpending
        · intro hempty
          rw [hempty]
          exact h.noEmptyHash
      · have hcommitted' : s.committed call.hashString = some payload := by
          rw [hfor]
          exact hcommitted
        exact hfollowed.handle hcommitted'
  · exact h

/-- **A timer** concerns its own call. -/
theorem Sound.step_timeout (h : Sound s) (i : ℕ) : Sound (s.step (.timeout i)) := by
  show Sound { s with service := s.service.expire i }
  unfold WaitState.expire
  cases hcall : s.service.calls i with
  | none => exact h
  | some call =>
      refine h.setCall hcall (by rfl) (fun r hr _ => EventEmitter.mem_of_mem_removeListener hr)
        (fun j hji hash hl => ?_) s.queries (fun _ _ => rfl) (h.calls i call hcall).expire
      exact (WaitState.isListening_detach_of_ne hji _ _ _).mpr hl

/-- A reaction to a promise. -/
theorem Sound.step_job (h : Sound s) (i : ℕ) (job : Job) : Sound (s.step (.job i job)) := by
  show Sound { s with service := s.service.runJob i job }
  unfold WaitState.runJob
  cases hcall : s.service.calls i with
  | none => exact h
  | some call =>
      have hhash :=
        WaitState.react_hashString (WaitState.isReached i s.service.toHeightState) call job
      refine h.setCall hcall hhash (fun r hr hne => WaitState.mem_of_mem_effect hne hr)
        (fun j hji hash => (WaitState.isListening_effect_of_ne hji job).mpr) s.queries
        (fun _ _ => rfl) ?_
      rw [hhash]
      refine (h.calls i call hcall).react _ job fun hl => ?_
      have hne : (registration i call.hashString).event ≠ .newBlock := by
        unfold registration
        simp
      rcases WaitState.mem_effect hne i call job s.service.toHeightState with hmem | ⟨-, hd⟩
      · exact Or.inl (hmem.mpr hl)
      · exact Or.inr hd

/-- A block is announced. -/
theorem Sound.step_newBlock (h : Sound s) (height : ℕ) : Sound (s.step (.newBlock height)) := by
  have hmem : ∀ r : Registration ChainEvent ChainListener, r.event ≠ .newBlock →
      (r ∈ (s.service.toHeightState.emitNewBlock height).blockchainListener.registrations ↔
        r ∈ s.service.blockchainListener.registrations) :=
    fun r hr => HeightState.mem_registrations_emitNewBlock hr
  refine ⟨fun r hr hne => h.owned r ((hmem r hne).mp hr) hne, h.noEmptyHash, h.events,
    fun i call hi => (h.calls i call hi).of_listening (hmem _ ?_).mpr⟩
  unfold registration
  simp

/-- **Every step keeps the invariant.** -/
theorem Sound.step (h : Sound s) (a : Action) : Sound (s.step a) := by
  cases a with
  | call i hashString => exact h.step_call i hashString
  | commit hashString payload => exact h.step_commit hashString payload
  | evaluate i message => exact h.step_evaluate i message
  | deliverAnswer i => exact h.step_deliverAnswer i
  | failAnswer i answer => exact h.step_failAnswer i answer
  | deliverEvent message => exact h.step_deliverEvent message
  | newBlock height => exact h.step_newBlock height
  | timeout i => exact h.step_timeout i
  | job i job => exact h.step_job i job

/-- The invariant holds before any call. -/
theorem initial_sound : Sound initial where
  owned := fun r hr hne => by
    obtain rfl : r = ⟨.newBlock, .setCurrentHeight, false⟩ := List.mem_singleton.mp hr
    exact absurd rfl hne
  noEmptyHash := rfl
  events := fun message hmem => absurd hmem List.not_mem_nil
  calls := fun i call hi => by cases hi

/-- **The invariant of every run.** -/
theorem run_sound (as : List Action) : Sound (run initial as) :=
  Machine.run_invariant (fun _ a h => h.step a) initial_sound as

/-- A query that has not failed before fails only by an answer to it. -/
theorem queries_step (s : NodeState) (a : Action) (i : ℕ) :
    (s.step a).queries i = s.queries i ∨
      (∀ failure, (s.step a).queries i ≠ .failed failure) ∨
      ∃ answer failure, a = .failAnswer i answer ∧ readAnswer answer = .error failure ∧
        (s.step a).queries i = .failed failure := by
  -- a query of the call `j` moves to another state
  have hmove : ∀ (j : ℕ) (query : TxQuery),
      Function.update s.queries j query i = s.queries i ∨
        (i = j ∧ Function.update s.queries j query i = query) := by
    intro j query
    by_cases hij : i = j
    · subst hij
      exact Or.inr ⟨rfl, Function.update_self _ _ _⟩
    · exact Or.inl (Function.update_of_ne hij _ _)
  cases a with
  | call j hashString =>
      rw [step]
      split_ifs
      · exact (hmove j .sent).imp_right fun h => Or.inl fun failure hf => by cases h.2.symm.trans hf
      · exact Or.inl rfl
  | commit hashString payload =>
      rw [step]
      split_ifs <;> exact Or.inl rfl
  | evaluate j message =>
      rw [step]
      split
      · exact (hmove j _).imp_right fun h => Or.inl fun failure hf => by cases h.2.symm.trans hf
      · exact Or.inl rfl
  | deliverAnswer j =>
      rw [step]
      split
      · exact (hmove j .delivered).imp_right fun h =>
          Or.inl fun failure hf => by cases h.2.symm.trans hf
      · exact Or.inl rfl
  | failAnswer j answer =>
      rw [step]
      split
      · rename_i failure hanswer
        split_ifs
        · refine (hmove j (.failed failure)).imp_right fun h => Or.inr ?_
          exact ⟨answer, failure, by rw [h.1], hanswer, h.2⟩
        · exact Or.inl rfl
      · exact Or.inl rfl
  | deliverEvent message =>
      rw [step]
      split_ifs <;> exact Or.inl rfl
  | _ => exact Or.inl rfl

/-- **A request fails by an answer.** -/
theorem exists_failAnswer (as : List Action) : ∀ i failure,
    (run initial as).queries i = .failed failure →
      ∃ answer, .failAnswer i answer ∈ as ∧ readAnswer answer = .error failure := by
  refine Machine.run_induction (P := fun as (s : NodeState) => ∀ i failure,
    s.queries i = .failed failure →
      ∃ answer, Action.failAnswer i answer ∈ as ∧ readAnswer answer = .error failure)
    (fun _ _ h => by cases h) ?_ as
  intro as a ih i failure hfailed
  rcases queries_step (run initial as) a i with heq | hne | ⟨answer, failure', rfl, hanswer, heq⟩
  · obtain ⟨answer, hmem, hanswer⟩ := ih i failure (heq.symm.trans hfailed)
    exact ⟨answer, List.mem_append_left _ hmem, hanswer⟩
  · exact absurd hfailed (hne failure)
  · obtain rfl : failure' = failure := by simpa using heq.symm.trans hfailed
    exact ⟨answer, List.mem_append_right _ List.mem_cons_self, hanswer⟩

/-! ## No committed result is missed -/

/-- When nothing is in flight and no reaction is due, the race is decided. -/
theorem Followed.ne_pending (h : Followed committed query events isListening call)
    {isReached : Bool} (hreactions : ∀ job, call.react isReached job = call)
    {payload : Payload} (hcommitted : committed call.hashString = some payload)
    (hquery : ¬ query.IsInFlight) (hunfailed : ∀ failure, query ≠ .failed failure)
    (hevents : events = []) (htimeout : call.timeout = .pending) :
    call.transactionResult ≠ .pending := by
  -- no reaction is due, so each promise has taken over the one before it
  have hchain : call.existing = call.readResponse :=
    h.existing.eq_of_resolve_eq (congrArg ProvableCall.existing (hreactions .readResponse))
  have hdetached : call.detached = call.existing.thenDo .fulfilled :=
    h.detached.eq_of_resolve_eq (congrArg ProvableCall.detached (hreactions .detachExisting))
  have hcaught : call.caught = catchOutcome call :=
    h.caught.eq_of_resolve_eq (congrArg ProvableCall.caught (hreactions .catchNotFound))
  have hraceExisting : call.transactionResult.race call.caught = call.transactionResult :=
    congrArg ProvableCall.transactionResult (hreactions .raceExisting)
  have hraceUpcoming : call.transactionResult.race call.upcoming = call.transactionResult :=
    congrArg ProvableCall.transactionResult (hreactions .raceUpcoming)
  rcases h.upcoming with hpending | ⟨_, result, -, -, hupcoming⟩
  · -- the event was missed, so the query has found the transaction
    have hfound : call.response = .fulfilled payload.foundResponse := by
      rcases h.informed payload hcommitted htimeout hpending with
        hevent | hsent | heval | hfound | ⟨failure, hfailed⟩
      · rw [hevents] at hevent
        exact absurd hevent List.not_mem_nil
      · rw [hsent] at hquery
        exact absurd trivial hquery
      · rw [heval] at hquery
        exact absurd trivial hquery
      · exact hfound
      · exact absurd hfailed (hunfailed failure)
    obtain ⟨result, hread, -⟩ := readResponse_found hfound
    have hcaught' : call.caught = .fulfilled result := by
      rw [hcaught, catchOutcome, hdetached, hchain, hread]
      rfl
    rw [hcaught'] at hraceExisting
    exact Promise.ne_pending_of_race_eq hraceExisting
  · rw [hupcoming] at hraceUpcoming
    exact Promise.ne_pending_of_race_eq hraceUpcoming

/-- **A committed result is never missed.**  In every run in which the node answers the query of a
call, for every order of the commit, the query, its answer, the event and the reactions: when no
message is in flight and the timer of the call has not fired, the call has the result of its
transaction if that is committed. -/
theorem committed_result (as : List Action) (i : ℕ) (call : ProvableCall) (payload : Payload)
    (hanswered : ∀ answer, .failAnswer i answer ∉ as)
    (hcall : (run initial as).service.calls i = some call)
    (hcommitted : (run initial as).committed call.hashString = some payload)
    (hquiet : (run initial as).Quiet i call) (htimeout : call.timeout = .pending) :
    ∃ result, call.transactionResult = .fulfilled result ∧ payload.HasResult result := by
  have hfollowed := (run_sound as).calls i call hcall
  have hunfailed : ∀ failure, (run initial as).queries i ≠ .failed failure := by
    intro failure hfailed
    obtain ⟨answer, hmem, -⟩ := exists_failAnswer as i failure hfailed
    exact hanswered answer hmem
  have hne := hfollowed.ne_pending hquiet.reactions hcommitted hquiet.query hunfailed
    hquiet.events htimeout
  rcases hfollowed.hasResultOf hunfailed with hpending | ⟨payload', result, hcommitted', hhas, heq⟩
  · exact absurd hpending hne
  · obtain rfl : payload = payload' := Option.some.inj (hcommitted.symm.trans hcommitted')
    exact ⟨result, heq, hhas⟩

/-- The commit comes between the evaluation of the query and the delivery of its answer. -/
def committedActions : List Action :=
  [.call 0 "AB", .evaluate 0 none, .commit "AB" ⟨⟨some 0, none⟩, 5, [1]⟩, .deliverAnswer 0,
    .job 0 .readResponse, .job 0 .detachExisting, .job 0 .catchNotFound,
    .deliverEvent ⟨some ["AB"], ⟨some ⟨some 0, none⟩, [1], 5⟩⟩, .job 0 .raceUpcoming,
    .job 0 .commitment]

/-- The call after that run. -/
def committedCall : ProvableCall where
  hashString := "AB"
  response := .fulfilled (notFoundResponse none "AB")
  existing := .rejected (.request (.rpc ⟨-32603, "Internal error", some (notFoundData "AB")⟩))
  detached := .rejected (.request (.rpc ⟨-32603, "Internal error", some (notFoundData "AB")⟩))
  caught := .locked
  upcoming := .fulfilled ⟨.TransactionOkResult, some ⟨some 0, none⟩, 5, [1]⟩
  transactionResult := .fulfilled ⟨.TransactionOkResult, some ⟨some 0, none⟩, 5, [1]⟩
  awaited := some ⟨.TransactionOkResult, some ⟨some 0, none⟩, 5, [1]⟩
  provable := .pending
  timeout := .pending
  result := .pending

/-- The call has the result of the event. -/
theorem committed_result_notFound :
    (run initial committedActions).service.calls 0 = some committedCall ∧
      ∃ result, committedCall.transactionResult = .fulfilled result ∧
        Payload.HasResult ⟨⟨some 0, none⟩, 5, [1]⟩ result := by
  have hcall : (run initial committedActions).service.calls 0 = some committedCall := by
    decide +kernel
  refine ⟨hcall, committed_result committedActions 0 committedCall ⟨⟨some 0, none⟩, 5, [1]⟩
    (fun answer => by simp [committedActions]) hcall rfl ⟨id, rfl, fun job => ?_⟩ rfl⟩
  cases job <;> decide +kernel

end NodeState

end Dapi
