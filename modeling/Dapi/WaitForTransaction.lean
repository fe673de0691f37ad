/-
# Waiting for a transaction to be provable

`src/lib/externalApis/tenderdash/waitForTransactionToBeProvable/`
`waitForTransactionToBeProvableFactory.js` and `waitForTransactionResult.js`, with
`BlockchainListener.start`.

A call attaches a handler for the event of its transaction, requests an existing
result, and returns a race of two promises.  The first one is a chain: the race of
the existing and the upcoming result, then the height at which the result is
provable.  The second one is rejected by a timer.

* A `ProvableCall` has all promises of a call.  A reaction to a settled promise is a
  `Job`; the jobs that are due run in any order and at any time.
* Time is not modelled: the timer of a call may fire at any moment.
* `Provable` is the invariant of a call: what it is fulfilled with, a `NEW_BLOCK`
  event was high enough for.
* `returned_when_provable`: so are the results that are returned, in every run; and a
  call that was rejected stays so.
-/
import Dapi.AbciResult
import Dapi.Promise
import Dapi.Trace
import Dapi.WaitForHeight

namespace Dapi

/-! ## One call -/

/-- What a call is rejected with. -/
inductive WaitFailure
  | request (failure : RequestFailure)
  | transactionWaitPeriodExceeded (hashString : String)
  deriving DecidableEq

/-- `error.data` of the error for an unknown hash. -/
def notFoundData (hashString : String) : String := "tx (" ++ hashString ++ ") not found"

/-- Whether the failure says that the transaction is not found. -/
def isNotFound (hashString : String) : WaitFailure → Bool
  | .request (.rpc error) =>
    decide (error.code = -32603) && decide (error.data = some (notFoundData hashString))
  | _ => false

/-- A promise for the result of a transaction. -/
abbrev ResultPromise := Promise WaitFailure TransactionResult

/-- The promises of a call of `waitForTransactionToBeProvable`. -/
structure ProvableCall where
  hashString : String
  /-- `rpcClient.request('tx', params)` -/
  response : Promise RequestFailure (RpcResponse TxQueryResult)
  /-- `existingTransactionResultPromise` -/
  existing : ResultPromise
  /-- `existingTransactionResultPromise.then(...)` -/
  detached : ResultPromise
  /-- the same, with its `.catch(...)` -/
  caught : ResultPromise
  /-- `waitForTransactionResultPromise` -/
  upcoming : ResultPromise
  /-- `transactionResultPromise` -/
  transactionResult : ResultPromise
  /-- the result, while `waitForHeight` is awaited -/
  awaited : Option TransactionResult
  /-- `transactionResultPromise.then(...)` -/
  provable : ResultPromise
  timeout : ResultPromise
  /-- the promise that is returned -/
  result : ResultPromise
  deriving DecidableEq

/-- The reactions of a call. -/
inductive Job
  | readResponse
  | detachExisting
  | catchNotFound
  | raceExisting
  | raceUpcoming
  | commitment
  | heightReached
  | raceProvable
  | raceTimeout
  deriving DecidableEq

namespace ProvableCall

/-- A call that was just made. -/
def new (hashString : String) : ProvableCall :=
  ⟨hashString, .pending, .pending, .pending, .pending, .pending, .pending, none, .pending,
    .pending, .pending⟩

/-- What `getExistingTransactionResult` returns or throws, once its request is answered. -/
def readResponse (call : ProvableCall) : ResultPromise :=
  match call.response with
  | .fulfilled response =>
    match readTransactionResult response with
    | .ok result => .fulfilled result
    | .error failure => .rejected (.request failure)
  | .rejected failure => .rejected (.request failure)
  | .pending | .locked => .pending

/-- The start of the reaction to `transactionResultPromise`, up to the `await`. -/
def commit (call : ProvableCall) : ProvableCall :=
  match call.awaited, call.transactionResult with
  | none, .fulfilled result =>
    if result.resultClass = .TransactionOkResult then { call with awaited := some result }
    else { call with provable := call.provable.resolve (.fulfilled result) }
  | none, .rejected failure => { call with provable := call.provable.resolve (.rejected failure) }
  | _, _ => call

/-- The rest of it, once the height is reached. -/
def continueCommitment (isReached : Bool) (call : ProvableCall) : ProvableCall :=
  match call.awaited with
  | some result =>
    if isReached then { call with provable := call.provable.resolve (.fulfilled result) } else call
  | none => call

/-- What a job does to the promises of the call. -/
def react (isReached : Bool) (call : ProvableCall) : Job → ProvableCall
  | .readResponse => { call with existing := call.existing.resolve call.readResponse }
  | .detachExisting =>
    { call with detached := call.detached.resolve (call.existing.thenDo .fulfilled) }
  | .catchNotFound =>
    { call with
      caught := call.caught.resolve (call.detached.catchDo fun error =>
        if isNotFound call.hashString error then .locked else .rejected error) }
  | .raceExisting => { call with transactionResult := call.transactionResult.race call.caught }
  | .raceUpcoming => { call with transactionResult := call.transactionResult.race call.upcoming }
  | .commitment => call.commit
  | .heightReached => call.continueCommitment isReached
  | .raceProvable => { call with result := call.result.race call.provable }
  | .raceTimeout => { call with result := call.result.race call.timeout }

end ProvableCall

/-! ## All calls -/

/-- The calls, with the blockchain listener and `waitForHeight` that they share. -/
structure WaitState extends HeightState where
  calls : ℕ → Option ProvableCall

/-- A message of the `Tx` subscription: `events['tx.hash']`, when it is an array, and
`data.value.TxResult`. -/
structure TxMessage where
  hashes : Option (List String)
  txResult : TxResult
  deriving DecidableEq

/-- The hash that `BlockchainListener` reads in a message, when there is one. -/
def TxMessage.hashString (message : TxMessage) : Option String :=
  match message.hashes with
  | some (hashString :: _) => if hashString = "" then none else some hashString
  | _ => none

namespace WaitState

/-- The service, before any call. -/
def initial : WaitState where
  toHeightState := .waitForHeightFactory .empty
  calls := fun _ => none

/-- The call number `i` is replaced. -/
def setCall (i : ℕ) (call : ProvableCall) (s : WaitState) : WaitState :=
  { s with calls := Function.update s.calls i (some call) }

/-- `detachTransactionResult()` -/
def detach (i : ℕ) (hashString : String) (s : HeightState) : HeightState :=
  { s with
    blockchainListener :=
      s.blockchainListener.removeListener (.transaction hashString) (.transactionHandler i) }

/-- The call of `waitForTransactionToBeProvable`. -/
def waitForTransactionToBeProvable (i : ℕ) (hashString : String) (s : WaitState) : WaitState :=
  WaitState.setCall i (.new hashString)
    { s with
      blockchainListener :=
        s.blockchainListener.on (.transaction hashString) (.transactionHandler i) }

/-- The handler of `waitForTransactionResult`. -/
def handleTransaction (i : ℕ) (txResult : TxResult) (s : WaitState) : WaitState :=
  match s.calls i with
  | some call =>
    WaitState.setCall i
      { call with upcoming := call.upcoming.resolve (.fulfilled (handleTxResult txResult)) }
      { s with toHeightState := detach i call.hashString s.toHeightState }
  | none => s

/-- One listener for transactions runs; those for blocks take no notice. -/
def runListener (txResult : TxResult) (listener : ChainListener) (s : WaitState) : WaitState :=
  match listener with
  | .transactionHandler i => s.handleTransaction i txResult
  | .setCurrentHeight | .heightHandler _ => s

/-- `blockchainListener.emit(BlockchainListener.getTransactionEventName(hashString), message)` -/
def emitTransaction (hashString : String) (txResult : TxResult) (s : WaitState) : WaitState :=
  EventEmitter.emit (fun s => s.blockchainListener)
    (fun blockchainListener s => { s with blockchainListener }) (runListener txResult)
    (.transaction hashString) s

/-- The listener of `BlockchainListener.start` for the `Tx` query. -/
def receiveTransaction (message : TxMessage) (s : WaitState) : WaitState :=
  match message.hashString with
  | some hashString => s.emitTransaction hashString message.txResult
  | none => s

/-- The timer of a call. -/
def expire (i : ℕ) (s : WaitState) : WaitState :=
  match s.calls i with
  | some call =>
    WaitState.setCall i
      { call with
        timeout := call.timeout.resolve
          (.rejected (.transactionWaitPeriodExceeded call.hashString)) }
      { s with toHeightState := detach i call.hashString s.toHeightState }
  | none => s

/-- What a job does beside the promises: a reaction detaches the handler, another one calls
`waitForHeight`. -/
def effect (i : ℕ) (call : ProvableCall) (job : Job) (s : HeightState) : HeightState :=
  match job with
  | .detachExisting =>
    match call.detached, call.existing with
    | .pending, .fulfilled _ => detach i call.hashString s
    | _, _ => s
  | .commitment =>
    match call.awaited, call.transactionResult with
    | none, .fulfilled result =>
      if result.resultClass = .TransactionOkResult then s.waitForHeight i (result.height + 1)
      else s
    | _, _ => s
  | _ => s

/-- Whether `waitForHeight` has resolved the promise of call `i`. -/
def isReached (i : ℕ) (s : HeightState) : Bool := (s.waits i).any HeightWait.isResolved

/-- A reaction of call number `i` runs: on its promises, and on the shared part of the state. -/
def runJob (i : ℕ) (job : Job) (s : WaitState) : WaitState :=
  match s.calls i with
  | some call =>
    WaitState.setCall i (call.react (isReached i s.toHeightState) job)
      { s with toHeightState := effect i call job s.toHeightState }
  | none => s

/-- What can happen to the service. -/
inductive Action
  | call (i : ℕ) (hashString : String)
  | answer (i : ℕ) (answer : Except RequestFailure (RpcResponse TxQueryResult))
  | tx (message : TxMessage)
  | newBlock (height : ℕ)
  | timeout (i : ℕ)
  | job (i : ℕ) (job : Job)

/-- The answer of a request arrives. -/
def answer (i : ℕ) (answer : Except RequestFailure (RpcResponse TxQueryResult)) (s : WaitState) :
    WaitState :=
  match s.calls i with
  | some call =>
    s.setCall i { call with response := call.response.resolve (Promise.ofExcept answer) }
  | none => s

/-- The state after an action. -/
def step (s : WaitState) : Action → WaitState
  | .call i hashString =>
    if s.calls i = none then s.waitForTransactionToBeProvable i hashString else s
  | .answer i answer => s.answer i answer
  | .tx message => s.receiveTransaction message
  | .newBlock height => { s with toHeightState := s.toHeightState.emitNewBlock height }
  | .timeout i => s.expire i
  | .job i job => s.runJob i job

/-- A run of the service. -/
abbrev run : WaitState → List Action → WaitState := Machine.run step

/-- The heights of the `NEW_BLOCK` events. -/
def heights (as : List Action) : List ℕ :=
  as.filterMap fun a =>
    match a with
    | .newBlock height => some height
    | _ => none

/-! ## How a call changes -/

/-- What can happen to the promises of a call. -/
inductive CallChange (call : ProvableCall) : ProvableCall → Prop
  | answered (answer : Except RequestFailure (RpcResponse TxQueryResult)) :
    CallChange call { call with response := call.response.resolve (Promise.ofExcept answer) }
  | handled (txResult : TxResult) :
    CallChange call
      { call with upcoming := call.upcoming.resolve (.fulfilled (handleTxResult txResult)) }
  | expired :
    CallChange call
      { call with
        timeout := call.timeout.resolve
          (.rejected (.transactionWaitPeriodExceeded call.hashString)) }
  | reacted (isReached : Bool) (job : Job) : CallChange call (call.react isReached job)

/-- A call is there, and has changed in some of these ways. -/
def Changed (call : ProvableCall) (i : ℕ) (s : WaitState) : Prop :=
  ∃ call', s.calls i = some call' ∧ Relation.ReflTransGen CallChange call call'

variable {s : WaitState} {call call' : ProvableCall} {i j : ℕ} {hs : HeightState}

@[simp] theorem setCall_self : (s.setCall i call).calls i = some call :=
  Function.update_self i _ _

theorem setCall_of_ne (h : j ≠ i) : (s.setCall i call).calls j = s.calls j :=
  Function.update_of_ne h _ _

theorem changed_self (h : s.calls i = some call) : Changed call i s := ⟨call, h, .refl⟩

/-- Some call changes. -/
theorem Changed.setCall (h : Changed call i s) {call₁ call₂ : ProvableCall}
    (hj : s.calls j = some call₁) (hchange : CallChange call₁ call₂) :
    Changed call i (WaitState.setCall j call₂ { s with toHeightState := hs }) := by
  obtain ⟨call', hcall', hsteps⟩ := h
  by_cases hij : i = j
  · subst hij
    obtain rfl : call₁ = call' := Option.some.inj (hj.symm.trans hcall')
    exact ⟨call₂, setCall_self, hsteps.tail hchange⟩
  · exact ⟨call', (setCall_of_ne hij).trans hcall', hsteps⟩

/-- An event changes a call as calls change. -/
theorem Changed.emitTransaction (h : Changed call i s) (hashString : String)
    (txResult : TxResult) : Changed call i (s.emitTransaction hashString txResult) := by
  refine EventEmitter.emit_invariant (I := Changed call i) (fun _ _ _ h => h) ?_ h
  intro l s h
  cases l with
  | transactionHandler j =>
      show Changed call i (s.handleTransaction j txResult)
      unfold handleTransaction
      cases hj : s.calls j with
      | none => exact h
      | some call₁ => exact h.setCall hj (.handled txResult)
  | setCurrentHeight => exact h
  | heightHandler j => exact h

/-- **A step changes a call in these ways only.** -/
theorem Changed.step (h : Changed call i s) (a : Action) : Changed call i (s.step a) := by
  cases a with
  | call j hashString =>
      unfold WaitState.step
      simp only
      split_ifs with hnone
      · obtain ⟨call', hcall', hsteps⟩ := h
        have hij : i ≠ j := by
          rintro rfl
          rw [hnone] at hcall'
          cases hcall'
        exact ⟨call', (setCall_of_ne hij).trans hcall', hsteps⟩
      · exact h
  | answer j answer =>
      show Changed call i (s.answer j answer)
      unfold WaitState.answer
      cases hj : s.calls j with
      | none => exact h
      | some call₁ => exact h.setCall hj (.answered answer)
  | tx message =>
      show Changed call i (s.receiveTransaction message)
      unfold receiveTransaction
      cases message.hashString with
      | none => exact h
      | some hashString => exact h.emitTransaction hashString message.txResult
  | newBlock height => exact h
  | timeout j =>
      show Changed call i (s.expire j)
      unfold expire
      cases hj : s.calls j with
      | none => exact h
      | some call₁ => exact h.setCall hj .expired
  | job j job =>
      show Changed call i (s.runJob j job)
      unfold runJob
      cases hj : s.calls j with
      | none => exact h
      | some call₁ => exact h.setCall hj (.reacted _ job)

/-- A run changes a call as calls change. -/
theorem Changed.run (h : Changed call i s) (as : List Action) : Changed call i (run s as) :=
  Machine.run_invariant (fun _ a h => h.step a) h as

/-- **The ways in which the commitment starts**: it awaits the height of an Ok result, or it is
over, or it is not due. -/
theorem commit_cases (i : ℕ) (call : ProvableCall) (hs : HeightState) :
    (∃ result, call.transactionResult = .fulfilled result ∧ call.awaited = none ∧
        result.resultClass = .TransactionOkResult ∧
        call.commit = { call with awaited := some result } ∧
        effect i call .commitment hs = hs.waitForHeight i (result.height + 1)) ∨
      (∃ outcome, call.transactionResult = outcome ∧ call.awaited = none ∧
        (∀ result, outcome = .fulfilled result → result.resultClass ≠ .TransactionOkResult) ∧
        call.commit = { call with provable := call.provable.resolve outcome } ∧
        effect i call .commitment hs = hs) ∨
      (call.commit = call ∧ effect i call .commitment hs = hs) := by
  unfold ProvableCall.commit effect
  simp only
  split
  · rename_i result hawaited houtcome
    split_ifs with hok
    · refine Or.inl ⟨result, houtcome, hawaited, hok, rfl, ?_⟩
      rw [hawaited, houtcome]
      exact if_pos hok
    · refine Or.inr (Or.inl ⟨.fulfilled result, houtcome, hawaited, ?_, rfl, ?_⟩)
      · rintro result' heq
        cases heq
        exact hok
      · rw [hawaited, houtcome]
        exact if_neg hok
  · rename_i failure hawaited houtcome
    refine Or.inr (Or.inl ⟨.rejected failure, houtcome, hawaited, ?_, rfl, ?_⟩)
    · rintro result' heq
      cases heq
    · rw [hawaited, houtcome]
  · rename_i hno hno'
    refine Or.inr (Or.inr ⟨rfl, ?_⟩)
    split
    · rename_i result hawaited houtcome
      exact absurd houtcome (hno result hawaited)
    · rfl

/-- The rest of the commitment is due when the height is reached. -/
theorem continueCommitment_cases (isReached : Bool) (call : ProvableCall) :
    (∃ result, call.awaited = some result ∧ isReached = true ∧
        call.continueCommitment isReached =
          { call with provable := call.provable.resolve (.fulfilled result) }) ∨
      call.continueCommitment isReached = call := by
  unfold ProvableCall.continueCommitment
  split
  · rename_i result hawaited
    split_ifs with hreached
    · exact Or.inl ⟨result, hawaited, hreached, rfl⟩
    · exact Or.inr rfl
  · exact Or.inr rfl

/-- The commitment changes the end of the chain only. -/
theorem exists_commit (call : ProvableCall) : ∃ awaited provable,
    call.commit = { call with awaited := awaited, provable := provable } := by
  unfold ProvableCall.commit
  split
  · split_ifs
    · exact ⟨_, _, rfl⟩
    · exact ⟨_, _, rfl⟩
  · exact ⟨_, _, rfl⟩
  · exact ⟨_, _, rfl⟩

/-- The commitment decides about the wait for the height only. -/
theorem exists_continueCommitment (isReached : Bool) (call : ProvableCall) : ∃ provable,
    call.continueCommitment isReached = { call with provable := provable } := by
  rcases continueCommitment_cases isReached call with ⟨result, -, -, heq⟩ | heq
  · exact ⟨_, heq⟩
  · exact ⟨_, heq⟩

/-- The returned promise is settled at most once. -/
theorem CallChange.extends_result (h : CallChange call call') :
    Promise.Extends call.result call'.result := by
  cases h with
  | reacted isReached job =>
      cases job with
      | commitment =>
          obtain ⟨awaited, provable, heq⟩ := exists_commit call
          right
          show call.commit.result = call.result
          rw [heq]
      | heightReached =>
          obtain ⟨provable, heq⟩ := exists_continueCommitment isReached call
          right
          show (call.continueCommitment isReached).result = call.result
          rw [heq]
      | raceProvable => exact Promise.extends_race _ _
      | raceTimeout => exact Promise.extends_race _ _
      | _ => exact .refl _
  | _ => exact .refl _

/-- **A call that is settled stays so.** -/
theorem Changed.result_eq (h : Changed call i s) (hsettled : call.result ≠ .pending) :
    ∃ call', s.calls i = some call' ∧ call'.result = call.result := by
  obtain ⟨call', hcall', hsteps⟩ := h
  refine ⟨call', hcall', ?_⟩
  have hext : Promise.Extends call.result call'.result := by
    clear hcall'
    induction hsteps with
    | refl => exact .refl _
    | tail _ hchange ih => exact ih.trans hchange.extends_result
  exact hext.eq_of_ne hsettled

/-! ## What is returned is provable -/

/-- A height was heard of at which an Ok result is provable. -/
def Reached (heights : List ℕ) (result : TransactionResult) : Prop :=
  result.resultClass = .TransactionOkResult → ∃ height ∈ heights, result.height + 1 ≤ height

/-- The invariant of a call. -/
structure Provable (heights : List ℕ) (waits : ℕ → Option HeightWait) (i : ℕ)
    (call : ProvableCall) : Prop where
  awaited : ∀ result, call.awaited = some result →
    ∃ wait, waits i = some wait ∧ wait.height = result.height + 1
  provable : ∀ result, call.provable = .fulfilled result → Reached heights result
  timeout : ∀ result, call.timeout ≠ .fulfilled result
  result : ∀ result, call.result = .fulfilled result → Reached heights result

/-- The invariant of the service: the heights that were heard of, and all calls. -/
structure Sound (heights : List ℕ) (s : WaitState) : Prop where
  heard : HeightState.Heard heights s.currentHeight s.waits
  calls : ∀ i call, s.calls i = some call → Provable heights s.waits i call

variable {heights : List ℕ} {waits waits' : ℕ → Option HeightWait}

theorem provable_new (hashString : String) : Provable heights waits i (.new hashString) := by
  constructor
  · intro result h
    cases h
  · intro result h
    cases h
  · intro result h
    cases h
  · intro result h
    cases h

theorem Provable.mono (h : Provable heights waits i call)
    (hkeeps : HeightState.Keeps waits waits' i) (hs : List ℕ) :
    Provable (heights ++ hs) waits' i call where
  awaited := fun result hawaited => by
    obtain ⟨wait, hwait, hheight⟩ := h.awaited result hawaited
    obtain ⟨wait', hwait', hheight', -⟩ := hkeeps wait hwait
    exact ⟨wait', hwait', hheight'.trans hheight⟩
  provable := fun result hresult hok => by
    obtain ⟨height, hmem, hle⟩ := h.provable result hresult hok
    exact ⟨height, List.mem_append_left _ hmem, hle⟩
  timeout := h.timeout
  result := fun result hresult hok => by
    obtain ⟨height, hmem, hle⟩ := h.result result hresult hok
    exact ⟨height, List.mem_append_left _ hmem, hle⟩

/-- The promise at the end of the chain is resolved with what is provable. -/
theorem Provable.resolve (h : Provable heights waits i call) {outcome : ResultPromise}
    (houtcome : ∀ result, outcome = .fulfilled result → Reached heights result) :
    Provable heights waits i { call with provable := call.provable.resolve outcome } := by
  refine ⟨h.awaited, fun result hresult => ?_, h.timeout, h.result⟩
  have hresult' : call.provable.resolve outcome = .fulfilled result := hresult
  rcases Promise.cases_resolve call.provable outcome with heq | heq
  · rw [heq] at hresult'
    exact h.provable result hresult'
  · rw [heq] at hresult'
    exact houtcome result hresult'

/-- The returned race follows one of its two contenders. -/
theorem Provable.race (h : Provable heights waits i call) {contender : ResultPromise}
    (hcontender : ∀ result, contender = .fulfilled result → Reached heights result) :
    Provable heights waits i { call with result := call.result.race contender } := by
  refine ⟨h.awaited, h.provable, h.timeout, fun result hresult => ?_⟩
  have hresult' : call.result.race contender = .fulfilled result := hresult
  rcases Promise.cases_race call.result contender with heq | heq
  · rw [heq] at hresult'
    exact h.result result hresult'
  · rw [heq] at hresult'
    exact hcontender result hresult'

/-- No other job calls `waitForHeight`. -/
theorem effect_waits {job : Job} (hjob : job ≠ .commitment) (i : ℕ) (call : ProvableCall)
    (hs : HeightState) : (effect i call job hs).currentHeight = hs.currentHeight ∧
      (effect i call job hs).waits = hs.waits := by
  cases job with
  | commitment => exact absurd rfl hjob
  | detachExisting =>
      unfold effect
      simp only
      split
      · exact ⟨rfl, rfl⟩
      · exact ⟨rfl, rfl⟩
  | _ => exact ⟨rfl, rfl⟩

/-- **A reaction keeps the invariant** of its call. -/
theorem Provable.react {hs : HeightState} (h : Provable heights hs.waits i call)
    (hheard : HeightState.Heard heights hs.currentHeight hs.waits) (job : Job) :
    Provable heights (effect i call job hs).waits i (call.react (isReached i hs) job) := by
  by_cases hjob : job = .commitment
  · subst hjob
    show Provable heights _ i call.commit
    rcases commit_cases i call hs with
      ⟨result, -, -, -, heq, heffect⟩ | ⟨outcome, -, -, hnot, heq, heffect⟩ | ⟨heq, heffect⟩
    · rw [heq, heffect]
      refine ⟨fun result' hawaited => ?_, h.provable, h.timeout, h.result⟩
      obtain rfl : result = result' := by simpa using hawaited
      exact HeightState.exists_waitForHeight i (result.height + 1)
    · rw [heq, heffect]
      exact h.resolve fun result hresult hok => absurd hok (hnot result hresult)
    · rw [heq, heffect]
      exact h
  · rw [(effect_waits hjob i call hs).2]
    cases job with
    | commitment => exact absurd rfl hjob
    | heightReached =>
        show Provable heights hs.waits i (call.continueCommitment (isReached i hs))
        rcases continueCommitment_cases (isReached i hs) call with ⟨result, hawaited, hr, heq⟩ | heq
        · rw [heq]
          -- the height that the call waited for is the one of its result
          apply h.resolve
          rintro result' heq' -
          cases heq'
          obtain ⟨wait, hwait, hheight⟩ := h.awaited result hawaited
          have hresolved : wait.isResolved = true := by
            unfold isReached at hr
            rwa [hwait] at hr
          rcases hheard.resolved i wait hwait hresolved with hzero | ⟨height, hmem, hle⟩
          · omega
          · exact ⟨height, hmem, hheight ▸ hle⟩
        · rw [heq]
          exact h
    | raceProvable => exact h.race h.provable
    | raceTimeout => exact h.race fun result hresult => absurd hresult (h.timeout result)
    | _ => exact ⟨h.awaited, h.provable, h.timeout, h.result⟩

/-- The effect of a job on the heights, and on what the other calls wait for. -/
theorem heard_effect {hs : HeightState}
    (hheard : HeightState.Heard heights hs.currentHeight hs.waits) (i : ℕ) (call : ProvableCall)
    (job : Job) :
    HeightState.Heard heights (effect i call job hs).currentHeight (effect i call job hs).waits ∧
      ∀ j, j ≠ i → (effect i call job hs).waits j = hs.waits j := by
  by_cases hjob : job = .commitment
  · subst hjob
    rcases commit_cases i call hs with
      ⟨result, -, -, -, -, heffect⟩ | ⟨_, -, -, -, -, heffect⟩ | ⟨-, heffect⟩
    · rw [heffect]
      exact ⟨hheard.waitForHeight i _, fun j hji => HeightState.waits_waitForHeight_of_ne hji _⟩
    · rw [heffect]
      exact ⟨hheard, fun _ _ => rfl⟩
    · rw [heffect]
      exact ⟨hheard, fun _ _ => rfl⟩
  · rw [(effect_waits hjob i call hs).1, (effect_waits hjob i call hs).2]
    exact ⟨hheard, fun _ _ => rfl⟩

/-- One call changes, and what the others wait for stays. -/
theorem Sound.setCall {hs : HeightState} (h : Sound heights s)
    (hheard : HeightState.Heard heights hs.currentHeight hs.waits)
    (hothers : ∀ j, j ≠ i → hs.waits j = s.waits j) (hcall : Provable heights hs.waits i call) :
    Sound heights (WaitState.setCall i call { s with toHeightState := hs }) := by
  refine ⟨hheard, fun j call' hj => ?_⟩
  by_cases hji : j = i
  · subst hji
    obtain rfl : call = call' := Option.some.inj (setCall_self.symm.trans hj)
    exact hcall
  · have hold := h.calls j call' ((setCall_of_ne hji).symm.trans hj)
    refine ⟨fun result hawaited => ?_, hold.provable, hold.timeout, hold.result⟩
    obtain ⟨wait, hwait, hheight⟩ := hold.awaited result hawaited
    exact ⟨wait, (hothers j hji).trans hwait, hheight⟩

/-- An event keeps the waits sound. -/
theorem Sound.emitTransaction (h : Sound heights s) (hashString : String) (txResult : TxResult) :
    Sound heights (s.emitTransaction hashString txResult) := by
  refine EventEmitter.emit_invariant (I := Sound heights) (fun _ _ _ h => ⟨h.heard, h.calls⟩) ?_ h
  intro l s h
  cases l with
  | transactionHandler j =>
      show Sound heights (s.handleTransaction j txResult)
      unfold handleTransaction
      cases hj : s.calls j with
      | none => exact h
      | some call =>
          have hcall := h.calls j call hj
          refine h.setCall h.heard (fun _ _ => rfl) ?_
          exact ⟨hcall.awaited, hcall.provable, hcall.timeout, hcall.result⟩
  | setCurrentHeight => exact h
  | heightHandler j => exact h

/-- **Every step keeps the invariant.** -/
theorem Sound.step (h : Sound heights s) (a : Action) :
    Sound (heights ++ WaitState.heights [a]) (s.step a) := by
  by_cases hblock : ∃ height, a = .newBlock height
  · obtain ⟨height, rfl⟩ := hblock
    refine ⟨h.heard.emitNewBlock height, fun i call hi => ?_⟩
    exact (h.calls i call hi).mono (HeightState.keeps_emitNewBlock s.toHeightState height i) _
  · -- no other action brings a height
    have hnone : WaitState.heights [a] = [] := by
      cases a with
      | newBlock height => exact absurd ⟨height, rfl⟩ hblock
      | _ => rfl
    rw [hnone, List.append_nil]
    cases a with
    | call i hashString =>
        unfold WaitState.step
        simp only
        split_ifs
        · exact h.setCall h.heard (fun _ _ => rfl) (provable_new hashString)
        · exact h
    | answer i answer =>
        show Sound heights (s.answer i answer)
        unfold WaitState.answer
        cases hi : s.calls i with
        | none => exact h
        | some call =>
            have hcall := h.calls i call hi
            refine h.setCall h.heard (fun _ _ => rfl) ?_
            exact ⟨hcall.awaited, hcall.provable, hcall.timeout, hcall.result⟩
    | tx message =>
        show Sound heights (s.receiveTransaction message)
        unfold receiveTransaction
        cases message.hashString with
        | none => exact h
        | some hashString => exact h.emitTransaction hashString message.txResult
    | newBlock height => exact absurd ⟨height, rfl⟩ hblock
    | timeout i =>
        show Sound heights (s.expire i)
        unfold expire
        cases hi : s.calls i with
        | none => exact h
        | some call =>
            have hcall := h.calls i call hi
            refine h.setCall h.heard (fun _ _ => rfl) ?_
            refine ⟨hcall.awaited, hcall.provable, fun result hresult => ?_, hcall.result⟩
            rcases Promise.cases_resolve call.timeout
              (.rejected (.transactionWaitPeriodExceeded call.hashString)) with heq | heq
            · exact hcall.timeout result (heq.symm.trans hresult)
            · cases heq.symm.trans hresult
    | job i job =>
        show Sound heights (s.runJob i job)
        unfold runJob
        cases hi : s.calls i with
        | none => exact h
        | some call =>
            obtain ⟨hheard, hothers⟩ := heard_effect h.heard i call job
            exact h.setCall hheard hothers ((h.calls i call hi).react h.heard job)

/-- **Every result is provable**, in every run. -/
theorem run_sound (as : List Action) : Sound (WaitState.heights as) (run initial as) := by
  refine Machine.run_induction (s := initial) (P := fun as s => Sound (WaitState.heights as) s)
    ?_ ?_ as
  · refine ⟨⟨Or.inl rfl, fun i wait h => ?_⟩, fun i call h => ?_⟩
    · cases h
    · cases h
  · intro as a h
    have happ : WaitState.heights (as ++ [a]) = WaitState.heights as ++ WaitState.heights [a] :=
      List.filterMap_append
    rw [happ]
    exact h.step a

/-- **A result that becomes Ok is returned only when it is provable.**  In every run, a call that
is fulfilled with an Ok result comes after a `NEW_BLOCK` event that was high enough for it; and a
call that is rejected stays rejected, however the run goes on. -/
theorem returned_when_provable (as : List Action) (i : ℕ) (call : ProvableCall)
    (hcall : (run initial as).calls i = some call) :
    (∀ result, call.result = .fulfilled result → result.resultClass = .TransactionOkResult →
        ∃ height, .newBlock height ∈ as ∧ result.height + 1 ≤ height) ∧
      ∀ failure, call.result = .rejected failure → ∀ bs, ∃ call',
        (run initial (as ++ bs)).calls i = some call' ∧ call'.result = .rejected failure := by
  constructor
  · intro result hresult hok
    obtain ⟨height, hmem, hle⟩ :=
      ((run_sound as).calls i call hcall).result result hresult hok
    obtain ⟨a, ha, hheight⟩ := List.mem_filterMap.mp hmem
    cases a with
    | newBlock height' =>
        obtain rfl : height' = height := by simpa using hheight
        exact ⟨height', ha, hle⟩
    | _ => cases hheight
  · intro failure hresult bs
    have hchanged := (changed_self hcall).run bs
    rw [← hresult, run, Machine.run_append]
    exact hchanged.result_eq (by rw [hresult]; simp)

/-- The event of a transaction comes, then the block after it. -/
def provableActions : List Action :=
  [.call 0 "AB", .tx ⟨some ["AB"], ⟨some ⟨some 0, none⟩, [1], 5⟩⟩, .job 0 .raceUpcoming,
    .job 0 .commitment, .newBlock 6, .job 0 .heightReached, .job 0 .raceProvable]

/-- The call returns after the block, and the one that timed out stays rejected. -/
theorem returned_when_provable_block :
    (∃ height, .newBlock height ∈ provableActions ∧ 5 + 1 ≤ height) ∧
      ∃ call', (run initial ([.call 0 "AB", .timeout 0, .job 0 .raceTimeout] ++
        provableActions.tail)).calls 0 = some call' ∧
          call'.result = .rejected (.transactionWaitPeriodExceeded "AB") := by
  constructor
  · exact (returned_when_provable provableActions 0 _ rfl).1
      ⟨.TransactionOkResult, some ⟨some 0, none⟩, 5, [1]⟩ rfl rfl
  · exact (returned_when_provable [.call 0 "AB", .timeout 0, .job 0 .raceTimeout] 0 _ rfl).2 _ rfl _

end WaitState

end Dapi
