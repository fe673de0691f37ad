/-
# What a wait returns

`src/lib/externalApis/tenderdash/waitForTransactionToBeProvable/`
`waitForTransactionToBeProvableFactory.js`, with the node of `CommittedTransactions`.

* `AllCalls.step` is the rule for what every change of a call keeps.
* `Returned` is the invariant of a call: its results fit their codes, and the promise
  that is returned follows one of its two contenders.
* `serviceActions`: the service with the node runs as the service alone, on the messages
  that arrive.
* `returned_result`: a call is settled only with the committed result of its
  transaction, when that is provable, with the failure of its own request, or by its
  own timer.
-/
import Dapi.SettledWaits

namespace Dapi

/-- The class of the result fits its code. -/
def TransactionResult.Classified (result : TransactionResult) : Prop :=
  match result.resultClass with
  | .TransactionOkResult =>
    ∀ deliverResult, result.deliverResult = some deliverResult →
      deliverResult.code = none ∨ deliverResult.code = some 0
  | .TransactionErrorResult =>
    ∃ deliverResult, result.deliverResult = some deliverResult ∧ deliverResult.code ≠ some 0

/-- So it does in the result of an event. -/
theorem classified_handleTxResult (txResult : TxResult) : (handleTxResult txResult).Classified := by
  unfold handleTxResult TransactionResult.Classified
  cases txResult.result with
  | none => simp
  | some deliverResult =>
      by_cases hnone : deliverResult.code = none
      · simp [hnone]
      · by_cases hzero : deliverResult.code = some 0
        · simp [hzero]
        · simp [hnone, hzero]

/-- So it does in an existing result. -/
theorem classified_readTransactionResult {response : RpcResponse TxQueryResult}
    {result : TransactionResult} (h : readTransactionResult response = .ok result) :
    result.Classified := by
  unfold readTransactionResult at h
  split at h
  · cases h
  · cases h
  · cases h
    unfold TransactionResult.Classified
    split
    · rename_i heq
      simp only [ite_eq_left_iff, reduceCtorEq, imp_false, not_not] at heq
      simp [heq]
    · rename_i heq
      simp only [ite_eq_right_iff, reduceCtorEq, imp_false] at heq
      simp [heq]

namespace WaitState

variable {s : WaitState} {call call' : ProvableCall} {i : ℕ}

/-! ## All calls -/

/-- All calls are of a kind. -/
def AllCalls (P : ProvableCall → Prop) (s : WaitState) : Prop :=
  ∀ i call, s.calls i = some call → P call

/-- A call is there only when it was made. -/
theorem calls_step_of_none (h : s.calls i = none) (a : Action) :
    (s.step a).calls i = none ∨
      ∃ hashString, a = .call i hashString ∧ (s.step a).calls i = some (.new hashString) := by
  cases a with
  | call j hashString =>
      unfold step
      simp only
      split_ifs
      · by_cases hij : i = j
        · subst hij
          exact Or.inr ⟨hashString, rfl, setCall_self⟩
        · exact Or.inl ((setCall_of_ne hij).trans h)
      · exact Or.inl h
  | answer j answer =>
      left
      show (s.answer j answer).calls i = none
      unfold WaitState.answer
      cases hj : s.calls j with
      | none => exact h
      | some call =>
          have hij : i ≠ j := fun heq => by cases (heq ▸ h).symm.trans hj
          exact (setCall_of_ne hij).trans h
  | tx message =>
      left
      show (s.receiveTransaction message).calls i = none
      unfold receiveTransaction
      cases message.hashString with
      | none => exact h
      | some hashString =>
          refine EventEmitter.emit_invariant (I := fun s' : WaitState => s'.calls i = none)
            (fun _ _ _ h => h) (fun l s' h => ?_) h
          cases l with
          | transactionHandler j =>
              show (s'.handleTransaction j message.txResult).calls i = none
              unfold handleTransaction
              cases hj : s'.calls j with
              | none => exact h
              | some call =>
                  have hij : i ≠ j := fun heq => by cases (heq ▸ h).symm.trans hj
                  exact (setCall_of_ne hij).trans h
          | _ => exact h
  | newBlock height => exact Or.inl h
  | timeout j =>
      left
      show (s.expire j).calls i = none
      unfold expire
      cases hj : s.calls j with
      | none => exact h
      | some call =>
          have hij : i ≠ j := fun heq => by cases (heq ▸ h).symm.trans hj
          exact (setCall_of_ne hij).trans h
  | job j job =>
      left
      show (s.runJob j job).calls i = none
      unfold runJob
      cases hj : s.calls j with
      | none => exact h
      | some call =>
          have hij : i ≠ j := fun heq => by cases (heq ▸ h).symm.trans hj
          exact (setCall_of_ne hij).trans h

/-- **Rule for the calls.**  What holds of a new call, and is kept by every change of a call, holds
of all calls. -/
theorem AllCalls.step {P : ProvableCall → Prop} (hnew : ∀ hashString, P (.new hashString))
    (hchange : ∀ call call', P call → CallChange call call' → P call') (h : AllCalls P s)
    (a : Action) : AllCalls P (s.step a) := by
  intro i call' hcall'
  cases hi : s.calls i with
  | none =>
      rcases calls_step_of_none hi a with hnone | ⟨hashString, -, hsome⟩
      · cases hnone.symm.trans hcall'
      · obtain rfl := Option.some.inj (hsome.symm.trans hcall')
        exact hnew hashString
  | some call =>
      obtain ⟨call'', hcall'', hsteps⟩ := (changed_self hi).step a
      obtain rfl := Option.some.inj (hcall''.symm.trans hcall')
      clear hcall'' hcall'
      induction hsteps with
      | refl => exact h i call hi
      | tail _ hlast ih => exact hchange _ _ ih hlast

/-- The rule for a run. -/
theorem allCalls_run {P : ProvableCall → Prop} (hnew : ∀ hashString, P (.new hashString))
    (hchange : ∀ call call', P call → CallChange call call' → P call') (as : List Action) :
    AllCalls P (run initial as) :=
  Machine.run_invariant (fun _ a h => h.step hnew hchange a) (fun _ _ h => by cases h) as

/-! ## One call -/

/-- **What a call returns.**  The results fit their codes, and the returned race follows one of its
two contenders. -/
structure Returned (call : ProvableCall) : Prop extends Chained call where
  existing : call.existing.All TransactionResult.Classified
  detached : call.detached.All TransactionResult.Classified
  caughtAll : call.caught.All TransactionResult.Classified
  upcoming : call.upcoming.All TransactionResult.Classified
  classified : call.transactionResult.All TransactionResult.Classified
  result : call.result.Follows call.provable ∨ call.result.Follows call.timeout

/-- A new call has returned nothing. -/
theorem returned_new (hashString : String) : Returned (.new hashString) where
  toChained := chained_new hashString
  existing := Promise.all_pending _
  detached := Promise.all_pending _
  caughtAll := Promise.all_pending _
  upcoming := Promise.all_pending _
  classified := Promise.all_pending _
  result := Or.inl (Or.inl rfl)

/-- The result that is read has the right class. -/
theorem all_readResponse (call : ProvableCall) :
    call.readResponse.All TransactionResult.Classified := by
  intro result h
  unfold ProvableCall.readResponse at h
  split at h
  · split at h
    · rename_i hread
      cases h
      exact classified_readTransactionResult hread
    · cases h
  · cases h
  · cases h
  · cases h

/-- So has the one behind the `.catch(...)`. -/
theorem all_catchOutcome (h : call.detached.All TransactionResult.Classified) :
    (NodeState.catchOutcome call).All TransactionResult.Classified := by
  refine h.catchDo fun failure => ?_
  split_ifs
  · exact fun _ heq => by cases heq
  · exact Promise.all_rejected _ failure

/-- The contender at the end of the chain, or the timer, decides the race. -/
theorem follows_result_race (h : call.result.Follows call.provable ∨
      call.result.Follows call.timeout) {contender : ResultPromise}
    (hcontender : contender = call.provable ∨ contender = call.timeout) :
    (call.result.race contender).Follows call.provable ∨
      (call.result.race contender).Follows call.timeout := by
  by_cases hpending : call.result = .pending
  · have hfollows := Promise.follows_race hpending contender
    rcases hcontender with rfl | rfl
    · exact Or.inl hfollows
    · exact Or.inr hfollows
  · rw [Promise.race_of_ne hpending]
    exact h

/-- A reaction keeps what a call returns. -/
theorem Returned.react (h : Returned call) (isReached : Bool) (job : Job) :
    Returned (call.react isReached job) := by
  have hchain := h.toChained.react isReached job
  cases job with
  | readResponse =>
      exact ⟨hchain, h.existing.resolve (all_readResponse call), h.detached, h.caughtAll,
        h.upcoming, h.classified, h.result⟩
  | detachExisting =>
      exact ⟨hchain, h.existing, h.detached.resolve h.existing.thenDo_fulfilled, h.caughtAll,
        h.upcoming, h.classified, h.result⟩
  | catchNotFound =>
      exact ⟨hchain, h.existing, h.detached, h.caughtAll.resolve (all_catchOutcome h.detached),
        h.upcoming, h.classified, h.result⟩
  | raceExisting =>
      exact ⟨hchain, h.existing, h.detached, h.caughtAll, h.upcoming, h.classified.race h.caughtAll,
        h.result⟩
  | raceUpcoming =>
      exact ⟨hchain, h.existing, h.detached, h.caughtAll, h.upcoming, h.classified.race h.upcoming,
        h.result⟩
  | commitment =>
      have hresult : call.commit.result.Follows call.commit.provable ∨
          call.commit.result.Follows call.commit.timeout := by
        rcases commit_cases 0 call (.waitForHeightFactory .empty) with
          ⟨result, -, -, -, heq, -⟩ | ⟨outcome, -, -, -, heq, -⟩ | ⟨heq, -⟩
        · rw [heq]
          exact h.result
        · rw [heq]
          exact h.result.imp_left fun hp => hp.resolve_arg (f := id) rfl outcome
        · rw [heq]
          exact h.result
      show Returned call.commit
      have hchain' : Chained call.commit := hchain
      obtain ⟨awaited, provable, heq⟩ := exists_commit call
      rw [heq] at hchain' hresult ⊢
      exact ⟨hchain', h.existing, h.detached, h.caughtAll, h.upcoming, h.classified, hresult⟩
  | heightReached =>
      show Returned (call.continueCommitment isReached)
      have hchain' : Chained (call.continueCommitment isReached) := hchain
      rcases continueCommitment_cases isReached call with ⟨result, -, -, heq⟩ | heq
      · rw [heq] at hchain' ⊢
        exact ⟨hchain', h.existing, h.detached, h.caughtAll, h.upcoming, h.classified,
          h.result.imp_left fun hp => hp.resolve_arg (f := id) rfl _⟩
      · rw [heq]
        exact h
  | raceProvable =>
      exact ⟨hchain, h.existing, h.detached, h.caughtAll, h.upcoming, h.classified,
        follows_result_race h.result (Or.inl rfl)⟩
  | raceTimeout =>
      exact ⟨hchain, h.existing, h.detached, h.caughtAll, h.upcoming, h.classified,
        follows_result_race h.result (Or.inr rfl)⟩

/-- **Every change of a call keeps what it returns.** -/
theorem Returned.change (h : Returned call) (hchange : CallChange call call') : Returned call' := by
  cases hchange with
  | answered answer =>
      exact ⟨⟨h.caught, h.transactionResult, h.timeout, h.awaited, h.provable⟩, h.existing,
        h.detached, h.caughtAll, h.upcoming, h.classified, h.result⟩
  | handled txResult =>
      refine ⟨⟨h.caught, ?_, h.timeout, h.awaited, h.provable⟩, h.existing, h.detached,
        h.caughtAll, ?_, h.classified, h.result⟩
      · exact h.transactionResult.imp_right fun hu => hu.resolve_arg (f := id) rfl _
      · refine h.upcoming.resolve fun result heq => ?_
        cases heq
        exact classified_handleTxResult txResult
  | expired =>
      refine ⟨⟨h.caught, h.transactionResult, h.timeout.resolve, h.awaited, h.provable⟩,
        h.existing, h.detached, h.caughtAll, h.upcoming, h.classified, ?_⟩
      exact h.result.imp_right fun ht => ht.resolve_arg (f := id) rfl _
  | reacted isReached job => exact h.react isReached job

/-- A value that is returned is the transaction result; the timer has none. -/
theorem Returned.of_fulfilled (h : Returned call) {result : TransactionResult}
    (hresult : call.result = .fulfilled result) : call.transactionResult = .fulfilled result := by
  have hprovable : call.provable = .fulfilled result := by
    rcases h.result with hp | ht
    · exact (hp.eq_of_ne (by rw [hresult]; simp)).symm.trans hresult
    · have htimeout := (ht.eq_of_ne (by rw [hresult]; simp)).symm.trans hresult
      rcases h.timeout with heq | heq
      · cases heq.symm.trans htimeout
      · cases heq.symm.trans htimeout
  exact (h.provable.eq_of_ne (by rw [hprovable]; simp)).symm.trans hprovable

/-- A failure that is returned is the one of the chain, or the timer has fired. -/
theorem Returned.of_rejected (h : Returned call) {failure : WaitFailure}
    (hresult : call.result = .rejected failure) : call.transactionResult = .rejected failure ∨
      (failure = .transactionWaitPeriodExceeded call.hashString ∧ call.timeout ≠ .pending) := by
  rcases h.result with hp | ht
  · left
    have hprovable := (hp.eq_of_ne (by rw [hresult]; simp)).symm.trans hresult
    exact (h.provable.eq_of_ne (by rw [hprovable]; simp)).symm.trans hprovable
  · right
    have htimeout := (ht.eq_of_ne (by rw [hresult]; simp)).symm.trans hresult
    have hne : call.timeout ≠ .pending := by
      rw [htimeout]
      simp
    exact ⟨Promise.rejected.inj (htimeout.symm.trans (h.timeout.eq_of_ne hne)), hne⟩

/-! ## The timer -/

/-- Only its own timer ends the waiting period of a call. -/
theorem timeout_step (h : s.calls i = some call) {a : Action} (ha : a ≠ .timeout i) :
    ∃ call', (s.step a).calls i = some call' ∧ call'.timeout = call.timeout := by
  -- a call that changes keeps its timer
  have hset : ∀ (hs : HeightState) {s' : WaitState} {call₀ call₁ : ProvableCall} {j : ℕ},
      (∃ call', s'.calls i = some call' ∧ call'.timeout = call.timeout) →
        s'.calls j = some call₁ → call₀.timeout = call₁.timeout →
          ∃ call', (WaitState.setCall j call₀ { s' with toHeightState := hs }).calls i =
            some call' ∧ call'.timeout = call.timeout := by
    rintro hs s' call₀ call₁ j ⟨call', hcall', htimeout⟩ hj hsame
    by_cases hij : i = j
    · subst hij
      obtain rfl := Option.some.inj (hcall'.symm.trans hj)
      exact ⟨call₀, setCall_self, hsame.trans htimeout⟩
    · exact ⟨call', (setCall_of_ne hij).trans hcall', htimeout⟩
  cases a with
  | call j hashString =>
      unfold step
      simp only
      split_ifs with hnone
      · have hij : i ≠ j := fun heq => by cases (heq ▸ h).symm.trans hnone
        exact ⟨call, (setCall_of_ne hij).trans h, rfl⟩
      · exact ⟨call, h, rfl⟩
  | answer j answer =>
      show ∃ call', (s.answer j answer).calls i = some call' ∧ _
      unfold WaitState.answer
      cases hj : s.calls j with
      | none => exact ⟨call, h, rfl⟩
      | some call₁ => exact hset s.toHeightState ⟨call, h, rfl⟩ hj rfl
  | tx message =>
      show ∃ call', (s.receiveTransaction message).calls i = some call' ∧ _
      unfold receiveTransaction
      cases message.hashString with
      | none => exact ⟨call, h, rfl⟩
      | some hashString =>
          refine EventEmitter.emit_invariant
            (I := fun s' : WaitState => ∃ call', s'.calls i = some call' ∧
              call'.timeout = call.timeout)
            (fun _ _ _ h => h) (fun l s' h' => ?_) ⟨call, h, rfl⟩
          cases l with
          | transactionHandler j =>
              show ∃ call', (s'.handleTransaction j message.txResult).calls i = some call' ∧ _
              unfold handleTransaction
              cases hj : s'.calls j with
              | none => exact h'
              | some call₁ => exact hset _ h' hj rfl
          | _ => exact h'
  | newBlock height => exact ⟨call, h, rfl⟩
  | timeout j =>
      have hij : i ≠ j := fun heq => ha (by rw [heq])
      show ∃ call', (s.expire j).calls i = some call' ∧ _
      unfold expire
      cases hj : s.calls j with
      | none => exact ⟨call, h, rfl⟩
      | some call₁ => exact ⟨call, (setCall_of_ne hij).trans h, rfl⟩
  | job j job =>
      show ∃ call', (s.runJob j job).calls i = some call' ∧ _
      unfold runJob
      cases hj : s.calls j with
      | none => exact ⟨call, h, rfl⟩
      | some call₁ =>
          refine hset _ ⟨call, h, rfl⟩ hj ?_
          cases job with
          | commitment =>
              show call₁.commit.timeout = call₁.timeout
              obtain ⟨awaited, provable, heq⟩ := exists_commit call₁
              rw [heq]
          | heightReached =>
              show (call₁.continueCommitment _).timeout = call₁.timeout
              obtain ⟨provable, heq⟩ := exists_continueCommitment
                (WaitState.isReached j s.toHeightState) call₁
              rw [heq]
          | _ => rfl

/-- **A waiting period ends by the timer.** -/
theorem timeout_mem_of_ne (as : List Action) : ∀ i call, (run initial as).calls i = some call →
    call.timeout ≠ .pending → .timeout i ∈ as := by
  refine Machine.run_induction (P := fun as (s : WaitState) => ∀ i call, s.calls i = some call →
    call.timeout ≠ .pending → Action.timeout i ∈ as) (fun _ _ h => by cases h) ?_ as
  intro as a ih i call' hcall' hne
  by_cases ha : a = .timeout i
  · rw [ha]
    exact List.mem_append_right as List.mem_cons_self
  · refine List.mem_append_left [a] ?_
    cases hi : (run initial as).calls i with
    | none =>
        -- the call is new, and its timer has not fired
        rcases calls_step_of_none hi a with hnone | ⟨hashString, -, hsome⟩
        · cases hnone.symm.trans hcall'
        · obtain rfl := Option.some.inj (hsome.symm.trans hcall')
          exact absurd rfl hne
    | some call =>
        obtain ⟨call'', hcall'', htimeout⟩ := timeout_step hi ha
        obtain rfl := Option.some.inj (hcall''.symm.trans hcall')
        exact ih i call hi (htimeout ▸ hne)

end WaitState

/-! ## The service with the node -/

namespace NodeState

/-- What an action means to the service. -/
def serviceActions (s : NodeState) : Action → List WaitState.Action
  | .call i hashString => if s.service.calls i = none then [.call i hashString] else []
  | .commit _ _ | .evaluate _ _ => []
  | .deliverAnswer i =>
    match s.queries i with
    | .evaluated response => [.answer i (.ok response)]
    | _ => []
  | .failAnswer i answer =>
    match readAnswer answer with
    | .error _ => if (s.queries i).IsInFlight then [.answer i answer] else []
    | .ok _ => []
  | .deliverEvent message => if message ∈ s.events then [.tx message] else []
  | .newBlock height => [.newBlock height]
  | .timeout i => [.timeout i]
  | .job i job => [.job i job]

/-- One step of the node is steps of the service. -/
theorem service_step (s : NodeState) (a : Action) :
    (s.step a).service = WaitState.run s.service (s.serviceActions a) := by
  cases a with
  | call i hashString =>
      simp only [step, serviceActions]
      split_ifs
      · rfl
      · rfl
  | commit hashString payload =>
      simp only [step, serviceActions]
      split_ifs
      · rfl
      · rfl
  | evaluate i message =>
      simp only [step, serviceActions]
      split
      · rfl
      · rfl
  | deliverAnswer i =>
      simp only [step, serviceActions]
      cases s.queries i with
      | evaluated response => rfl
      | _ => rfl
  | failAnswer i answer =>
      simp only [step, serviceActions]
      cases readAnswer answer with
      | ok result => rfl
      | error failure =>
          simp only
          split_ifs
          · rfl
          · rfl
  | deliverEvent message =>
      simp only [step, serviceActions]
      split_ifs
      · rfl
      · rfl
  | _ => rfl

/-- **The service runs as it does alone**, on the messages that arrive. -/
theorem service_run (as : List Action) : (run initial as).service =
    WaitState.run .initial (Machine.outputs step serviceActions initial as) :=
  Machine.run_refines service_step initial as

/-- The service hears of a block, or of a timer, when there is one. -/
theorem mem_serviceActions {s : NodeState} {a : Action} {b : WaitState.Action}
    (h : b ∈ s.serviceActions a) : (∀ height, b = .newBlock height → a = .newBlock height) ∧
      ∀ i, b = .timeout i → a = .timeout i := by
  cases a with
  | call i hashString =>
      simp only [serviceActions] at h
      split_ifs at h
      · rw [List.mem_singleton.mp h]
        simp
      · simp at h
  | deliverAnswer i =>
      simp only [serviceActions] at h
      split at h
      · rw [List.mem_singleton.mp h]
        simp
      · simp at h
  | failAnswer i answer =>
      simp only [serviceActions] at h
      split at h
      · split_ifs at h
        · rw [List.mem_singleton.mp h]
          simp
        · simp at h
      · simp at h
  | deliverEvent message =>
      simp only [serviceActions] at h
      split_ifs at h
      · rw [List.mem_singleton.mp h]
        simp
      · simp at h
  | commit hashString payload => simp [serviceActions] at h
  | evaluate i message => simp [serviceActions] at h
  | _ =>
      rw [List.mem_singleton.mp h]
      simp

/-- Blocks and timers of the service are those of the run. -/
theorem mem_of_mem_outputs {as : List Action} {b : WaitState.Action}
    (h : b ∈ Machine.outputs step serviceActions initial as) :
    (∀ height, b = .newBlock height → .newBlock height ∈ as) ∧
      ∀ i, b = .timeout i → .timeout i ∈ as := by
  obtain ⟨s, a, ha, hmem⟩ := Machine.exists_of_mem_outputs h
  obtain ⟨hblock, htimeout⟩ := mem_serviceActions hmem
  exact ⟨fun height heq => hblock height heq ▸ ha, fun i heq => htimeout i heq ▸ ha⟩

/-- The calls of a run have the invariant of a call. -/
theorem returned_of_run {as : List Action} {i : ℕ} {call : ProvableCall}
    (hcall : (run initial as).service.calls i = some call) : WaitState.Returned call :=
  WaitState.allCalls_run WaitState.returned_new (fun _ _ h hchange => h.change hchange) _ i call
    (service_run as ▸ hcall)

/-- The result is the one of a transaction that is committed; it is an Ok result only when its code
says so, and a block above it was heard of. -/
structure IsCommitted (as : List Action) (hashString : String) (result : TransactionResult)
    (payload : Payload) : Prop where
  committed : (run initial as).committed hashString = some payload
  hasResult : payload.HasResult result
  ok : result.resultClass = .TransactionOkResult →
    payload.IsSuccess ∧ ∃ height, .newBlock height ∈ as ∧ payload.height + 1 ≤ height
  error : result.resultClass = .TransactionErrorResult → payload.result.code ≠ some 0

/-- **What a call is fulfilled with** is committed. -/
theorem isCommitted_of_fulfilled {as : List Action} {i : ℕ} {call : ProvableCall}
    (hcall : (run initial as).service.calls i = some call) {result : TransactionResult}
    (hresult : call.result = .fulfilled result) :
    ∃ payload, IsCommitted as call.hashString result payload := by
  have hreturned := returned_of_run hcall
  have htransaction := hreturned.of_fulfilled hresult
  have hclassified := hreturned.classified result htransaction
  unfold TransactionResult.Classified at hclassified
  rcases ((run_sound as).calls i call hcall).transactionResult with
    (hpending | ⟨payload, result', hcommitted, hhas, heq⟩) | ⟨failure, -, -, heq⟩
  · cases hpending.symm.trans htransaction
  · obtain rfl : result = result' := Promise.fulfilled.inj (htransaction.symm.trans heq)
    refine ⟨payload, hcommitted, hhas, fun hok => ?_, fun herror => ?_⟩
    · rw [hok] at hclassified
      refine ⟨hclassified payload.result hhas.deliverResult, ?_⟩
      obtain ⟨height, hmem, hle⟩ := ((WaitState.run_sound _).calls i call
        (service_run as ▸ hcall)).result result hresult hok
      obtain ⟨a, ha, hheight⟩ := List.mem_filterMap.mp hmem
      cases a with
      | newBlock height' =>
          obtain rfl : height' = height := by simpa using hheight
          exact ⟨height', (mem_of_mem_outputs ha).1 height' rfl, hhas.height ▸ hle⟩
      | _ => cases hheight
    · rw [herror] at hclassified
      obtain ⟨deliverResult, hdeliver, hcode⟩ := hclassified
      rwa [Option.some.inj (hhas.deliverResult.symm.trans hdeliver)]
  · cases heq.symm.trans htransaction

/-- The failure is the one of the request of the call, and does not say that the transaction is not
found. -/
def IsRequestFailure (as : List Action) (i : ℕ) (hashString : String) (failure : WaitFailure) :
    Prop :=
  ∃ answer requestFailure, .failAnswer i answer ∈ as ∧
    readAnswer answer = .error requestFailure ∧ failure = .request requestFailure ∧
      isNotFound hashString failure = false

/-- **What a call is rejected with** comes from its timer, or from its request. -/
theorem timeout_of_rejected {as : List Action} {i : ℕ} {call : ProvableCall}
    (hcall : (run initial as).service.calls i = some call) {failure : WaitFailure}
    (hresult : call.result = .rejected failure) :
    (failure = .transactionWaitPeriodExceeded call.hashString ∧ .timeout i ∈ as) ∨
      IsRequestFailure as i call.hashString failure := by
  rcases (returned_of_run hcall).of_rejected hresult with htransaction | ⟨heq, htimeout⟩
  · right
    rcases ((run_sound as).calls i call hcall).transactionResult with
      (hpending | ⟨payload, result, -, -, heq⟩) | ⟨requestFailure, hquery, hnot, heq⟩
    · cases hpending.symm.trans htransaction
    · cases heq.symm.trans htransaction
    · obtain rfl := Promise.rejected.inj (heq.symm.trans htransaction)
      obtain ⟨answer, hmem, hanswer⟩ := exists_failAnswer as i requestFailure hquery
      exact ⟨answer, requestFailure, hmem, hanswer, rfl, hnot⟩
  · left
    have hmem := WaitState.timeout_mem_of_ne _ i call (service_run as ▸ hcall) htimeout
    exact ⟨heq, (mem_of_mem_outputs hmem).2 i rfl⟩

/-- **A wait is settled only with what is committed, or by its request or timer.**  In every run,
for every order of commits, answers, failures, events, blocks, timers and reactions: the promise of
a call is fulfilled only with the result of the transaction that is committed with its hash, an Ok
result only when its code says so and after a block above it was heard of; and it is rejected only
because its own timer has fired, or with the failure of its own request. -/
theorem returned_result (as : List Action) (i : ℕ) (call : ProvableCall)
    (hcall : (run initial as).service.calls i = some call) :
    (∀ result, call.result = .fulfilled result →
        ∃ payload, IsCommitted as call.hashString result payload) ∧
      ∀ failure, call.result = .rejected failure →
        (failure = .transactionWaitPeriodExceeded call.hashString ∧ .timeout i ∈ as) ∨
          IsRequestFailure as i call.hashString failure :=
  ⟨fun _ => isCommitted_of_fulfilled hcall, fun _ => timeout_of_rejected hcall⟩

/-- After that run a block comes, and the call is settled with the result. -/
def returnedActions : List Action :=
  committedActions ++ [.newBlock 6, .job 0 .heightReached, .job 0 .raceProvable]

/-- The call after that run. -/
def returnedCall : ProvableCall :=
  { committedCall with
    provable := .fulfilled ⟨.TransactionOkResult, some ⟨some 0, none⟩, 5, [1]⟩
    result := .fulfilled ⟨.TransactionOkResult, some ⟨some 0, none⟩, 5, [1]⟩ }

/-- A call whose request is refused is rejected with that. -/
def refusedActions : List Action :=
  [.call 0 "AB", .failAnswer 0 (.error (.rejection "refused")), .job 0 .readResponse,
    .job 0 .detachExisting, .job 0 .catchNotFound, .job 0 .raceExisting, .job 0 .commitment,
    .job 0 .raceProvable]

/-- The committed result is returned, and the refused request is told. -/
theorem returned_result_block :
    (∃ payload, IsCommitted returnedActions "AB"
      ⟨.TransactionOkResult, some ⟨some 0, none⟩, 5, [1]⟩ payload) ∧
        IsRequestFailure refusedActions 0 "AB" (.request (.rejection "refused")) := by
  constructor
  · have hcall : (run initial returnedActions).service.calls 0 = some returnedCall := by
      decide +kernel
    exact (returned_result returnedActions 0 returnedCall hcall).1 _ rfl
  · refine ((returned_result refusedActions 0 _ rfl).2 _ rfl).resolve_left fun h => ?_
    cases h.1

end NodeState

end Dapi
