/-
# What a settled wait leaves behind

`src/lib/externalApis/tenderdash/waitForTransactionToBeProvable/`
`waitForTransactionToBeProvableFactory.js`, the listeners.  A call attaches a handler for
the event of its transaction, and later one for the blocks.  The first is detached by its
event, by an existing result and by the timer, but by no failure of the request; the second
only by a block that is high enough, so neither by the timer nor when the timer was first.

* `Accounted`: the handlers of a call are registered once, and its promises tell which of
  them are.
* `Strands`: the three jobs that leave a handler behind.
* `noneLeft_run_iff`: they are the only ones, in every run.
-/
import Dapi.CommittedTransactions
import Dapi.HeightWaiters

namespace Dapi

namespace HeightState

/-- Events detach handlers only. -/
theorem distinct_emitNewBlock {s : HeightState} (h : s.blockchainListener.Distinct)
    (height : ℕ) : (s.emitNewBlock height).blockchainListener.Distinct := by
  refine EventEmitter.emit_invariant (I := fun s : HeightState => s.blockchainListener.Distinct)
    ?_ ?_ h
  · intro r s _ h
    show (s.blockchainListener.served r).Distinct
    unfold EventEmitter.served
    split_ifs
    · exact h.removeListener _ _
    · exact h
  · intro l s h
    cases l with
    | setCurrentHeight => exact h
    | heightHandler i =>
        show (s.checkHeight i).blockchainListener.Distinct
        unfold checkHeight
        cases s.waits i with
        | none => exact h
        | some wait =>
            simp only
            split_ifs
            · exact h.removeListener _ _
            · exact h
    | transactionHandler i => exact h

end HeightState

namespace WaitState

variable {s : WaitState} {call call' : ProvableCall} {i j : ℕ} {hs hs' : HeightState}
  {hashString : String} {job : Job}

/-! ## The listeners of a call -/

/-- A listener is attached on behalf of the call, for its transaction or for the blocks. -/
def HasListener (s : WaitState) (i : ℕ) : Prop :=
  ∃ r ∈ s.blockchainListener.registrations,
    r.listener = .transactionHandler i ∨ r.listener = .heightHandler i

/-- No listener is left of a call that is settled. -/
def NoneLeft (s : WaitState) : Prop :=
  ∀ i call, s.calls i = some call → call.result ≠ .pending → ¬ s.HasListener i

/-- The job settles the call, or starts a wait for it, and a handler stays: the timer settles a
call that waits for a block; a failed request settles one that still listens for its
transaction; an Ok result that is not provable yet is taken up after the call was settled. -/
def Strands (hs : HeightState) (i : ℕ) (call : ProvableCall) : Job → Prop
  | .raceTimeout => call.result = .pending ∧ call.timeout ≠ .pending ∧ hs.Waiting i
  | .raceProvable =>
    call.result = .pending ∧ (∃ failure, call.provable = .rejected failure) ∧
      call.upcoming = .pending ∧ call.timeout = .pending
  | .commitment =>
    call.result ≠ .pending ∧ call.awaited = none ∧
      ∃ result, call.transactionResult = .fulfilled result ∧
        result.resultClass = .TransactionOkResult ∧ hs.currentHeight ≤ result.height
  | _ => False

/-- No handler stays behind at this action. -/
def Tidy (s : WaitState) : Action → Prop
  | .job i job => ∀ call, s.calls i = some call → ¬ Strands s.toHeightState i call job
  | _ => True

/-! ## What the promises of a call tell -/

/-- The promises follow each other, and the race follows one of its two contenders. -/
structure Chained (call : ProvableCall) : Prop where
  caught : call.caught.Follows (NodeState.catchOutcome call)
  transactionResult : call.transactionResult.Follows call.caught ∨
    call.transactionResult.Follows call.upcoming
  timeout : call.timeout.Follows (.rejected (.transactionWaitPeriodExceeded call.hashString))
  awaited : ∀ result, call.awaited = some result → call.transactionResult = .fulfilled result
  provable : call.provable.Follows call.transactionResult

/-- What the promises tell of the handlers. -/
structure Staged (hs : HeightState) (i : ℕ) (call : ProvableCall) : Prop extends
    Chained call where
  listening_iff : IsListening hs i call.hashString ↔ call.upcoming = .pending ∧
    call.timeout = .pending ∧ ∀ result, call.detached ≠ .fulfilled result
  unawaited : call.awaited = none → hs.waits i = none
  done : call.provable ≠ .pending → ¬ hs.Waiting i ∧ (call.awaited = none →
    ∀ result, call.transactionResult = .fulfilled result →
      result.resultClass ≠ .TransactionOkResult)

theorem chained_new (hashString : String) : Chained (.new hashString) where
  caught := Or.inl rfl
  transactionResult := Or.inl (Or.inl rfl)
  timeout := Or.inl rfl
  awaited := fun result h => by cases h
  provable := Or.inl rfl

/-- The race is decided by a contender. -/
theorem Chained.race (h : Chained call) {contender : ResultPromise}
    (hcontender : contender = call.caught ∨ contender = call.upcoming) :
    Chained { call with transactionResult := call.transactionResult.race contender } := by
  refine ⟨h.caught, ?_, h.timeout, fun result hawaited => ?_, h.provable.race_arg contender⟩
  · by_cases hpending : call.transactionResult = .pending
    · have hfollows := Promise.follows_race hpending contender
      rcases hcontender with rfl | rfl
      · exact Or.inl hfollows
      · exact Or.inr hfollows
    · rw [Promise.race_of_ne hpending]
      exact h.transactionResult
  · have hresult := h.awaited result hawaited
    rw [hresult]
    rfl

/-- **A reaction keeps the chain.** -/
theorem Chained.react (h : Chained call) (isReached : Bool) (job : Job) :
    Chained (call.react isReached job) := by
  cases job with
  | readResponse =>
      exact ⟨h.caught, h.transactionResult, h.timeout, h.awaited, h.provable⟩
  | detachExisting =>
      refine ⟨?_, h.transactionResult, h.timeout, h.awaited, h.provable⟩
      exact h.caught.resolve_arg (f := fun p => p.catchDo _) rfl _
  | catchNotFound =>
      refine ⟨h.caught.resolve, ?_, h.timeout, h.awaited, h.provable⟩
      exact h.transactionResult.imp_left fun hc => hc.resolve_arg (f := id) rfl _
  | raceExisting => exact h.race (Or.inl rfl)
  | raceUpcoming => exact h.race (Or.inr rfl)
  | commitment =>
      show Chained call.commit
      rcases commit_cases 0 call (.waitForHeightFactory .empty) with
        ⟨result, hresult, -, -, heq, -⟩ | ⟨outcome, rfl, -, -, heq, -⟩ | ⟨heq, -⟩
      · rw [heq]
        refine ⟨h.caught, h.transactionResult, h.timeout, fun result' hawaited => ?_, h.provable⟩
        obtain rfl : result = result' := Option.some.inj hawaited
        exact hresult
      · rw [heq]
        exact ⟨h.caught, h.transactionResult, h.timeout, h.awaited, h.provable.resolve⟩
      · rw [heq]
        exact h
  | heightReached =>
      show Chained (call.continueCommitment isReached)
      rcases continueCommitment_cases isReached call with ⟨result, hawaited, -, heq⟩ | heq
      · rw [heq, ← h.awaited result hawaited]
        exact ⟨h.caught, h.transactionResult, h.timeout, h.awaited, h.provable.resolve⟩
      · rw [heq]
        exact h
  | raceProvable => exact ⟨h.caught, h.transactionResult, h.timeout, h.awaited, h.provable⟩
  | raceTimeout => exact ⟨h.caught, h.transactionResult, h.timeout, h.awaited, h.provable⟩

/-- Another transaction result would be taken from a race that is not decided. -/
theorem Chained.ne_pending_of_provable (h : Chained call) (hprovable : call.provable ≠ .pending) :
    call.transactionResult ≠ .pending :=
  fun hpending => hprovable (h.provable.elim id fun heq => heq.trans hpending)

/-- **A result comes from the event or from the request**, and so does its detachment. -/
theorem Chained.detached_of_fulfilled (h : Chained call) {result : TransactionResult}
    (hresult : call.transactionResult = .fulfilled result) :
    call.upcoming ≠ .pending ∨ ∃ result, call.detached = .fulfilled result := by
  rcases h.transactionResult with hcaught | hupcoming
  · right
    have hc : call.caught = .fulfilled result := by
      rcases hcaught with hpending | heq
      · cases hpending.symm.trans hresult
      · exact heq.symm.trans hresult
    rcases h.caught with hpending | heq
    · cases hpending.symm.trans hc
    · -- the failures that are caught are not turned into results
      rw [hc, NodeState.catchOutcome] at heq
      cases hd : call.detached with
      | fulfilled result' => exact ⟨result', rfl⟩
      | rejected failure =>
          rw [hd, Promise.catchDo] at heq
          split_ifs at heq
      | _ =>
          rw [hd] at heq
          cases heq
  · left
    intro hpending
    rcases hupcoming with heq | heq
    · cases heq.symm.trans hresult
    · cases (heq.trans hpending).symm.trans hresult

/-- **A failure comes from the request**, and nothing detaches the handler. -/
theorem Chained.not_detached_of_rejected (h : Chained call) {failure : WaitFailure}
    (hresult : call.transactionResult = .rejected failure) (hupcoming : call.upcoming = .pending)
    (result : TransactionResult) : call.detached ≠ .fulfilled result := by
  intro hd
  have hc : call.caught = .rejected failure := by
    rcases h.transactionResult with (hpending | heq) | (hpending | heq)
    · cases hpending.symm.trans hresult
    · exact heq.symm.trans hresult
    · cases hpending.symm.trans hresult
    · cases (heq.trans hupcoming).symm.trans hresult
  rcases h.caught with hpending | heq
  · cases hpending.symm.trans hc
  · rw [hc, NodeState.catchOutcome, hd] at heq
    cases heq

/-! ## What the handlers of a call depend on -/

theorem staged_new (hlisten : IsListening hs i hashString) (hw : hs.waits i = none) :
    Staged hs i (.new hashString) where
  toChained := chained_new hashString
  listening_iff := iff_of_true hlisten ⟨rfl, rfl, fun result h => by cases h⟩
  unawaited := fun _ => hw
  done := fun h => absurd rfl h

/-- What the calls wait for does not start again, and the handler is there when it was. -/
theorem Staged.of_iff (h : Staged hs i call)
    (hlisten : IsListening hs' i call.hashString ↔ IsListening hs i call.hashString)
    (hnone : hs.waits i = none → hs'.waits i = none) (hwaiting : hs'.Waiting i → hs.Waiting i) :
    Staged hs' i call where
  toChained := h.toChained
  listening_iff := hlisten.trans h.listening_iff
  unawaited := fun hawaited => hnone (h.unawaited hawaited)
  done := fun hprovable => (h.done hprovable).imp_left fun hw hw' => hw (hwaiting hw')

/-- No other job detaches the handler, or takes over what the handler depends on. -/
theorem isListening_effect (hjob : job ≠ .detachExisting) :
    IsListening (effect i call job hs) i hashString ↔ IsListening hs i hashString := by
  have hevent : (registration i hashString).event ≠ .newBlock := by
    unfold registration
    simp
  rcases mem_effect hevent i call job hs with hmem | ⟨-, heq, -⟩
  · exact hmem
  · exact absurd heq hjob

theorem react_of_ne (hjob : job ≠ .detachExisting) (isReached : Bool) (call : ProvableCall) :
    (call.react isReached job).upcoming = call.upcoming ∧
      (call.react isReached job).timeout = call.timeout ∧
        (call.react isReached job).detached = call.detached := by
  cases job with
  | detachExisting => exact absurd rfl hjob
  | commitment =>
      obtain ⟨awaited, provable, heq⟩ := exists_commit call
      rw [ProvableCall.react, heq]
      exact ⟨rfl, rfl, rfl⟩
  | heightReached =>
      obtain ⟨provable, heq⟩ := exists_continueCommitment isReached call
      rw [ProvableCall.react, heq]
      exact ⟨rfl, rfl, rfl⟩
  | _ => exact ⟨rfl, rfl, rfl⟩

/-- The handler is gone after its detachment. -/
theorem not_isListening_detach (hd : hs.blockchainListener.Distinct) :
    ¬ IsListening (detach i hashString hs) i hashString :=
  hd.not_mem_removeListener rfl rfl

/-- An existing result detaches the handler, and no other job does. -/
theorem Staged.listening_react (h : Staged hs i call) (hd : hs.blockchainListener.Distinct)
    (job : Job) : IsListening (effect i call job hs) i call.hashString ↔
      (call.react (isReached i hs) job).upcoming = .pending ∧
        (call.react (isReached i hs) job).timeout = .pending ∧
          ∀ result, (call.react (isReached i hs) job).detached ≠ .fulfilled result := by
  by_cases hjob : job = .detachExisting
  · subst hjob
    show _ ↔ call.upcoming = .pending ∧ call.timeout = .pending ∧
      ∀ result, call.detached.resolve (call.existing.thenDo .fulfilled) ≠ .fulfilled result
    by_cases hpending : call.detached = .pending
    · rw [hpending, effect]
      cases hex : call.existing with
      | fulfilled result =>
          refine iff_of_false ?_ fun hnot => hnot.2.2 result rfl
          rw [hpending]
          exact not_isListening_detach hd
      | _ =>
          -- nothing is taken over, so the handler stays
          have hlisten := h.listening_iff
          rw [hpending] at hlisten ⊢
          simpa [Promise.resolve, Promise.thenDo] using hlisten
    · -- the reaction ran before, and it runs once
      have heffect : effect i call .detachExisting hs = hs := by
        unfold effect
        simp only
        split
        · rename_i hdetached _
          exact absurd hdetached hpending
        · rfl
      rw [heffect, Promise.resolve_of_ne hpending]
      exact h.listening_iff
  · obtain ⟨hu, ht, hdet⟩ := react_of_ne hjob (isReached i hs) call
    rw [isListening_effect hjob, hu, ht, hdet]
    exact h.listening_iff

/-- A commitment that goes on has its height. -/
theorem not_waiting_of_isReached (h : isReached i hs = true) : ¬ hs.Waiting i := by
  rintro ⟨wait, hw, hr⟩
  rw [isReached, hw] at h
  cases hr.symm.trans h

/-- Only a commitment makes a call wait for a block. -/
theorem Staged.unawaited_react (h : Staged hs i call) (job : Job) :
    (call.react (isReached i hs) job).awaited = none → (effect i call job hs).waits i = none := by
  by_cases hjob : job = .commitment
  · subst hjob
    show call.commit.awaited = none → _
    rcases commit_cases i call hs with
      ⟨result, -, -, -, heq, -⟩ | ⟨outcome, -, -, -, heq, heffect⟩ | ⟨heq, heffect⟩
    · -- the call waits from now on
      rw [heq]
      intro hawaited
      cases hawaited
    · rw [heq, heffect]
      exact h.unawaited
    · rw [heq, heffect]
      exact h.unawaited
  · rw [(effect_waits hjob i call hs).2]
    cases job with
    | commitment => exact absurd rfl hjob
    | heightReached =>
        show (call.continueCommitment (isReached i hs)).awaited = none → _
        obtain ⟨provable, heq⟩ := exists_continueCommitment (isReached i hs) call
        rw [heq]
        exact h.unawaited
    | _ => exact h.unawaited

/-- A commitment is made when there is no wait, or starts one and is not made yet. -/
theorem Staged.done_commit (h : Staged hs i call) (hprovable : call.commit.provable ≠ .pending) :
    ¬ (effect i call .commitment hs).Waiting i ∧ (call.commit.awaited = none →
      ∀ result, call.commit.transactionResult = .fulfilled result →
        result.resultClass ≠ .TransactionOkResult) := by
  rcases commit_cases i call hs with
    ⟨result, hresult, hawaited, hok, heq, -⟩ |
      ⟨outcome, hresult, hawaited, hnot, heq, heffect⟩ | ⟨heq, heffect⟩
  · -- an Ok result is taken up, which `done` excludes once the commitment is made
    rw [heq] at hprovable
    exact absurd hok ((h.done hprovable).2 hawaited result hresult)
  · rw [heq, heffect]
    refine ⟨?_, fun _ result heq => hnot result (hresult.symm.trans heq)⟩
    rintro ⟨wait, hw, -⟩
    rw [h.unawaited hawaited] at hw
    cases hw
  · rw [heq] at hprovable ⊢
    rw [heffect]
    exact h.done hprovable

/-- A commitment that is made stays so, with the result that it was made for. -/
theorem Staged.done_react (h : Staged hs i call) (job : Job)
    (hprovable : (call.react (isReached i hs) job).provable ≠ .pending) :
    ¬ (effect i call job hs).Waiting i ∧
      ((call.react (isReached i hs) job).awaited = none →
        ∀ result, (call.react (isReached i hs) job).transactionResult = .fulfilled result →
          result.resultClass ≠ .TransactionOkResult) := by
  by_cases hjob : job = .commitment
  · subst hjob
    exact h.done_commit hprovable
  · rw [HeightState.Waiting, (effect_waits hjob i call hs).2]
    cases job with
    | commitment => exact absurd rfl hjob
    | raceExisting =>
        -- the race was decided before the commitment was made
        show _ ∧ (_ → ∀ result, call.transactionResult.race call.caught = _ → _)
        rw [Promise.race_of_ne (h.ne_pending_of_provable hprovable)]
        exact h.done hprovable
    | raceUpcoming =>
        show _ ∧ (_ → ∀ result, call.transactionResult.race call.upcoming = _ → _)
        rw [Promise.race_of_ne (h.ne_pending_of_provable hprovable)]
        exact h.done hprovable
    | heightReached =>
        rw [ProvableCall.react] at hprovable ⊢
        rcases continueCommitment_cases (isReached i hs) call with
          ⟨result, hawaited, hreached, heq⟩ | heq
        · rw [heq]
          refine ⟨not_waiting_of_isReached hreached, fun hnone => ?_⟩
          cases hawaited.symm.trans hnone
        · rw [heq] at hprovable ⊢
          exact h.done hprovable
    | _ => exact h.done hprovable

/-- **A reaction keeps the account of its call.** -/
theorem Staged.react (h : Staged hs i call) (hd : hs.blockchainListener.Distinct) (job : Job) :
    Staged (effect i call job hs) i (call.react (isReached i hs) job) where
  toChained := h.toChained.react (isReached i hs) job
  listening_iff := by
    rw [react_hashString]
    exact h.listening_react hd job
  unawaited := h.unawaited_react job
  done := h.done_react job

/-! ## All calls -/

/-- The handlers of all calls, each registered once, and what the calls tell of them. -/
structure Accounted (s : WaitState) : Prop where
  owned : Owned s
  distinct : s.blockchainListener.Distinct
  attended : ∃ ids, HeightState.Attended s.toHeightState ids
  uncalled : ∀ i, s.calls i = none → s.waits i = none
  calls : ∀ i call, s.calls i = some call → Staged s.toHeightState i call

/-- The handlers of a call are the two that are accounted for. -/
theorem Accounted.hasListener_iff (h : Accounted s) (hcall : s.calls i = some call) :
    s.HasListener i ↔ IsListening s.toHeightState i call.hashString ∨ s.Waiting i := by
  obtain ⟨ids, hattended⟩ := h.attended
  constructor
  · rintro ⟨r, hr, hlistener⟩
    by_cases hevent : r.event = .newBlock
    · right
      have hmem := EventEmitter.mem_listeners_iff.mpr ⟨hr, hevent⟩
      rw [hattended.listens] at hmem
      rcases List.mem_cons.mp hmem with rfl | hmem
      · rcases hlistener with hl | hl
        · cases hl
        · cases hl
      · obtain ⟨j, hj, rfl⟩ := List.mem_map.mp hmem
        rcases hlistener with hl | hl
        · cases hl
        · cases hl
          exact (hattended.mem_iff i).mp hj
    · left
      obtain ⟨j, call', hj, rfl⟩ := h.owned r hr hevent
      rcases hlistener with hl | hl
      · cases hl
        obtain rfl : call = call' := Option.some.inj (hcall.symm.trans hj)
        exact hr
      · cases hl
  · rintro (hl | hw)
    · exact ⟨_, hl, Or.inl rfl⟩
    · have hmem : HeightState.heightRegistration i ∈ s.blockchainListener.listeners .newBlock := by
        rw [hattended.listens]
        exact List.mem_cons_of_mem _ (List.mem_map_of_mem ((hattended.mem_iff i).mpr hw))
      exact ⟨_, (EventEmitter.mem_listeners_iff.mp hmem).1, Or.inr rfl⟩

/-- The call is not settled, or none of its handlers is registered. -/
def Clear (hs : HeightState) (i : ℕ) (call : ProvableCall) : Prop :=
  call.result ≠ .pending → ¬ IsListening hs i call.hashString ∧ ¬ hs.Waiting i

/-- Nothing is left when every call has cleared away. -/
theorem Accounted.noneLeft_iff (h : Accounted s) :
    NoneLeft s ↔ ∀ i call, s.calls i = some call → Clear s.toHeightState i call := by
  refine forall₃_congr fun i call hcall => ?_
  rw [Clear, h.hasListener_iff hcall, not_or]

/-- The handlers of a call are as before. -/
structure Untouched (hs hs' : HeightState) (i : ℕ) : Prop where
  listening : ∀ hashString, IsListening hs' i hashString ↔ IsListening hs i hashString
  waits : hs'.waits i = hs.waits i

theorem Untouched.waiting_iff (h : Untouched hs hs' i) : hs'.Waiting i ↔ hs.Waiting i := by
  rw [HeightState.Waiting, h.waits, HeightState.Waiting]

/-- An untouched call is as clear as before. -/
theorem Untouched.clear_iff (h : Untouched hs hs' i) : Clear hs' i call ↔ Clear hs i call := by
  rw [Clear, h.listening, h.waiting_iff, Clear]

/-- A call detaches its own listeners only. -/
theorem untouched_detach_of_ne (hji : j ≠ i) (hashString : String) (hs : HeightState) :
    Untouched hs (detach i hashString hs) j :=
  ⟨fun _ => isListening_detach_of_ne hji _ _ _, rfl⟩

/-- A reaction of a call touches no other call. -/
theorem untouched_effect_of_ne (hji : j ≠ i) (call : ProvableCall) (job : Job)
    (hs : HeightState) : Untouched hs (effect i call job hs) j := by
  refine ⟨fun _ => isListening_effect_of_ne hji job, ?_⟩
  by_cases hjob : job = .commitment
  · subst hjob
    rcases commit_cases i call hs with
      ⟨result, -, -, -, -, heffect⟩ | ⟨_, -, -, -, -, heffect⟩ | ⟨-, heffect⟩
    · rw [heffect]
      exact HeightState.waits_waitForHeight_of_ne hji _
    · rw [heffect]
    · rw [heffect]
  · rw [(effect_waits hjob i call hs).2]

/-- **One call changes**, and with it none but its own handlers. -/
theorem Accounted.setCall (h : Accounted s) (hcall : s.calls i = some call)
    (hhash : call'.hashString = call.hashString)
    (hmem : ∀ r ∈ hs.blockchainListener.registrations, r.event ≠ .newBlock →
      r ∈ s.blockchainListener.registrations)
    (hdistinct : hs.blockchainListener.Distinct)
    (hattended : ∃ ids, HeightState.Attended hs ids)
    (hothers : ∀ j, j ≠ i → Untouched s.toHeightState hs j) (hstaged : Staged hs i call') :
    Accounted (WaitState.setCall i call' { s with toHeightState := hs }) := by
  refine ⟨h.owned.setCall hcall hhash hmem, hdistinct, hattended, fun j hj => ?_,
    fun j call₁ hj => ?_⟩
  · have hji : j ≠ i := by
      rintro rfl
      cases setCall_self.symm.trans hj
    show hs.waits j = none
    rw [(hothers j hji).waits]
    exact h.uncalled j ((setCall_of_ne hji).symm.trans hj)
  · by_cases hji : j = i
    · subst hji
      obtain rfl : call' = call₁ := Option.some.inj (setCall_self.symm.trans hj)
      exact hstaged
    · have hold := h.calls j call₁ ((setCall_of_ne hji).symm.trans hj)
      have hsame := hothers j hji
      exact hold.of_iff (hsame.listening _) hsame.waits.trans hsame.waiting_iff.mp

/-- The settled calls are clear when the one that changes is. -/
theorem Accounted.noneLeft_setCall_iff (h : Accounted s)
    (h' : Accounted (WaitState.setCall i call' { s with toHeightState := hs }))
    (hothers : ∀ j, j ≠ i → Untouched s.toHeightState hs j) (hnone : NoneLeft s) :
    NoneLeft (WaitState.setCall i call' { s with toHeightState := hs }) ↔ Clear hs i call' := by
  rw [h'.noneLeft_iff]
  constructor
  · exact fun hall => hall i call' setCall_self
  · intro hclear j call₁ hj
    by_cases hji : j = i
    · subst hji
      obtain rfl : call' = call₁ := Option.some.inj (setCall_self.symm.trans hj)
      exact hclear
    · exact (hothers j hji).clear_iff.mpr
        (h.noneLeft_iff.mp hnone j call₁ ((setCall_of_ne hji).symm.trans hj))

/-- To detach leaves the waits for heights. -/
theorem attended_detach (i : ℕ) (hashString : String) {ids : List ℕ}
    (h : HeightState.Attended hs ids) : HeightState.Attended (detach i hashString hs) ids :=
  h.of_eq (EventEmitter.listeners_removeListener_of_ne _ (by simp) _) rfl rfl

/-- **The handler of a call is detached** when its promise is settled by an event or a timer. -/
theorem Accounted.detach (h : Accounted s) (hcall : s.calls i = some call)
    (hhash : call'.hashString = call.hashString) (hresult : call'.result = call.result)
    (hstaged : Staged (WaitState.detach i call.hashString s.toHeightState) i call') :
    Accounted (WaitState.setCall i call'
        { s with toHeightState := WaitState.detach i call.hashString s.toHeightState }) ∧
      (NoneLeft s → NoneLeft (WaitState.setCall i call'
        { s with toHeightState := WaitState.detach i call.hashString s.toHeightState })) := by
  have hothers : ∀ j, j ≠ i → Untouched s.toHeightState _ j :=
    fun j hji => untouched_detach_of_ne hji call.hashString s.toHeightState
  obtain ⟨ids, hattended⟩ := h.attended
  have h' := h.setCall hcall hhash (fun r hr _ => EventEmitter.mem_of_mem_removeListener hr)
    (h.distinct.removeListener _ _) ⟨ids, attended_detach i call.hashString hattended⟩ hothers
    hstaged
  refine ⟨h', fun hnone => (h.noneLeft_setCall_iff h' hothers hnone).mpr fun hsettled => ?_⟩
  rw [hhash]
  refine ⟨not_isListening_detach h.distinct, ?_⟩
  exact (h.noneLeft_iff.mp hnone i call hcall (hresult ▸ hsettled)).2

/-- **The event of a transaction**, at one handler. -/
theorem Accounted.handleTransaction (h : Accounted s) (i : ℕ) (txResult : TxResult) :
    Accounted (s.handleTransaction i txResult) ∧
      (NoneLeft s → NoneLeft (s.handleTransaction i txResult)) := by
  unfold WaitState.handleTransaction
  cases hcall : s.calls i with
  | none => exact ⟨h, id⟩
  | some call =>
      have hcalls := h.calls i call hcall
      refine h.detach hcall rfl rfl ⟨?_, ?_, hcalls.unawaited, hcalls.done⟩
      · refine ⟨hcalls.caught, ?_, hcalls.timeout, hcalls.awaited, hcalls.provable⟩
        exact hcalls.transactionResult.imp_right fun hu => hu.resolve_arg (f := id) rfl _
      · refine iff_of_false (not_isListening_detach h.distinct) fun hpending => ?_
        exact Promise.resolve_ne_pending call.upcoming (by simp) hpending.1

/-- An event settles a wait, and clears away what it had. -/
theorem Accounted.emitTransaction (h : Accounted s) (hashString : String) (txResult : TxResult) :
    Accounted (s.emitTransaction hashString txResult) ∧
      (NoneLeft s → NoneLeft (s.emitTransaction hashString txResult)) := by
  refine EventEmitter.emit_invariant_of_mem
    (I := fun s' : WaitState => Accounted s' ∧ (NoneLeft s → NoneLeft s')) ?_ ⟨h, id⟩
  intro r hr s' ⟨hs', hnone⟩
  obtain ⟨hmem, hevent⟩ := EventEmitter.mem_listeners_iff.mp hr
  have hne : r.event ≠ .newBlock := by
    rw [hevent]
    simp
  obtain ⟨j, call, -, rfl⟩ := h.owned r hmem hne
  obtain ⟨haccounted, hkept⟩ := hs'.handleTransaction j txResult
  exact ⟨haccounted, hkept ∘ hnone⟩

/-- **The timer**, whatever it finds. -/
theorem Accounted.expire (h : Accounted s) (i : ℕ) :
    Accounted (s.expire i) ∧ (NoneLeft s → NoneLeft (s.expire i)) := by
  unfold WaitState.expire
  cases hcall : s.calls i with
  | none => exact ⟨h, id⟩
  | some call =>
      have hcalls := h.calls i call hcall
      refine h.detach hcall rfl rfl ⟨?_, ?_, hcalls.unawaited, hcalls.done⟩
      · exact ⟨hcalls.caught, hcalls.transactionResult, hcalls.timeout.resolve, hcalls.awaited,
          hcalls.provable⟩
      · refine iff_of_false (not_isListening_detach h.distinct) fun hpending => ?_
        exact Promise.resolve_ne_pending call.timeout (by simp) hpending.2.1

/-- **An answer** is for the request of its call. -/
theorem Accounted.answer (h : Accounted s) (i : ℕ)
    (answer : Except RequestFailure (RpcResponse TxQueryResult)) :
    Accounted (s.answer i answer) ∧ (NoneLeft s → NoneLeft (s.answer i answer)) := by
  unfold WaitState.answer
  cases hcall : s.calls i with
  | none => exact ⟨h, id⟩
  | some call =>
      have hcalls := h.calls i call hcall
      have hothers : ∀ j, j ≠ i → Untouched s.toHeightState s.toHeightState j :=
        fun j _ => ⟨fun _ => Iff.rfl, rfl⟩
      have h' : Accounted (s.setCall i
          { call with response := call.response.resolve (Promise.ofExcept answer) }) := by
        refine h.setCall hcall rfl (fun _ hr _ => hr) h.distinct h.attended hothers ⟨?_,
          hcalls.listening_iff, hcalls.unawaited, hcalls.done⟩
        exact ⟨hcalls.caught, hcalls.transactionResult, hcalls.timeout, hcalls.awaited,
          hcalls.provable⟩
      refine ⟨h', fun hnone => ?_⟩
      exact (h.noneLeft_setCall_iff h' hothers hnone).mpr
        (h.noneLeft_iff.mp hnone i call hcall)

/-- **A new block** ends waits for it, and leaves the handlers for transactions alone. -/
theorem Accounted.newBlock (h : Accounted s) (height : ℕ) :
    Accounted (s.step (.newBlock height)) ∧
      (NoneLeft s → NoneLeft (s.step (.newBlock height))) := by
  obtain ⟨ids, hattended⟩ := h.attended
  obtain ⟨-, hwaits, hattended'⟩ := hattended.emitNewBlock height
  have hmem : ∀ r : Registration ChainEvent ChainListener, r.event ≠ .newBlock →
      (r ∈ (s.toHeightState.emitNewBlock height).blockchainListener.registrations ↔
        r ∈ s.blockchainListener.registrations) :=
    fun r hr => HeightState.mem_registrations_emitNewBlock hr
  have hlistening : ∀ i hashString, IsListening (s.toHeightState.emitNewBlock height) i hashString ↔
      IsListening s.toHeightState i hashString := by
    intro i hashString
    refine hmem _ ?_
    unfold registration
    simp
  have hwaiting : ∀ i, (s.toHeightState.emitNewBlock height).Waiting i → s.Waiting i := by
    rintro i ⟨wait', hw', hr'⟩
    rw [hwaits] at hw'
    obtain ⟨wait, hw, rfl⟩ := Option.map_eq_some_iff.mp hw'
    exact ⟨wait, hw, (Bool.or_eq_false_iff.mp hr').1⟩
  have h' : Accounted (s.step (.newBlock height)) := by
    refine ⟨fun r hr hne => h.owned r ((hmem r hne).mp hr) hne,
      HeightState.distinct_emitNewBlock h.distinct height, ⟨_, hattended'⟩, fun i hi => ?_,
      fun i call hcall => ?_⟩
    · show (s.toHeightState.emitNewBlock height).waits i = none
      rw [hwaits, h.uncalled i hi, Option.map_none]
    · refine (h.calls i call hcall).of_iff (hlistening i _) (fun hw => ?_) (hwaiting i)
      show (s.toHeightState.emitNewBlock height).waits i = none
      rw [hwaits, hw, Option.map_none]
  refine ⟨h', fun hnone => h'.noneLeft_iff.mpr fun i call hcall hsettled => ?_⟩
  obtain ⟨hl, hw⟩ := h.noneLeft_iff.mp hnone i call hcall hsettled
  exact ⟨fun hl' => hl ((hlistening i _).mp hl'), fun hw' => hw (hwaiting i hw')⟩

/-- **A new call** attaches its handler. -/
theorem Accounted.newCall (h : Accounted s) (hi : s.calls i = none) (hashString : String) :
    Accounted (s.waitForTransactionToBeProvable i hashString) ∧
      (NoneLeft s → NoneLeft (s.waitForTransactionToBeProvable i hashString)) := by
  obtain ⟨ids, hattended⟩ := h.attended
  -- no handler of this call was attached before
  have hnew : ∀ r ∈ s.blockchainListener.registrations,
      ¬ (r.event = .transaction hashString ∧ r.listener = .transactionHandler i) := by
    rintro r hr ⟨hevent, hlistener⟩
    obtain ⟨j, call, hj, rfl⟩ := h.owned r hr (by simp [hevent])
    cases hlistener
    cases hi.symm.trans hj
  have hothers : ∀ j, j ≠ i → Untouched s.toHeightState
      { s.toHeightState with
        blockchainListener :=
          s.blockchainListener.on (.transaction hashString) (.transactionHandler i) } j := by
    intro j hji
    refine ⟨fun hash => ?_, rfl⟩
    rw [IsListening, EventEmitter.mem_on_iff]
    refine or_iff_left fun heq => hji ?_
    simpa [registration] using congrArg Registration.listener heq
  have hstaged : Staged
      { s.toHeightState with
        blockchainListener :=
          s.blockchainListener.on (.transaction hashString) (.transactionHandler i) }
      i (.new hashString) :=
    staged_new (EventEmitter.mem_on_iff.mpr (Or.inr rfl)) (h.uncalled i hi)
  have h' : Accounted (s.waitForTransactionToBeProvable i hashString) := by
    refine ⟨fun r hr hne => ?_, h.distinct.on hnew, ⟨ids, hattended.of_eq ?_ rfl rfl⟩,
      fun j hj => ?_, fun j call hj => ?_⟩
    · rcases EventEmitter.mem_on_iff.mp hr with hold | rfl
      · obtain ⟨j, call, hj, rfl⟩ := h.owned r hold hne
        have hji : j ≠ i := by
          rintro rfl
          cases hi.symm.trans hj
        exact ⟨j, call, (setCall_of_ne hji).trans hj, rfl⟩
      · exact ⟨i, _, setCall_self, rfl⟩
    · exact EventEmitter.listeners_on_of_ne _ (by simp) _
    · have hji : j ≠ i := by
        rintro rfl
        cases setCall_self.symm.trans hj
      exact h.uncalled j ((setCall_of_ne hji).symm.trans hj)
    · by_cases hji : j = i
      · subst hji
        obtain rfl : ProvableCall.new hashString = call :=
          Option.some.inj (setCall_self.symm.trans hj)
        exact hstaged
      · have hold := h.calls j call ((setCall_of_ne hji).symm.trans hj)
        exact hold.of_iff ((hothers j hji).listening _) id id
  refine ⟨h', fun hnone => (h.noneLeft_setCall_iff h' hothers hnone).mpr fun hsettled => ?_⟩
  exact absurd rfl hsettled

/-! ## The jobs -/

/-- What a job does to the listeners. -/
theorem effect_cases (i : ℕ) (call : ProvableCall) (job : Job) (hs : HeightState) :
    effect i call job hs = hs ∨ effect i call job hs = WaitState.detach i call.hashString hs ∨
      ∃ height, call.awaited = none ∧ effect i call job hs = hs.waitForHeight i height := by
  cases job with
  | detachExisting =>
      unfold effect
      simp only
      split
      · exact Or.inr (Or.inl rfl)
      · exact Or.inl rfl
  | commitment =>
      rcases commit_cases i call hs with
        ⟨result, -, hawaited, -, -, heffect⟩ | ⟨_, -, -, -, -, heffect⟩ | ⟨-, heffect⟩
      · exact Or.inr (Or.inr ⟨_, hawaited, heffect⟩)
      · exact Or.inl heffect
      · exact Or.inl heffect
  | _ => exact Or.inl rfl

/-- A wait for a block is new. -/
theorem distinct_waitForHeight {ids : List ℕ} (hattended : HeightState.Attended hs ids)
    (hd : hs.blockchainListener.Distinct) (hw : hs.waits i = none) (height : ℕ) :
    (hs.waitForHeight i height).blockchainListener.Distinct := by
  unfold HeightState.waitForHeight
  split_ifs
  · exact hd
  · refine hd.on fun r hr ⟨hevent, hlistener⟩ => ?_
    have hmem := EventEmitter.mem_listeners_iff.mpr ⟨hr, hevent⟩
    rw [hattended.listens] at hmem
    rcases List.mem_cons.mp hmem with rfl | hmem
    · cases hlistener
    · obtain ⟨j, hj, rfl⟩ := List.mem_map.mp hmem
      cases hlistener
      obtain ⟨wait, hw', -⟩ := (hattended.mem_iff i).mp hj
      cases hw.symm.trans hw'

/-- A job of a call that is not settled by it leaves no handler behind. -/
theorem Clear.react (h : Clear hs i call) (job : Job) (hjob : job ≠ .commitment)
    (hresult : (call.react (isReached i hs) job).result = call.result) :
    Clear (effect i call job hs) i (call.react (isReached i hs) job) := by
  intro hsettled
  obtain ⟨hl, hw⟩ := h (hresult ▸ hsettled)
  rw [react_hashString, HeightState.Waiting, (effect_waits hjob i call hs).2]
  refine ⟨fun hl' => hl (mem_of_mem_effect ?_ hl'), hw⟩
  unfold registration
  simp

/-- The timer settles the call. -/
theorem Staged.clear_raceTimeout_iff (h : Staged hs i call) (hclear : Clear hs i call) :
    Clear hs i (call.react (isReached i hs) .raceTimeout) ↔ ¬ Strands hs i call .raceTimeout := by
  by_cases hdue : call.result = .pending ∧ call.timeout ≠ .pending
  · obtain ⟨hresult, hne⟩ := hdue
    have hsettled : call.result.race call.timeout ≠ .pending := by
      rw [hresult, h.timeout.eq_of_ne hne]
      simp [Promise.race]
    -- the timer has detached the other handler
    have hl : ¬ IsListening hs i call.hashString := by
      rw [h.listening_iff]
      exact fun hpending => hne hpending.2.1
    constructor
    · exact fun hc hstrands => (hc hsettled).2 hstrands.2.2
    · exact fun hnot _ => ⟨hl, fun hw => hnot ⟨hresult, hne, hw⟩⟩
  · refine iff_of_true (hclear.react .raceTimeout (by simp) ?_) fun hstrands => ?_
    · show call.result.race call.timeout = call.result
      by_cases hresult : call.result = .pending
      · have ht : call.timeout = .pending := by
          by_contra hne
          exact hdue ⟨hresult, hne⟩
        rw [hresult, ht]
        rfl
      · exact Promise.race_of_ne hresult _
    · exact hdue ⟨hstrands.1, hstrands.2.1⟩

/-- A result settles the call, or the failure of the request does. -/
theorem Staged.clear_raceProvable_iff (h : Staged hs i call) (hclear : Clear hs i call) :
    Clear hs i (call.react (isReached i hs) .raceProvable) ↔
      ¬ Strands hs i call .raceProvable := by
  by_cases hresult : call.result = .pending
  · cases hprovable : call.provable with
    | fulfilled result =>
        have hne : call.provable ≠ .pending := by simp [hprovable]
        have htr := (h.provable.eq_of_ne hne).symm.trans hprovable
        -- the handler was detached by what the result comes from
        have hl : ¬ IsListening hs i call.hashString := by
          rw [h.listening_iff]
          rintro ⟨hu, -, hd⟩
          rcases h.detached_of_fulfilled htr with hne | ⟨result', hd'⟩
          · exact hne hu
          · exact hd result' hd'
        refine iff_of_true (fun _ => ⟨hl, (h.done hne).1⟩) ?_
        rintro ⟨-, ⟨failure, hrejected⟩, -⟩
        cases hrejected.symm.trans hprovable
    | rejected failure =>
        have hne : call.provable ≠ .pending := by simp [hprovable]
        have htr := (h.provable.eq_of_ne hne).symm.trans hprovable
        -- a failure settles the call, and nothing has detached the handler
        have hsettled : call.result.race call.provable ≠ .pending := by
          rw [hresult, hprovable]
          simp [Promise.race]
        constructor
        · rintro hc ⟨-, -, hu, ht⟩
          refine (hc hsettled).1 (h.listening_iff.mpr ⟨hu, ht, ?_⟩)
          exact h.not_detached_of_rejected htr hu
        · refine fun hnot _ => ⟨fun hl => ?_, (h.done hne).1⟩
          obtain ⟨hu, ht, -⟩ := h.listening_iff.mp hl
          exact hnot ⟨hresult, ⟨failure, hprovable⟩, hu, ht⟩
    | _ =>
        refine iff_of_true (hclear.react .raceProvable (by simp) ?_) ?_
        · show call.result.race call.provable = call.result
          rw [hresult, hprovable]
          rfl
        · rintro ⟨-, ⟨failure, hrejected⟩, -⟩
          cases hrejected.symm.trans hprovable
  · refine iff_of_true (hclear.react .raceProvable (by simp) ?_) fun hstrands => ?_
    · exact Promise.race_of_ne hresult _
    · exact hresult hstrands.1

/-- The wait for a block starts, or there is none. -/
theorem Clear.commit_iff (hclear : Clear hs i call) :
    Clear (effect i call .commitment hs) i call.commit ↔ ¬ Strands hs i call .commitment := by
  rcases commit_cases i call hs with
    ⟨result, htr, hawaited, hok, heq, heffect⟩ | ⟨outcome, htr, -, hnot, heq, heffect⟩ |
      ⟨heq, heffect⟩
  · rw [heq, heffect]
    have hl : IsListening (hs.waitForHeight i (result.height + 1)) i call.hashString ↔
        IsListening hs i call.hashString := by
      refine mem_waitForHeight ?_ i _
      unfold registration
      simp
    have hw : (hs.waitForHeight i (result.height + 1)).Waiting i ↔
        hs.currentHeight ≤ result.height := by
      rw [HeightState.waiting_waitForHeight_iff, if_pos rfl, Nat.lt_succ_iff]
    constructor
    · rintro hc ⟨hsettled, -, result', htr', -, hle⟩
      obtain rfl : result = result' := by simpa using htr.symm.trans htr'
      exact (hc hsettled).2 (hw.mpr hle)
    · refine fun hstrands hsettled => ⟨?_, fun hw' => ?_⟩
      · exact fun hl' => (hclear hsettled).1 (hl.mp hl')
      · exact hstrands ⟨hsettled, hawaited, result, htr, hok, hw.mp hw'⟩
  · rw [heq, heffect]
    refine iff_of_true hclear ?_
    rintro ⟨-, -, result, htr', hok, -⟩
    exact hnot result (htr.symm.trans htr') hok
  · rw [heffect]
    refine iff_of_true (by rwa [heq]) ?_
    rintro ⟨-, hawaited, result, htr, hok, -⟩
    have hnext : call.commit.awaited = some result := by
      rw [ProvableCall.commit, hawaited, htr]
      simp [hok]
    rw [heq] at hnext
    cases hawaited.symm.trans hnext

/-- **A call stays clear in all but three cases.** -/
theorem Staged.clear_react_iff (h : Staged hs i call) (hclear : Clear hs i call) (job : Job) :
    Clear (effect i call job hs) i (call.react (isReached i hs) job) ↔
      ¬ Strands hs i call job := by
  cases job with
  | raceTimeout => exact h.clear_raceTimeout_iff hclear
  | raceProvable => exact h.clear_raceProvable_iff hclear
  | commitment => exact hclear.commit_iff
  | heightReached =>
      refine iff_of_true (hclear.react _ (by simp) ?_) id
      obtain ⟨provable, heq⟩ := exists_continueCommitment (isReached i hs) call
      rw [ProvableCall.react, heq]
  | _ => exact iff_of_true (hclear.react _ (by simp) rfl) id

/-- **A job** keeps the account, and leaves no handler behind but in these cases. -/
theorem Accounted.runJob (h : Accounted s) (i : ℕ) (job : Job) :
    Accounted (s.runJob i job) ∧
      (NoneLeft s → (NoneLeft (s.runJob i job) ↔ Tidy s (.job i job))) := by
  unfold WaitState.runJob
  cases hcall : s.calls i with
  | none =>
      refine ⟨h, fun hnone => iff_of_true hnone fun call hcall' => ?_⟩
      cases hcall.symm.trans hcall'
  | some call =>
      have hcalls := h.calls i call hcall
      obtain ⟨ids, hattended⟩ := h.attended
      have hothers : ∀ j, j ≠ i → Untouched s.toHeightState _ j :=
        fun j hji => untouched_effect_of_ne hji call job s.toHeightState
      -- a job detaches the handler of its call, or makes it wait, or leaves the listeners
      have hlisteners : (effect i call job s.toHeightState).blockchainListener.Distinct ∧
          ∃ ids, HeightState.Attended (effect i call job s.toHeightState) ids := by
        rcases effect_cases i call job s.toHeightState with heq | heq | ⟨height, hawaited, heq⟩
        · rw [heq]
          exact ⟨h.distinct, ids, hattended⟩
        · rw [heq]
          exact ⟨h.distinct.removeListener _ _, ids, attended_detach i _ hattended⟩
        · rw [heq]
          have hw := hcalls.unawaited hawaited
          exact ⟨distinct_waitForHeight hattended h.distinct hw height, _,
            hattended.waitForHeight hw height⟩
      have h' := h.setCall hcall
        (react_hashString (isReached i s.toHeightState) call job)
        (fun r hr hne => mem_of_mem_effect hne hr) hlisteners.1 hlisteners.2 hothers
        (hcalls.react h.distinct job)
      refine ⟨h', fun hnone => ?_⟩
      rw [h.noneLeft_setCall_iff h' hothers hnone,
        hcalls.clear_react_iff (h.noneLeft_iff.mp hnone i call hcall) job]
      constructor
      · intro hnot call' hcall'
        obtain rfl : call = call' := Option.some.inj (hcall.symm.trans hcall')
        exact hnot
      · exact fun htidy => htidy call hcall

/-! ## Runs -/

/-- **Every step keeps the account.**  It leaves no handler behind exactly when it is tidy. -/
theorem Accounted.step (h : Accounted s) (a : Action) :
    Accounted (s.step a) ∧ (NoneLeft s → (NoneLeft (s.step a) ↔ Tidy s a)) := by
  cases a with
  | call i hashString =>
      unfold WaitState.step
      simp only
      split_ifs with hi
      · obtain ⟨h', hkept⟩ := h.newCall hi hashString
        exact ⟨h', fun hnone => iff_of_true (hkept hnone) trivial⟩
      · exact ⟨h, fun hnone => iff_of_true hnone trivial⟩
  | answer i answer =>
      obtain ⟨h', hkept⟩ := h.answer i answer
      exact ⟨h', fun hnone => iff_of_true (hkept hnone) trivial⟩
  | tx message =>
      show Accounted (s.receiveTransaction message) ∧ _
      unfold WaitState.step receiveTransaction
      simp only
      cases message.hashString with
      | none => exact ⟨h, fun hnone => iff_of_true hnone trivial⟩
      | some hashString =>
          obtain ⟨h', hkept⟩ := h.emitTransaction hashString message.txResult
          exact ⟨h', fun hnone => iff_of_true (hkept hnone) trivial⟩
  | newBlock height =>
      obtain ⟨h', hkept⟩ := h.newBlock height
      exact ⟨h', fun hnone => iff_of_true (hkept hnone) trivial⟩
  | timeout i =>
      obtain ⟨h', hkept⟩ := h.expire i
      exact ⟨h', fun hnone => iff_of_true (hkept hnone) trivial⟩
  | job i job => exact h.runJob i job

/-- At first there are no calls. -/
theorem initial_accounted : Accounted initial where
  owned := fun r hr hne => by
    obtain rfl : r = ⟨.newBlock, .setCurrentHeight, false⟩ := List.mem_singleton.mp hr
    exact absurd rfl hne
  distinct := List.nodup_singleton _
  attended := ⟨[], HeightState.attended_waitForHeightFactory .empty rfl⟩
  uncalled := fun _ _ => rfl
  calls := fun i call hi => by cases hi

/-- **A settled wait leaves no listener, but in three cases.**  In a run, the calls that are
settled have no listener in any state, if and only if no step settles a call by its timer while
it waits for a block, or by a failed request while it still listens for its transaction, or
takes up an Ok result that is not provable yet after the call was settled. -/
theorem noneLeft_run_iff (as : List Action) :
    (∀ before after, as = before ++ after → NoneLeft (run initial before)) ↔
      Machine.Admissible step Tidy initial as := by
  -- the step lemma decides each step, as long as no handler was left before it
  refine (Machine.admissible_iff_forall_run (I := Accounted) (fun _ a h => (h.step a).1)
    (fun _ a h => (h.step a).2) initial_accounted ?_ as).symm
  intro i call hcall
  cases hcall

/-- The timer fires while the call waits for the next block. -/
def expiredActions : List Action :=
  [.call 0 "AB", .tx ⟨some ["AB"], ⟨some ⟨some 0, none⟩, [1], 5⟩⟩, .job 0 .raceUpcoming,
    .job 0 .commitment, .timeout 0, .job 0 .raceTimeout]

/-- The handler for the blocks is left. -/
theorem not_noneLeft_expired : ¬ NoneLeft (run initial expiredActions) := by
  intro hnone
  refine hnone 0 _ rfl ?_ ?_
  · decide +kernel
  · exact ⟨HeightState.heightRegistration 0, by decide +kernel, Or.inr rfl⟩

end WaitState

end Dapi
