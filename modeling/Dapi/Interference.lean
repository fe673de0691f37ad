/-
# One call among others

The calls of a server share the emitter collection.  A handler reaches the other
calls in one way only: the mempool read tests its transactions against the whole
collection, as a notification does.

* `collectionTests`: the tests of the collection that the handlers make in an action.
* `without`: a run from which the actions of one call are removed, except that the
  tests of the collection stay, as announcements of the transactions.
* `Apart` relates a state to one that the call was never part of; `Apart.step` is the
  step lemma.
* `calls_apart`: in a run in which no test raises, the other calls are as in the run
  without the call.
-/
import Dapi.StreamSystem

namespace Dapi

open Async Program

namespace StreamSystem

/-! ## Leaving a call out -/

/-- A test of the whole collection, and the exception that its caller gets. -/
structure CollectionTest where
  transaction : Transaction
  result : Except ScriptError Unit
  deriving DecidableEq

/-- What the mediator of a subscription emitted that carries data. -/
def dataEvent : TraceEvent → Option MediatorEvent
  | .emitted (.transaction tx) => some (.transaction tx)
  | .emitted (.merkleBlock merkleBlock) => some (.merkleBlock merkleBlock)
  | .emitted (.instantLock lock) => some (.instantLock lock)
  | _ => none

/-- Whether the action is a step of call `j`: of its handler, its loop or its cancellation. -/
def Action.isOf (j : ℕ) : Action → Bool
  | .call i _ | .answer i _ | .wakeUp i | .cancelled i => decide (i = j)
  | .rawTransaction _ | .block _ | .instantLock _ _ => false

section

variable {F : Type}

/-- The data events that the mediator of a call emitted, in their order. -/
def dataEvents (sys : StreamSystem F) (i : ℕ) : List MediatorEvent :=
  (sys.trace i).filterMap dataEvent

variable (env : Environment F)

/-- The test of the collection that an operation of a handler makes, with its outcome. -/
def opTests (sys : StreamSystem F) : HandlerOp → List CollectionTest
  | .testCollection tx => [⟨tx, (sys.forEachEmitter env (.test tx)).1⟩]
  | _ => []

variable [BloomFilter F] (lib : DashcoreLib F)

/-- The tests of the collection that a handler makes on its way to the next `await`. -/
def handlerTests (i : ℕ) : HandlerProgram Unit → StreamSystem F → List CollectionTest
  | .sync op k, sys =>
    sys.opTests env op ++ handlerTests i (k (sys.exec env lib i op).1) (sys.exec env lib i op).2
  | _, _ => []

/-- The tests of the collection that a handler makes in an action. -/
def collectionTests (sys : StreamSystem F) : Action → List CollectionTest
  | .call i request =>
    if (sys.calls i).request = none then
      handlerTests env lib i (subscribeToTransactionsWithProofsHandler lib request)
        { sys.setCall i (.accepted request) with accepted := sys.accepted ++ [i] }
    else []
  | .answer i answer => handlerTests env lib i ((sys.handlers i).resume answer) sys
  | _ => []

/-- No test of the collection raises in the action. -/
def Unraised (sys : StreamSystem F) : Action → Prop
  | .rawTransaction tx => (sys.forEachEmitter env (.test tx)).1 = .ok ()
  | .block block => (sys.forEachEmitter env (.block block)).1 = .ok ()
  | .instantLock tx lock => (sys.forEachEmitter env (.instantLock tx lock)).1 = .ok ()
  | a => ∀ test ∈ sys.collectionTests env lib a, test.result = .ok ()

instance (sys : StreamSystem F) (a : Action) : Decidable (Unraised env lib sys a) :=
  match a with
  | .rawTransaction tx =>
    inferInstanceAs (Decidable ((sys.forEachEmitter env (.test tx)).1 = .ok ()))
  | .block block =>
    inferInstanceAs (Decidable ((sys.forEachEmitter env (.block block)).1 = .ok ()))
  | .instantLock tx lock =>
    inferInstanceAs (Decidable ((sys.forEachEmitter env (.instantLock tx lock)).1 = .ok ()))
  | .call _ _ | .answer _ _ | .wakeUp _ | .cancelled _ =>
    inferInstanceAs (Decidable (∀ test ∈ sys.collectionTests env lib _, test.result = .ok ()))

/-- The transactions of tests, announced. -/
def announcements (tests : List CollectionTest) : List Action :=
  tests.map fun test => .rawTransaction test.transaction

/-- The actions of a run, those of call `j` replaced by announcements of what they test. -/
def without (j : ℕ) : StreamSystem F → List Action → List Action
  | _, [] => []
  | sys, a :: as =>
    (if a.isOf j then announcements (sys.collectionTests env lib a) else [a]) ++
      without j (sys.step env lib a) as

end

/-! ## Two states that agree on the other calls -/

section

variable {F : Type}

/-- The states agree, except that call `j` is not part of the second one. -/
structure Apart (j : ℕ) (sys sys' : StreamSystem F) : Prop where
  accepted : sys'.accepted = sys.accepted.filter (fun k => decide (k ≠ j))
  calls : ∀ k, k ≠ j → sys'.calls k = sys.calls k
  handlers : ∀ k, k ≠ j → sys'.handlers k = sys.handlers k

variable {env : Environment F} {sys sys' : StreamSystem F} {i j : ℕ}

/-- Without calls the systems are apart. -/
theorem apart_initial : Apart j (initial : StreamSystem F) initial :=
  ⟨rfl, fun _ _ => rfl, fun _ _ => rfl⟩

/-- The collections differ in the call that is left out. -/
theorem Apart.collection (h : Apart j sys sys') :
    sys'.bloomFilterEmitterCollection =
      sys.bloomFilterEmitterCollection.filter (fun k => decide (k ≠ j)) := by
  unfold bloomFilterEmitterCollection
  rw [h.accepted, List.filter_filter, List.filter_filter]
  apply List.filter_congr
  intro k _
  by_cases hk : k = j
  · simp [hk]
  · rw [h.calls k hk, Bool.and_comm]

theorem Apart.setCall (h : Apart j sys sys') (i : ℕ) (call : Call F) :
    Apart j (sys.setCall i call) (sys'.setCall i call) := by
  refine ⟨h.accepted, fun k hk => ?_, h.handlers⟩
  by_cases hki : k = i
  · rw [hki, setCall_self, setCall_self]
  · rw [setCall_of_ne hki, setCall_of_ne hki]
    exact h.calls k hk

/-- What only changes the call that is left out is not noticed. -/
theorem Apart.setCall_left (h : Apart j sys sys') (call : Call F) :
    Apart j (sys.setCall j call) sys' := by
  refine ⟨h.accepted, fun k hk => ?_, h.handlers⟩
  rw [setCall_of_ne hk]
  exact h.calls k hk

/-- A step of another subscription is the same in both systems. -/
theorem Apart.actOn (h : Apart j sys sys') (hij : i ≠ j) (a : Subscription.Action) :
    (sys'.actOn env a i).1 = (sys.actOn env a i).1 ∧
      Apart j (sys.actOn env a i).2 (sys'.actOn env a i).2 := by
  unfold StreamSystem.actOn
  rw [h.calls i hij]
  exact ⟨rfl, h.setCall i _⟩

/-- **A notification** reaches the other calls in both states alike. -/
theorem Apart.forEachEmitter (h : Apart j sys sys') {a : Subscription.Action}
    (hok : (sys.forEachEmitter env a).1 = .ok ()) :
    (sys'.forEachEmitter env a).1 = .ok () ∧
      Apart j (sys.forEachEmitter env a).2 (sys'.forEachEmitter env a).2 := by
  unfold StreamSystem.forEachEmitter
  rw [h.collection]
  refine forEach_filter (R := Apart j) ?_ ?_ h hok
  · intro k sys₁ sys₁' hk h₁
    exact h₁.actOn (of_decide_eq_true hk) a
  · intro k sys₁ sys₁' hk h₁
    obtain rfl : k = j := by simpa using hk
    exact h₁.setCall_left _

variable [BloomFilter F] {lib : DashcoreLib F}

/-! ## The handlers -/

/-- A test that raises nothing answers the handler. -/
theorem exec_testCollection_fst {tx : Transaction}
    (hok : (sys.forEachEmitter env (.test tx)).1 = .ok ()) :
    (sys.exec env lib i (.testCollection tx)).1 = .ok () := by
  rw [StreamSystem.exec]
  rcases hr : sys.forEachEmitter env (.test tx) with ⟨_ | _, sys₁⟩
  · rw [hr] at hok
    cases hok
  · rfl

/-- An operation of the handler of another call. -/
theorem Apart.exec (h : Apart j sys sys') (hij : i ≠ j) {op : HandlerOp}
    (hok : ∀ test ∈ sys.opTests env op, test.result = .ok ()) :
    (sys'.exec env lib i op).1 = (sys.exec env lib i op).1 ∧
      Apart j (sys.exec env lib i op).2 (sys'.exec env lib i op).2 := by
  by_cases hop : ∀ tx, op ≠ .testCollection tx
  · rw [exec_of_ne hop, exec_of_ne hop, h.calls i hij]
    exact ⟨rfl, h.setCall i _⟩
  · push Not at hop
    obtain ⟨tx, rfl⟩ := hop
    have hfirst : (sys.forEachEmitter env (.test tx)).1 = .ok () :=
      hok _ (List.mem_singleton_self _)
    obtain ⟨hsecond, h₁⟩ := h.forEachEmitter hfirst
    rw [exec_testCollection_snd, exec_testCollection_snd]
    rw [exec_testCollection_fst hfirst, exec_testCollection_fst hsecond]
    exact ⟨rfl, h₁⟩

/-- An operation of the handler that is left out, against what it tests. -/
theorem Apart.exec_left (h : Apart j sys sys') {op : HandlerOp}
    (hok : ∀ test ∈ sys.opTests env op, test.result = .ok ()) :
    Apart j (sys.exec env lib j op).2
      (run env lib sys' (announcements (sys.opTests env op))) := by
  by_cases hop : ∀ tx, op ≠ .testCollection tx
  · have hnone : sys.opTests env op = [] := by
      cases op with
      | testCollection tx => exact absurd rfl (hop tx)
      | _ => rfl
    rw [hnone, exec_of_ne hop]
    exact h.setCall_left _
  · push Not at hop
    obtain ⟨tx, rfl⟩ := hop
    rw [exec_testCollection_snd]
    exact (h.forEachEmitter (hok _ (List.mem_singleton_self _))).2

/-- The way of another handler to its next `await`. -/
theorem Apart.advance (h : Apart j sys sys') (hij : i ≠ j) (handler : HandlerProgram Unit)
    (hok : ∀ test ∈ handlerTests env lib i handler sys, test.result = .ok ()) :
    (handler.advance (StreamSystem.exec env lib i) sys').1 =
        (handler.advance (StreamSystem.exec env lib i) sys).1 ∧
      Apart j (handler.advance (StreamSystem.exec env lib i) sys).2
        (handler.advance (StreamSystem.exec env lib i) sys').2 := by
  induction handler generalizing sys sys' with
  | sync op k ih =>
      unfold handlerTests at hok
      obtain ⟨hanswer, h₁⟩ : (sys'.exec env lib i op).1 = (sys.exec env lib i op).1 ∧
          Apart j (sys.exec env lib i op).2 (sys'.exec env lib i op).2 :=
        h.exec hij fun test ht => hok test (List.mem_append_left _ ht)
      unfold Program.advance
      rw [hanswer]
      exact ih _ h₁ fun test ht => hok test (List.mem_append_right _ ht)
  | done _ => exact ⟨rfl, h⟩
  | throw _ => exact ⟨rfl, h⟩
  | await _ _ => exact ⟨rfl, h⟩

/-- The way of the handler that is left out. -/
theorem Apart.advance_left (h : Apart j sys sys') (handler : HandlerProgram Unit)
    (hok : ∀ test ∈ handlerTests env lib j handler sys, test.result = .ok ()) :
    Apart j (handler.advance (StreamSystem.exec env lib j) sys).2
      (run env lib sys' (announcements (handlerTests env lib j handler sys))) := by
  induction handler generalizing sys sys' with
  | sync op k ih =>
      unfold handlerTests at hok ⊢
      have h₁ : Apart j (sys.exec env lib j op).2
          (run env lib sys' (announcements (sys.opTests env op))) :=
        h.exec_left fun test ht => hok test (List.mem_append_left _ ht)
      unfold announcements at h₁ ⊢
      rw [List.map_append, run, Machine.run_append]
      exact ih _ h₁ fun test ht => hok test (List.mem_append_right _ ht)
  | done _ => exact h
  | throw _ => exact h
  | await _ _ => exact h

/-- The handler of another call is the same in both systems. -/
theorem Apart.runHandler (h : Apart j sys sys') (hij : i ≠ j) (handler : HandlerProgram Unit)
    (hok : ∀ test ∈ handlerTests env lib i handler sys, test.result = .ok ()) :
    Apart j (sys.runHandler env lib i handler) (sys'.runHandler env lib i handler) := by
  obtain ⟨hsame, h₁⟩ := h.advance hij handler hok
  refine ⟨h₁.accepted, h₁.calls, fun k hk => ?_⟩
  by_cases hki : k = i
  · rw [hki, runHandler_handlers_self, runHandler_handlers_self, hsame]
  · rw [runHandler_handlers_of_ne hki, runHandler_handlers_of_ne hki]
    exact h.handlers k hk

/-- Of the handler that is left out, the other system hears the tests only. -/
theorem Apart.runHandler_left (h : Apart j sys sys') (handler : HandlerProgram Unit)
    (hok : ∀ test ∈ handlerTests env lib j handler sys, test.result = .ok ()) :
    Apart j (sys.runHandler env lib j handler)
      (run env lib sys' (announcements (handlerTests env lib j handler sys))) := by
  have h₁ := h.advance_left handler hok
  refine ⟨h₁.accepted, h₁.calls, fun k hk => ?_⟩
  rw [h₁.handlers k hk]
  exact (Function.update_of_ne hk _ _).symm

/-! ## Every run -/

theorem run_singleton (a : Action) : run env lib sys [a] = sys.step env lib a := rfl

/-- A step of call `j` does to the other calls what its tests do, announced. -/
theorem Apart.step_left (h : Apart j sys sys') {a : Action} (hof : a.isOf j = true)
    (hu : Unraised env lib sys a) :
    Apart j (sys.step env lib a)
      (run env lib sys' (announcements (sys.collectionTests env lib a))) := by
  cases a with
  | call i request =>
      obtain rfl : i = j := of_decide_eq_true hof
      have hu' : ∀ test ∈ sys.collectionTests env lib (.call i request), test.result = .ok () := hu
      rw [StreamSystem.step]
      rw [collectionTests] at hu' ⊢
      split_ifs at hu' ⊢
      · -- the call is accepted, and its handler runs up to the first request
        apply Apart.runHandler_left _ _ hu'
        refine ⟨?_, (h.setCall_left _).calls, h.handlers⟩
        show sys'.accepted = (sys.accepted ++ [i]).filter _
        rw [List.filter_append, h.accepted]
        simp
      · exact h
  | answer i answer =>
      obtain rfl : i = j := of_decide_eq_true hof
      exact h.runHandler_left _ hu
  | wakeUp i =>
      obtain rfl : i = j := of_decide_eq_true hof
      exact h.setCall_left _
  | cancelled i =>
      obtain rfl : i = j := of_decide_eq_true hof
      rw [StreamSystem.step]
      split_ifs
      · exact h.setCall_left _
      · exact h
  | _ => cases hof

/-- A step that is not one of call `j` does to the others what it does without it. -/
theorem Apart.step_both (h : Apart j sys sys') {a : Action} (hof : ¬ a.isOf j = true)
    (hu : Unraised env lib sys a) :
    Apart j (sys.step env lib a) (sys'.step env lib a) := by
  cases a with
  | call i request =>
      have hij : i ≠ j := fun hij => hof (decide_eq_true hij)
      have hu' : ∀ test ∈ sys.collectionTests env lib (.call i request), test.result = .ok () := hu
      rw [StreamSystem.step, StreamSystem.step, h.calls i hij]
      rw [collectionTests] at hu'
      split_ifs at hu' ⊢
      · apply Apart.runHandler _ hij _ hu'
        refine ⟨?_, (h.setCall i _).calls, h.handlers⟩
        show sys'.accepted ++ [i] = (sys.accepted ++ [i]).filter _
        rw [List.filter_append, h.accepted]
        simp [hij]
      · exact h
  | answer i answer =>
      have hij : i ≠ j := fun hij => hof (decide_eq_true hij)
      show Apart j (sys.runHandler env lib i _) (sys'.runHandler env lib i _)
      rw [h.handlers i hij]
      exact h.runHandler hij _ hu
  -- the emitter asks the subscriptions that both have, and those of call `j` on one side only
  | rawTransaction tx => exact (h.forEachEmitter hu).2
  | block block => exact (h.forEachEmitter hu).2
  | instantLock tx lock => exact (h.forEachEmitter hu).2
  | wakeUp i =>
      have hij : i ≠ j := fun hij => hof (decide_eq_true hij)
      exact (h.actOn hij .wakeUp).2
  | cancelled i =>
      have hij : i ≠ j := fun hij => hof (decide_eq_true hij)
      rw [StreamSystem.step, StreamSystem.step, h.calls i hij]
      split_ifs
      · exact h.setCall i _
      · exact h

/-- **Step lemma.**  A step of call `j` leaves the other calls as its tests do, announced; every
other step does to them what it does without call `j`. -/
theorem Apart.step (h : Apart j sys sys') {a : Action} (hu : Unraised env lib sys a) :
    Apart j (sys.step env lib a) (run env lib sys'
      (if a.isOf j then announcements (sys.collectionTests env lib a) else [a])) := by
  by_cases hof : a.isOf j = true
  · rw [if_pos hof]
    exact h.step_left hof hu
  · rw [if_neg hof, run_singleton]
    exact h.step_both hof hu

/-- **The runs stay apart**, as long as no test raises. -/
theorem Apart.run (h : Apart j sys sys') {as : List Action}
    (hu : Machine.Admissible (StreamSystem.step env lib) (Unraised env lib) sys as) :
    Apart j (StreamSystem.run env lib sys as)
      (StreamSystem.run env lib sys' (without env lib j sys as)) := by
  induction as generalizing sys sys' with
  | nil => exact h
  | cons a as ih =>
      unfold without
      rw [StreamSystem.run, Machine.run_append]
      exact ih (h.step hu.1) hu.2

/-- When the handler tests nothing against the collection, its steps are just left out. -/
theorem without_eq_filter {as : List Action}
    (hnone : Machine.Admissible (StreamSystem.step env lib)
      (fun sys a => a.isOf j = true → sys.collectionTests env lib a = []) sys as) :
    without env lib j sys as = as.filter (fun a => !a.isOf j) := by
  induction as generalizing sys with
  | nil => rfl
  | cons a as ih =>
      unfold without
      rw [ih hnone.2]
      cases ha : a.isOf j with
      | true =>
          rw [hnone.1 ha, List.filter_cons_of_neg (by simp [ha])]
          rfl
      | false =>
          rw [List.filter_cons_of_pos (by simp [ha])]
          rfl

/-- **Calls do not interfere, beyond announcing what they test.**  In every run of any number of
calls in which no test raises, any other call ends as in the run without call `j`, where the
transactions that the handler of call `j` tested are announced instead, and its mediator
emitted the same data events.  When that handler tested none, its actions are just left out. -/
theorem calls_apart (env : Environment F) (lib : DashcoreLib F) {i j : ℕ} (hij : i ≠ j)
    {as : List Action}
    (hu : Machine.Admissible (StreamSystem.step env lib) (Unraised env lib) .initial as) :
    (StreamSystem.run env lib .initial as).calls i =
        (StreamSystem.run env lib .initial (without env lib j .initial as)).calls i ∧
      (StreamSystem.run env lib .initial as).dataEvents i =
        (StreamSystem.run env lib .initial (without env lib j .initial as)).dataEvents i ∧
      (Machine.Admissible (StreamSystem.step env lib)
          (fun sys a => a.isOf j = true → sys.collectionTests env lib a = []) .initial as →
        (StreamSystem.run env lib .initial as).dataEvents i =
          (StreamSystem.run env lib .initial
            (as.filter (fun a => !a.isOf j))).dataEvents i) := by
  have hcalls := ((apart_initial.run (j := j) hu).calls i hij).symm
  have hevents := congrArg (fun call : Call F =>
    ((call.subscription.map Subscription.trace).getD []).filterMap dataEvent) hcalls
  refine ⟨hcalls, hevents, fun hnone => ?_⟩
  rw [← without_eq_filter hnone]
  exact hevents

end

/-- Core with one transaction in the mempool. -/
def memPoolAnswer : (r : CoreRequest) → Except Failure r.Answer
  | .getRawMemPool => .ok ([[7]] : List Hash)
  | r => paymentAnswer r

/-- Two calls for the same payments; the second one reads the mempool. -/
def overheardActions : List Action :=
  [.call 0 paymentRequest, .call 1 paymentRequest] ++ paymentAnswers ++
    List.replicate 10 (.answer 1 memPoolAnswer) ++ [.wakeUp 0]

/-- The client gets the same with and without the other one. -/
theorem calls_apart_overheard :
    (paymentRun overheardActions).dataEvents 0 =
      (paymentRun (without paymentEnvironment paymentLib 1 .initial
        overheardActions)).dataEvents 0 :=
  (calls_apart paymentEnvironment paymentLib (by decide) (by decide +kernel)).2.1

/-- The first call emits a transaction that only the mempool read of the second one came across. -/
theorem not_calls_apart_overheard :
    (paymentRun overheardActions).dataEvents 0 ≠
      (paymentRun (overheardActions.filter (fun a => !a.isOf 1))).dataEvents 0 := by
  decide +kernel

end StreamSystem

end Dapi
