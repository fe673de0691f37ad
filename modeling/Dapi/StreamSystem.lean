/-
# The streams of one server

All calls of the stream handler that a server runs, with what they share: the
bloom filter emitter collection (`src/lib/bloomFilter/emitter/`
`BloomFilterEmitterCollection.js`) and the notifications that Core sends over ZMQ
(`src/lib/transactionsFilter/testRawTransactionAgainstFilterCollectionFactory.js`,
`emitBlockEventToFilterCollectionFactory.js`,
`emitInstantLockToFilterCollectionFactory.js`).

JavaScript runs one piece of code at a time, from one `await` to the next.  An
action of the system is such a piece: a call is accepted, the handler of a call
is resumed, a notification arrives, the timer of a sending loop fires, or a call
is cancelled.  A run is any list of them.

* `exec` says what the operations of a handler do, `step` what an action does.
* `history` is the list of what happened to the subscription of a call, for stating
  theorems; the code never reads it.  The subscription is the run of its history
  (`HandlerStages.lean`), so what is proved about every run of a subscription holds here.
* `Follows.step` is the rule for one call among the others: a relation between the
  handler's protocol and the state of its call is kept by every action of the system
  if it is kept by the handler's own operations, by notifications and by the cancellation.
-/
import Dapi.StreamHandler

namespace Dapi

open Async Program

/-! ## One call -/

/-- What a call of the handler has built so far.  `isCancelListened` says whether the listener for
`cancelled` is attached. -/
structure Call (F : Type) where
  request : Option StreamRequest
  filter : Option F
  subscription : Option (Subscription F)
  isCancelListened : Bool
  isEnded : Bool
  history : List Subscription.Action

namespace Call

variable {F : Type}

/-- A call that has not been accepted. -/
def idle : Call F := ⟨none, none, none, false, false, []⟩

/-- A call that has just been accepted. -/
def accepted (request : StreamRequest) : Call F := { idle with request := some request }

/-- Whether `bloomFilterEmitterCollection` holds the emitter of the call. -/
def isRegistered (call : Call F) : Bool := call.subscription.any Subscription.isRegistered

/-- The filter object, which the handler shares with the subscription. -/
def currentFilter (call : Call F) : Option F :=
  (call.subscription.map Subscription.filter).or call.filter

variable (env : Environment F)

/-- An event for the subscription of the call; nobody listens when there is none. -/
def act (a : Subscription.Action) (call : Call F) : Except ScriptError Unit × Call F :=
  match call.subscription with
  | none => (.ok (), call)
  | some s =>
    ((s.handle env a).1,
      { call with subscription := some (s.handle env a).2, history := call.history ++ [a] })

/-- The call of `subscribeToNewTransactions`. -/
def subscribe (call : Call F) : Call F :=
  { call with subscription := call.filter.map Subscription.start }

/-- The listener for `cancelled`. -/
def cancel (call : Call F) : Call F := ({ call with isEnded := true }.act env .clientDisconnected).2

variable [BloomFilter F] (lib : DashcoreLib F)

/-- What an operation does to the call whose handler performs it. -/
def exec : (op : HandlerOp) → Call F → Except Failure op.Answer × Call F
  | .newBloomFilter bloomFilter, call =>
    match lib.newBloomFilter bloomFilter with
    | .ok filter => (.ok (), { call with filter := some filter })
    | .error message => (.error (.library message), call)
  | .subscribeToNewTransactions, call => (.ok (), call.subscribe)
  | .filterToBuffer, call => (.ok ((call.currentFilter.map BloomFilter.toBuffer).getD []), call)
  | .yield _, call => (.ok (), call)
  | .write response, call => (.ok (), (call.act env (.sendHistorical response)).2)
  | .emitHistoricalBlockSent blockHash, call =>
    (.ok (), (call.act env (.historicalBlockSent blockHash)).2)
  | .emitHistoricalDataSent, call => (.ok (), (call.act env .historicalDataSent).2)
  | .emitMemPoolDataSent, call => (.ok (), (call.act env .memPoolDataSent).2)
  -- goes to all calls, see `StreamSystem.exec`
  | .testCollection _, call => (.ok (), call)
  | .endCall, call => (.ok (), { call with isEnded := true })
  | .onCancelled, call => (.ok (), { call with isCancelListened := true })

end Call

/-! ## The system -/

/-- The calls of a server, in the order in which they were accepted, and what is left of each
handler. -/
structure StreamSystem (F : Type) where
  accepted : List ℕ
  calls : ℕ → Call F
  handlers : ℕ → HandlerProgram Unit

namespace StreamSystem

variable {F : Type}

/-- A server without calls. -/
def initial : StreamSystem F := ⟨[], fun _ => .idle, fun _ => .done ()⟩

/-- The call number `i` is replaced. -/
def setCall (sys : StreamSystem F) (i : ℕ) (call : Call F) : StreamSystem F :=
  { sys with calls := Function.update sys.calls i call }

/-- `bloomFilterEmitterCollection`.  A handler adds its emitter before its first `await`, so the
emitters stand in the order in which the calls were accepted. -/
def bloomFilterEmitterCollection (sys : StreamSystem F) : List ℕ :=
  sys.accepted.filter (fun i => (sys.calls i).isRegistered)

/-- The log of the subscription of a call. -/
def trace (sys : StreamSystem F) (i : ℕ) : List TraceEvent :=
  ((sys.calls i).subscription.map Subscription.trace).getD []

variable (env : Environment F)

/-- One round of `filters.forEach(filter => ...)`. -/
def actOn (a : Subscription.Action) (i : ℕ) (sys : StreamSystem F) :
    Except ScriptError Unit × StreamSystem F :=
  (((sys.calls i).act env a).1, sys.setCall i ((sys.calls i).act env a).2)

/-- `bloomFilterEmitterCollection.test` and `bloomFilterEmitterCollection.emit` -/
def forEachEmitter (a : Subscription.Action) (sys : StreamSystem F) :
    Except ScriptError Unit × StreamSystem F :=
  forEach (actOn env a) sys.bloomFilterEmitterCollection sys

variable [BloomFilter F] (lib : DashcoreLib F)

/-- What an operation of the handler of call `i` does. -/
def exec (i : ℕ) : (op : HandlerOp) → StreamSystem F → Except Failure op.Answer × StreamSystem F
  | .testCollection tx, sys =>
    match sys.forEachEmitter env (.test tx) with
    | (.ok (), sys) => (.ok (), sys)
    | (.error e, sys) => (.error (.script e), sys)
  | op, sys =>
    (((sys.calls i).exec env lib op).1, sys.setCall i ((sys.calls i).exec env lib op).2)

/-- Run the handler of call `i` to its next `await`. -/
def runHandler (i : ℕ) (handler : HandlerProgram Unit) (sys : StreamSystem F) : StreamSystem F :=
  let (handler, sys) := handler.advance (exec env lib i) sys
  { sys with handlers := Function.update sys.handlers i handler }

/-- What can happen to the system. -/
inductive Action
  | call (i : ℕ) (request : StreamRequest)
  | answer (i : ℕ) (answer : (r : CoreRequest) → Except Failure r.Answer)
  | rawTransaction (transaction : Transaction)
  | block (block : Block)
  | instantLock (transaction : Transaction) (instantLock : InstantLock)
  | wakeUp (i : ℕ)
  | cancelled (i : ℕ)

/-- The state after an action. -/
def step (sys : StreamSystem F) : Action → StreamSystem F
  | .call i request =>
    if (sys.calls i).request = none then
      runHandler env lib i (subscribeToTransactionsWithProofsHandler lib request)
        { sys.setCall i (.accepted request) with accepted := sys.accepted ++ [i] }
    else sys
  | .answer i answer => sys.runHandler env lib i ((sys.handlers i).resume answer)
  -- an exception of these three reaches the ZMQ client
  | .rawTransaction tx => (sys.forEachEmitter env (.test tx)).2
  | .block block => (sys.forEachEmitter env (.block block)).2
  | .instantLock tx instantLock => (sys.forEachEmitter env (.instantLock tx instantLock)).2
  | .wakeUp i => (sys.actOn env .wakeUp i).2
  | .cancelled i =>
    if (sys.calls i).isCancelListened then sys.setCall i ((sys.calls i).cancel env) else sys

/-- A run of the system. -/
abbrev run : StreamSystem F → List Action → StreamSystem F := Machine.run (step env lib)

end StreamSystem

/-! ## What an action does to a call -/

/-- The actions on a subscription that do not come from the handler. -/
def Subscription.Action.IsNotification : Subscription.Action → Prop
  | .test _ | .block _ | .instantLock _ _ | .wakeUp => True
  | _ => False

namespace Call

variable {F : Type} {env : Environment F} {call : Call F}

/-- Nothing happens to a call without a subscription. -/
theorem act_of_none (h : call.subscription = none) (a : Subscription.Action) :
    call.act env a = (.ok (), call) := by
  rw [act, h]

/-- A call with a subscription passes the step on to it, and remembers it. -/
theorem act_of_some {s : Subscription F} (h : call.subscription = some s)
    (a : Subscription.Action) :
    call.act env a =
      ((s.handle env a).1,
        { call with subscription := some (s.step env a), history := call.history ++ [a] }) := by
  rw [act, h]
  rfl

/-- A step of the subscription leaves the request. -/
@[simp] theorem act_request (a : Subscription.Action) :
    (call.act env a).2.request = call.request := by
  rw [act]
  cases call.subscription <;> rfl

@[simp] theorem act_isCancelListened (a : Subscription.Action) :
    (call.act env a).2.isCancelListened = call.isCancelListened := by
  rw [act]
  cases call.subscription <;> rfl

/-- A cancelled call keeps its request. -/
@[simp] theorem cancel_request : (call.cancel env).request = call.request :=
  act_request _

/-- An operation leaves the request. -/
theorem exec_request [BloomFilter F] {lib : DashcoreLib F} (op : HandlerOp) :
    (call.exec env lib op).2.request = call.request := by
  cases op with
  | newBloomFilter bloomFilter =>
      rw [exec]
      cases lib.newBloomFilter bloomFilter <;> rfl
  | write response => exact act_request _
  | emitHistoricalBlockSent blockHash => exact act_request _
  | emitHistoricalDataSent => exact act_request _
  | emitMemPoolDataSent => exact act_request _
  | _ => rfl

end Call

namespace StreamSystem

variable {F : Type} {env : Environment F} {sys : StreamSystem F} {i j : ℕ}

@[simp] theorem setCall_self (call : Call F) : (sys.setCall i call).calls i = call := by
  show Function.update sys.calls i call i = call
  rw [Function.update_self]

theorem setCall_of_ne (h : j ≠ i) (call : Call F) :
    (sys.setCall i call).calls j = sys.calls j := by
  show Function.update sys.calls i call j = sys.calls j
  rw [Function.update_of_ne h]

/-- A round changes one call, and only by the action. -/
theorem actOn_invariant {I : Call F → Prop} {a : Subscription.Action}
    (hI : ∀ call, I call → I (call.act env a).2) (i : ℕ) (h : I (sys.calls j)) :
    I ((sys.actOn env a i).2.calls j) := by
  show I ((sys.setCall i _).calls j)
  by_cases hij : j = i
  · subst hij
    rw [setCall_self]
    exact hI _ h
  · rw [setCall_of_ne hij]
    exact h

/-- A notification changes a call only by the action on it. -/
theorem forEachEmitter_invariant {I : Call F → Prop} {a : Subscription.Action}
    (hI : ∀ call, I call → I (call.act env a).2) (h : I (sys.calls j)) :
    I ((sys.forEachEmitter env a).2.calls j) :=
  forEach_invariant (I := fun sys : StreamSystem F => I (sys.calls j))
    (fun i _ _ h => actOn_invariant hI i h) h

/-- The collection touches no handler. -/
@[simp] theorem forEachEmitter_handlers (a : Subscription.Action) :
    (sys.forEachEmitter env a).2.handlers = sys.handlers :=
  forEach_invariant (I := fun sys' : StreamSystem F => sys'.handlers = sys.handlers)
    (fun _ _ _ h => h) rfl

@[simp] theorem forEachEmitter_accepted (a : Subscription.Action) :
    (sys.forEachEmitter env a).2.accepted = sys.accepted :=
  forEach_invariant (I := fun sys' : StreamSystem F => sys'.accepted = sys.accepted)
    (fun _ _ _ h => h) rfl

variable [BloomFilter F] {lib : DashcoreLib F}

/-- The test of a mempool transaction is the one of the collection. -/
theorem exec_testCollection_snd (tx : Transaction) :
    (sys.exec env lib i (.testCollection tx)).2 = (sys.forEachEmitter env (.test tx)).2 := by
  rw [exec]
  rcases sys.forEachEmitter env (.test tx) with ⟨_ | _, sys'⟩ <;> rfl

/-- Every other operation is about the call of the handler. -/
theorem exec_of_ne {op : HandlerOp} (hop : ∀ tx, op ≠ .testCollection tx) :
    sys.exec env lib i op =
      (((sys.calls i).exec env lib op).1,
        sys.setCall i ((sys.calls i).exec env lib op).2) := by
  cases op with
  | testCollection tx => exact absurd rfl (hop tx)
  | _ => rfl

/-- The handler of another call reaches a call only by the tests of the collection. -/
theorem exec_invariant {I : Call F → Prop}
    (hI : ∀ tx call, I call → I (call.act env (.test tx)).2) (hij : j ≠ i) (op : HandlerOp)
    (h : I (sys.calls j)) : I ((sys.exec env lib i op).2.calls j) := by
  by_cases hop : ∀ tx, op ≠ .testCollection tx
  · rw [exec_of_ne hop]
    show I ((sys.setCall i _).calls j)
    rw [setCall_of_ne hij]
    exact h
  · push Not at hop
    obtain ⟨tx, rfl⟩ := hop
    rw [exec_testCollection_snd]
    exact forEachEmitter_invariant (hI tx) h

/-- An operation touches no handler. -/
theorem exec_handlers (op : HandlerOp) :
    (sys.exec env lib i op).2.handlers = sys.handlers := by
  by_cases hop : ∀ tx, op ≠ .testCollection tx
  · rw [exec_of_ne hop]
    rfl
  · push Not at hop
    obtain ⟨tx, rfl⟩ := hop
    rw [exec_testCollection_snd, forEachEmitter_handlers]

/-- An operation accepts no call. -/
theorem exec_accepted (op : HandlerOp) :
    (sys.exec env lib i op).2.accepted = sys.accepted := by
  by_cases hop : ∀ tx, op ≠ .testCollection tx
  · rw [exec_of_ne hop]
    rfl
  · push Not at hop
    obtain ⟨tx, rfl⟩ := hop
    rw [exec_testCollection_snd, forEachEmitter_accepted]

/-- What the tests of the collection keep of another call is kept while a handler runs. -/
theorem runHandler_invariant {I : Call F → Prop}
    (hI : ∀ tx call, I call → I (call.act env (.test tx)).2) (hij : j ≠ i)
    (handler : HandlerProgram Unit) (h : I (sys.calls j)) :
    I ((sys.runHandler env lib i handler).calls j) :=
  advance_invariant (I := fun sys : StreamSystem F => I (sys.calls j))
    (fun op _ h => exec_invariant hI hij op h) handler h

/-- The handlers of other calls stay as they are. -/
theorem runHandler_handlers_of_ne (hij : j ≠ i) (handler : HandlerProgram Unit) :
    (sys.runHandler env lib i handler).handlers j = sys.handlers j := by
  have hkept : (handler.advance (exec env lib i) sys).2.handlers = sys.handlers :=
    advance_invariant (I := fun sys' : StreamSystem F => sys'.handlers = sys.handlers)
      (fun op _ h => (exec_handlers op).trans h) handler rfl
  show Function.update (handler.advance (exec env lib i) sys).2.handlers i _ j = _
  rw [Function.update_of_ne hij, hkept]

/-- The handler is then where it waits, or where it has ended. -/
theorem runHandler_handlers_self (handler : HandlerProgram Unit) :
    (sys.runHandler env lib i handler).handlers i =
      (handler.advance (exec env lib i) sys).1 :=
  Function.update_self i _ _

theorem runHandler_accepted (handler : HandlerProgram Unit) :
    (sys.runHandler env lib i handler).accepted = sys.accepted :=
  advance_invariant (I := fun sys' : StreamSystem F => sys'.accepted = sys.accepted)
    (fun op _ h => (exec_accepted op).trans h) handler rfl

/-- What the operations of a handler and the notifications keep, a handler keeps. -/
theorem runHandler_keeps {I : Call F → Prop}
    (hact : ∀ a call, a.IsNotification → I call → I (call.act env a).2)
    (hexec : ∀ op call, I call → I (call.exec env lib op).2) (handler : HandlerProgram Unit)
    (h : I (sys.calls j)) : I ((sys.runHandler env lib i handler).calls j) := by
  refine advance_invariant (I := fun sys : StreamSystem F => I (sys.calls j)) ?_ handler h
  intro op sys h
  by_cases hij : j = i
  · subst hij
    by_cases hop : ∀ tx, op ≠ .testCollection tx
    · rw [exec_of_ne hop]
      show I ((sys.setCall j _).calls j)
      rw [setCall_self]
      exact hexec op _ h
    · push Not at hop
      obtain ⟨tx, rfl⟩ := hop
      rw [exec_testCollection_snd]
      exact forEachEmitter_invariant (hact (.test tx) · trivial) h
  · exact exec_invariant (fun tx call => hact (.test tx) call trivial) hij op h

/-- A property that the operations of a handler, the notifications and the cancellation keep, every
action of the system keeps, the acceptance of the call apart. -/
theorem step_invariant {I : Call F → Prop} {a : Action}
    (hact : ∀ a call, a.IsNotification → I call → I (call.act env a).2)
    (hexec : ∀ op call, I call → I (call.exec env lib op).2)
    (hcancel : a = .cancelled j → ∀ call, I call → I (call.cancel env))
    (ha : ∀ request, a ≠ .call j request) (h : I (sys.calls j)) :
    I ((sys.step env lib a).calls j) := by
  cases a with
  | call i request =>
      have hij : j ≠ i := by
        rintro rfl
        exact ha request rfl
      rw [step]
      split_ifs
      · refine runHandler_keeps hact hexec _ ?_
        show I ((sys.setCall i _).calls j)
        rw [setCall_of_ne hij]
        exact h
      · exact h
  | answer i answer => exact runHandler_keeps hact hexec _ h
  | rawTransaction tx => exact forEachEmitter_invariant (hact (.test tx) · trivial) h
  | block block => exact forEachEmitter_invariant (hact (.block block) · trivial) h
  | instantLock tx lock =>
      exact forEachEmitter_invariant (hact (.instantLock tx lock) · trivial) h
  | wakeUp i => exact actOn_invariant (hact .wakeUp · trivial) i h
  | cancelled i =>
      rw [step]
      split_ifs
      · by_cases hij : j = i
        · subst hij
          rw [setCall_self]
          exact hcancel rfl _ h
        · rw [setCall_of_ne hij]
          exact h
      · exact h

/-- The request of a call is set when the call is accepted ... -/
theorem step_call_request {request : StreamRequest} (hi : (sys.calls i).request = none) :
    ((sys.step env lib (.call i request)).calls i).request = some request := by
  rw [step, if_pos hi]
  refine runHandler_keeps (I := fun call => call.request = some request)
    (fun _ _ _ h => (Call.act_request _).trans h) (fun op _ h => (Call.exec_request op).trans h)
    _ ?_
  show ((sys.setCall i _).calls i).request = some request
  rw [setCall_self]
  rfl

/-- ... and never changed. -/
theorem step_request {a : Action} (ha : ∀ request, a ≠ .call j request) :
    ((sys.step env lib a).calls j).request = (sys.calls j).request :=
  step_invariant (I := fun call => call.request = (sys.calls j).request)
    (fun _ _ _ h => (Call.act_request _).trans h) (fun op _ h => (Call.exec_request op).trans h)
    (fun _ _ h => Call.cancel_request.trans h) ha rfl

/-- A call is accepted once. -/
theorem step_call_of_accepted {request : StreamRequest} (hi : (sys.calls i).request ≠ none) :
    sys.step env lib (.call i request) = sys := by
  rw [step, if_neg hi]

/-- A call is put into the list when it is accepted ... -/
theorem step_call_accepted {request : StreamRequest} (hi : (sys.calls i).request = none) :
    (sys.step env lib (.call i request)).accepted = sys.accepted ++ [i] := by
  rw [step, if_pos hi]
  exact runHandler_accepted _

/-- ... and by no other action. -/
theorem step_accepted {a : Action}
    (ha : ∀ i request, a = .call i request → (sys.calls i).request ≠ none) :
    (sys.step env lib a).accepted = sys.accepted := by
  cases a with
  | call i request => rw [step_call_of_accepted (ha i request rfl)]
  | answer i answer => exact runHandler_accepted _
  | rawTransaction tx => exact forEachEmitter_accepted _
  | block block => exact forEachEmitter_accepted _
  | instantLock tx lock => exact forEachEmitter_accepted _
  | wakeUp i => rfl
  | cancelled i =>
      rw [step]
      split_ifs <;> rfl

/-- The calls with a request are those that were accepted. -/
theorem run_accepted (as : List Action) (i : ℕ) :
    i ∈ (run env lib initial as).accepted ↔ ((run env lib initial as).calls i).request ≠ none := by
  refine Machine.run_induction (s := (initial : StreamSystem F))
    (P := fun _ sys => i ∈ sys.accepted ↔ (sys.calls i).request ≠ none) ?_ ?_ as
  · exact iff_of_false List.not_mem_nil (fun h => h rfl)
  · intro as a ih
    generalize Machine.run (step env lib) initial as = sys at ih ⊢
    by_cases hnew : ∃ j request, a = .call j request ∧ (sys.calls j).request = none
    · obtain ⟨j, request, rfl, hj⟩ := hnew
      rw [step_call_accepted hj, List.mem_append, List.mem_singleton]
      by_cases hij : i = j
      · subst hij
        rw [step_call_request hj]
        simp
      · rw [step_request fun _ heq => hij (Action.call.inj heq).1.symm, ih, or_iff_left hij]
    · push Not at hnew
      rw [step_accepted hnew]
      by_cases hcall : ∃ request, a = .call i request
      · obtain ⟨request, rfl⟩ := hcall
        rw [step_call_of_accepted (hnew i request rfl)]
        exact ih
      · rw [step_request fun request heq => hcall ⟨request, heq⟩]
        exact ih

/-- A call is accepted once. -/
theorem run_accepted_nodup (as : List Action) : (run env lib initial as).accepted.Nodup := by
  induction as using List.reverseRecOn with
  | nil => exact List.nodup_nil
  | append_singleton as a ih =>
      have hrun : run env lib initial (as ++ [a]) = (run env lib initial as).step env lib a :=
        Machine.run_append _ _ as [a]
      rw [hrun]
      by_cases hnew : ∃ i request, a = .call i request ∧
          ((run env lib initial as).calls i).request = none
      · obtain ⟨i, request, rfl, hi⟩ := hnew
        rw [step_call_accepted hi]
        refine ih.append (List.nodup_singleton i) ?_
        rw [List.disjoint_singleton, run_accepted]
        exact fun hne => hne hi
      · push Not at hnew
        rwa [step_accepted hnew]

/-! ## One call among the others -/

section Follows

variable {P : Type} (env lib)

/-- The relation `R` between the protocol `T` of a handler and the state of its call is kept by
the operations of the handler, by notifications and by the cancellation. -/
structure Tracks (T : Protocol handlerSignature P) (R : P → Call F → Prop) : Prop where
  exec : ∀ {p op call}, (∀ tx, op ≠ .testCollection tx) → T.syncOk p op → R p call →
    R (T.syncNext p op (Call.exec env lib op call).1) (Call.exec env lib op call).2
  test : ∀ {p tx answer call}, T.syncOk p (.testCollection tx) → R p call →
    R (T.syncNext p (.testCollection tx) answer) call
  request : ∀ {p r answer call}, T.requestOk p r → R p call → R (T.requestNext p r answer) call
  notified : ∀ {p a call}, a.IsNotification → R p call → R p (Call.act env a call).2
  cancelled : ∀ {p call}, call.isCancelListened = true → R p call → R p (Call.cancel env call)

variable {env lib} (T : Protocol handlerSignature P) (post : Unit → P → Prop)
  (exc : Failure → P → Prop) (R : P → Call F → Prop) (request : StreamRequest)

/-- Call `i` serves `request`, and its handler and its state are where the protocol is. -/
structure Follows (sys : StreamSystem F) (i : ℕ) : Prop where
  request : (sys.calls i).request = some request
  handler : ∃ p, (sys.handlers i).Obeys T post exc p ∧ R p (sys.calls i)

variable {T post exc R request}

/-- The handler of the call itself runs. -/
theorem Tracks.runHandler (hR : Tracks env lib T R) {handler : HandlerProgram Unit} {p : P}
    (hrequest : (sys.calls i).request = some request) (hhandler : handler.Obeys T post exc p)
    (hcall : R p (sys.calls i)) :
    Follows T post exc R request (sys.runHandler env lib i handler) i := by
  have hexec : ∀ p op (sys : StreamSystem F), T.syncOk p op →
      ((sys.calls i).request = some request ∧ R p (sys.calls i)) →
      (((sys.exec env lib i op).2.calls i).request = some request ∧
        R (T.syncNext p op (sys.exec env lib i op).1) ((sys.exec env lib i op).2.calls i)) := by
    rintro p op sys hop ⟨hreq, hcall⟩
    by_cases hne : ∀ tx, op ≠ .testCollection tx
    · rw [exec_of_ne hne]
      show ((sys.setCall i _).calls i).request = _ ∧ R _ ((sys.setCall i _).calls i)
      rw [setCall_self, Call.exec_request]
      exact ⟨hreq, hR.exec hne hop hcall⟩
    · push Not at hne
      obtain ⟨tx, rfl⟩ := hne
      rw [exec_testCollection_snd]
      refine ⟨?_, hR.test hop ?_⟩
      · exact forEachEmitter_invariant (I := fun call => call.request = some request)
          (fun call h => (Call.act_request _).trans h) hreq
      · exact forEachEmitter_invariant (fun _ h => hR.notified trivial h) hcall
  obtain ⟨p', hhandler', hreq', hcall'⟩ := advance_obeys
    (R := fun p (sys : StreamSystem F) => (sys.calls i).request = some request ∧
      R p (sys.calls i)) hexec hhandler ⟨hrequest, hcall⟩
  refine ⟨hreq', p', ?_, hcall'⟩
  rw [runHandler_handlers_self]
  exact hhandler'

/-- The protocol of a call does not notice what only changes the call by notifications. -/
theorem Follows.congr {sys' : StreamSystem F} (h : Follows T post exc R request sys j)
    (hhandlers : sys'.handlers j = sys.handlers j)
    (hcalls : ∀ I : Call F → Prop, (∀ a call, a.IsNotification → I call → I (call.act env a).2) →
      I (sys.calls j) → I (sys'.calls j)) (hR : Tracks env lib T R) :
    Follows T post exc R request sys' j := by
  obtain ⟨p, hhandler, hcall⟩ := h.handler
  refine ⟨?_, p, ?_, ?_⟩
  · exact hcalls (fun call => call.request = some request)
      (fun _ _ _ h => (Call.act_request _).trans h) h.request
  · rw [hhandlers]
    exact hhandler
  · exact hcalls (R p) (fun _ _ ha h => hR.notified ha h) hcall

/-- **Step rule for one call.** -/
theorem Follows.step (hR : Tracks env lib T R) (h : Follows T post exc R request sys j)
    (a : Action) : Follows T post exc R request (sys.step env lib a) j := by
  obtain ⟨p, hhandler, hcall⟩ := h.handler
  cases a with
  | call i request' =>
      rw [StreamSystem.step]
      split_ifs with hi
      · -- the accepted call is another one
        have hij : j ≠ i := by
          rintro rfl
          rw [h.request] at hi
          cases hi
        let sys₁ : StreamSystem F :=
          { sys.setCall i (.accepted request') with accepted := sys.accepted ++ [i] }
        have hsame : sys₁.calls j = sys.calls j := setCall_of_ne hij _
        refine h.congr (runHandler_handlers_of_ne hij _) ?_ hR
        intro I hI hcall
        have hcall₁ : I (sys₁.calls j) := by rwa [hsame]
        exact runHandler_invariant (fun tx call => hI (.test tx) call trivial) hij _ hcall₁
      · exact h
  | answer i answer =>
      by_cases hij : j = i
      · -- the handler of the call itself is resumed
        subst hij
        obtain ⟨p', hhandler', hcall'⟩ :
            ∃ p', ((sys.handlers j).resume answer).Obeys T post exc p' ∧ R p' (sys.calls j) :=
          resume_obeys (R := fun p (sys : StreamSystem F) => R p (sys.calls j))
            (fun p r answer sys hr hcall => hR.request hr hcall) hhandler hcall
        exact hR.runHandler h.request hhandler' hcall'
      · refine h.congr (runHandler_handlers_of_ne hij _) ?_ hR
        intro I hI hcall
        exact runHandler_invariant (fun tx call => hI (.test tx) call trivial) hij _ hcall
  | rawTransaction tx =>
      refine h.congr (by rw [StreamSystem.step, forEachEmitter_handlers]) ?_ hR
      exact fun I hI hcall => forEachEmitter_invariant (hI (.test tx) · trivial) hcall
  | block block =>
      refine h.congr (by rw [StreamSystem.step, forEachEmitter_handlers]) ?_ hR
      exact fun I hI hcall => forEachEmitter_invariant (hI (.block block) · trivial) hcall
  | instantLock tx lock =>
      refine h.congr (by rw [StreamSystem.step, forEachEmitter_handlers]) ?_ hR
      exact fun I hI hcall => forEachEmitter_invariant (hI (.instantLock tx lock) · trivial) hcall
  | wakeUp i =>
      refine h.congr rfl ?_ hR
      exact fun I hI hcall => actOn_invariant (hI .wakeUp · trivial) i hcall
  | cancelled i =>
      rw [StreamSystem.step]
      split_ifs with hi
      · by_cases hij : j = i
        · -- its listener for `cancelled` runs
          subst hij
          refine ⟨?_, p, hhandler, ?_⟩
          · rw [setCall_self, Call.cancel_request]
            exact h.request
          · rw [setCall_self]
            exact hR.cancelled hi hcall
        · refine h.congr rfl ?_ hR
          intro I _ hcall
          rw [setCall_of_ne hij]
          exact hcall
      · exact h

end Follows

end StreamSystem

/-! ## A small server -/

/-- The collaborators of the service: the test of BIP37 and `MerkleBlock.build`. -/
def standardEnvironment {F : Type} [BloomFilter F] (build : MerkleBlockBuild) : Environment F where
  testFunction := testTransactionAgainstFilter
  build := build

/-- Filters are exact, every merkle block has the transaction `[9]` and every transaction pays to
`[1]`. -/
def paymentLib : DashcoreLib ExactFilter where
  newBloomFilter message := .ok ⟨[message.vData], message.nFlags⟩
  newMerkleBlock raw := .ok ⟨⟨raw⟩, some [[9]]⟩
  getMatchedTransactionHashes merkleBlock := merkleBlock.hashes.getD []
  newTransaction raw := .ok (payment raw [[1]])

/-- Core with the one block `[5]`, which matches, and an empty mempool. -/
def paymentAnswer : (r : CoreRequest) → Except Failure r.Answer
  | .getBlockHash _ => .ok ([5] : Hash)
  | .getBlock _ => .ok (⟨1, 1⟩ : BlockInfo)
  | .getBestBlockHeight => .ok (1 : ℕ)
  | .getMerkleBlocks _ _ _ => .ok ([[5]] : List Buffer)
  | .getRawTransactions transactionHashes => .ok transactionHashes
  | .getRawMemPool => .ok ([] : List Hash)
  | .getRawTransaction txId => .ok txId
  | .acknowledgement => .ok ()
  | .wait _ => .ok ()

/-- A request for the payments to `[1]` from block `[5]` on. -/
def paymentRequest : StreamRequest := ⟨⟨[1], 1, 0, BloomFilter.BLOOM_UPDATE_ALL⟩, [5], 0, 0⟩

/-- Its merkle blocks list all hashes. -/
abbrev paymentEnvironment : Environment ExactFilter :=
  standardEnvironment fun header hashes _ => ⟨header, some hashes⟩

/-- A run of the server. -/
abbrev paymentRun : List StreamSystem.Action → StreamSystem ExactFilter :=
  StreamSystem.run paymentEnvironment paymentLib .initial

/-- All answers of Core to the call for the payments, up to the return of the handler. -/
def paymentAnswers : List StreamSystem.Action := List.replicate 9 (.answer 0 paymentAnswer)

end Dapi
