/-
# The service for results of state transitions

All calls of `waitForStateTransitionResultHandler`
(`src/lib/grpcServer/handlers/platform/waitForStateTransitionResultHandlerFactory.js`), with
the service of `WaitForTransaction` that they wait on and the node of
`CommittedTransactions`.

* `ResultService` is the node, the service and the handlers.  What is outside, Drive and the
  Dash Platform Protocol, answers a handler when and as it likes.
* `Grounded`: what a handler was answered to its wait is what the service has settled.
* `result_of_committed`, `proof_of_committed`, `proof_asked_when_provable`,
  `deadline_of_timer`: what a handler asks for and answers, in every run.
-/
import Dapi.StateTransitionResult

namespace Dapi

open Async Program

/-- A call of the handler, with the conversation that it has had. -/
structure ResultHandler where
  request : ResultRequest
  program : PlatformProgram WaitForStateTransitionResultResponse
  conversation : PlatformConversation

/-- The node with the service that waits, and the handlers. -/
structure ResultService where
  node : NodeState
  handlers : ℕ → Option ResultHandler

/-- What is outside answers. -/
abbrev ExternalAnswer := (r : PlatformRequest) → Except RequestFailure r.Answer

/-- The handler goes on when there is an answer to what it awaits. -/
def ResultHandler.resume
    (answerTo : (r : PlatformRequest) → Option (Except PlatformFailure r.Answer))
    (handler : ResultHandler) : ResultHandler :=
  match handler.program with
  | .await r k =>
    match answerTo r with
    | some answer =>
      { handler with
        program := k answer
        conversation := handler.conversation ++ [⟨r, answer⟩] }
    | none => handler
  | _ => handler

namespace ResultService

variable {D V R C : Type} (lib : PlatformLib D V R C)

/-- No handler runs, and the node has committed nothing. -/
def initial : ResultService := ⟨.initial, fun _ => none⟩

/-- A handler that starts with a wait makes its call. -/
def startWait (i : ℕ) (program : PlatformProgram WaitForStateTransitionResultResponse) :
    List NodeState.Action :=
  match program with
  | .await (.waitForTransactionToBeProvable hashString _) _ => [.call i hashString]
  | _ => []

/-- The answer to what the handler `i` awaits: the settled promise of its call, or one from
outside. -/
def answerTo (s : ResultService) (i : ℕ) (external : ExternalAnswer) :
    (r : PlatformRequest) → Option (Except PlatformFailure r.Answer)
  | .waitForTransactionToBeProvable _ _ =>
    match (s.node.service.calls i).map ProvableCall.result with
    | some (.fulfilled result) => some (.ok result)
    | some (.rejected failure) => some (.error failure.toPlatformFailure)
    | _ => none
  | r => some ((external r).mapError .request)

/-- What can happen: a call comes in, something happens to the node and the service, or there is
an answer for a handler.  The calls of the service are made by the handlers. -/
inductive Action
  | request (i : ℕ) (request : ResultRequest)
  | node (a : NodeState.Action)
  | answer (i : ℕ) (external : ExternalAnswer)

/-- What an action means to the node and the service. -/
def nodeActions (s : ResultService) : Action → List NodeState.Action
  | .request i request =>
    if (s.handlers i).isNone then startWait i (waitForStateTransitionResultHandler lib request)
    else []
  | .node (.call _ _) => []
  | .node a => [a]
  | .answer _ _ => []

/-- The state after an action. -/
def step (s : ResultService) (a : Action) : ResultService where
  node := NodeState.run s.node (s.nodeActions lib a)
  handlers :=
    match a with
    | .request i request =>
      if (s.handlers i).isNone then
        Function.update s.handlers i
          (some ⟨request, waitForStateTransitionResultHandler lib request, []⟩)
      else s.handlers
    | .node _ => s.handlers
    | .answer i external =>
      Function.update s.handlers i
        ((s.handlers i).map (ResultHandler.resume (s.answerTo i external)))

/-- A run of the service. -/
abbrev run : ResultService → List Action → ResultService := Machine.run (step lib)

end ResultService

/-! ## The calls of the service, once more -/

namespace WaitState

variable {s : WaitState} {call call' : ProvableCall} {i : ℕ}

/-- A call keeps its hash. -/
theorem CallChange.hashString_eq (h : CallChange call call') :
    call'.hashString = call.hashString := by
  cases h with
  | reacted isReached job => exact react_hashString isReached call job
  | _ => rfl

/-- A call keeps its hash, and what it is settled with. -/
theorem Changed.settled (h : Changed call i s) : ∃ call', s.calls i = some call' ∧
    call'.hashString = call.hashString ∧ (call.result ≠ .pending → call'.result = call.result) := by
  obtain ⟨call', hcall', hsteps⟩ := h
  have hhash : call'.hashString = call.hashString := by
    clear hcall'
    induction hsteps with
    | refl => rfl
    | tail _ hchange ih => exact hchange.hashString_eq.trans ih
  refine ⟨call', hcall', hhash, fun hne => ?_⟩
  obtain ⟨call'', hcall'', heq⟩ := Changed.result_eq ⟨call', hcall', hsteps⟩ hne
  rwa [Option.some.inj (hcall'.symm.trans hcall'')]

end WaitState

namespace NodeState

variable {s : NodeState} {call : ProvableCall} {i : ℕ}

/-- A call only changes as calls do. -/
theorem changed_run (h : s.service.calls i = some call) (as : List Action) :
    WaitState.Changed call i (run s as).service := by
  have hservice : (run s as).service = WaitState.run s.service _ :=
    Machine.run_refines service_step s as
  rw [hservice]
  exact (WaitState.changed_self h).run _

/-- Nothing but a call is a call. -/
theorem calls_step_of_none (h : s.service.calls i = none) {a : Action}
    (ha : ∀ hashString, a ≠ .call i hashString) : (s.step a).service.calls i = none := by
  have hactions : ∀ b ∈ s.serviceActions a, ∀ hashString, b ≠ .call i hashString := by
    intro b hb hashString
    cases a with
    | call j hashString' =>
        simp only [serviceActions] at hb
        split_ifs at hb
        · rw [List.mem_singleton.mp hb]
          rintro heq
          cases heq
          exact ha _ rfl
        · simp at hb
    | deliverAnswer j =>
        simp only [serviceActions] at hb
        split at hb
        · rw [List.mem_singleton.mp hb]
          simp
        · simp at hb
    | failAnswer j answer =>
        simp only [serviceActions] at hb
        split at hb
        · split_ifs at hb
          · rw [List.mem_singleton.mp hb]
            simp
          · simp at hb
        · simp at hb
    | deliverEvent message =>
        simp only [serviceActions] at hb
        split_ifs at hb
        · rw [List.mem_singleton.mp hb]
          simp
        · simp at hb
    | commit hashString' payload => simp [serviceActions] at hb
    | evaluate j message => simp [serviceActions] at hb
    | _ =>
        rw [List.mem_singleton.mp hb]
        simp
  rw [service_step]
  generalize hs : s.service = service at h ⊢
  generalize s.serviceActions a = bs at hactions
  clear hs
  induction bs generalizing service with
  | nil => exact h
  | cons b bs ih =>
      refine ih (service.step b) ?_ fun b' hb' => hactions b' (List.mem_cons_of_mem b hb')
      rcases WaitState.calls_step_of_none h b with hnone | ⟨hashString, heq, -⟩
      · exact hnone
      · exact absurd heq (hactions b List.mem_cons_self hashString)

end NodeState

/-! ## The invariant -/

/-- The call of the handler is there. -/
def CallOf (node : NodeState) (i : ℕ) (hashString : String) (call : ProvableCall) : Prop :=
  node.service.calls i = some call ∧ call.hashString = hashString

/-- **What a handler was answered is grounded**: a wait by the settled promise of its call, and
the rest from outside. -/
inductive Grounded (node : NodeState) (i : ℕ) : Exchange platformSignature → Prop
  | fulfilled {hashString : String} {timeout : ℕ} {call : ProvableCall}
    {result : TransactionResult} (hcall : CallOf node i hashString call)
    (hresult : call.result = .fulfilled result) :
    Grounded node i ⟨.waitForTransactionToBeProvable hashString timeout, .ok result⟩
  | rejected {hashString : String} {timeout : ℕ} {call : ProvableCall} {failure : WaitFailure}
    (hcall : CallOf node i hashString call) (hresult : call.result = .rejected failure) :
    Grounded node i
      ⟨.waitForTransactionToBeProvable hashString timeout, .error failure.toPlatformFailure⟩
  | external (r : PlatformRequest) (hr : ¬ r.IsWait) (answer : Except RequestFailure r.Answer) :
    Grounded node i ⟨r, answer.mapError .request⟩

/-- A call is there after further steps, and stays settled. -/
theorem CallOf.run {node : NodeState} {i : ℕ} {hashString : String} {call : ProvableCall}
    (h : CallOf node i hashString call) (as : List NodeState.Action) :
    ∃ call', CallOf (NodeState.run node as) i hashString call' ∧
      (call.result ≠ .pending → call'.result = call.result) := by
  obtain ⟨call', hcall', hhash, hresult⟩ := (NodeState.changed_run h.1 as).settled
  exact ⟨call', ⟨hcall', hhash.trans h.2⟩, hresult⟩

/-- What a handler was told stays true. -/
theorem Grounded.run {node : NodeState} {i : ℕ} {x : Exchange platformSignature}
    (h : Grounded node i x) (as : List NodeState.Action) :
    Grounded (NodeState.run node as) i x := by
  cases h with
  | fulfilled hcall hresult =>
      obtain ⟨call', hcall', hkeep⟩ := hcall.run as
      exact .fulfilled hcall' ((hkeep (by rw [hresult]; simp)).trans hresult)
  | rejected hcall hresult =>
      obtain ⟨call', hcall', hkeep⟩ := hcall.run as
      exact .rejected hcall' ((hkeep (by rw [hresult]; simp)).trans hresult)
  | external r hr answer => exact .external r hr answer

/-- **The invariant of a handler.**  It keeps to its rules, its conversation is grounded, and its
call is there while it waits. -/
structure ResultHandler.Sound {D V R C : Type} (lib : PlatformLib D V R C) (node : NodeState)
    (i : ℕ) (handler : ResultHandler) : Prop where
  obeys : handler.program.Obeys (resultProtocol lib handler.request)
    (RespondsToResult lib handler.request) (FailsToRespond handler.request) handler.conversation
  grounded : ∀ x ∈ handler.conversation, Grounded node i x
  waiting : ∀ hashString timeout k,
    handler.program = .await (.waitForTransactionToBeProvable hashString timeout) k →
      ∃ call, CallOf node i hashString call

/-- A failure from outside is one of a request. -/
theorem ResultHandler.Sound.external {D V R C : Type} {lib : PlatformLib D V R C}
    {node : NodeState} {i : ℕ} {handler : ResultHandler} (h : handler.Sound lib node i)
    {r : PlatformRequest} (hr : ¬ r.IsWait) {e : PlatformFailure}
    (hmem : (⟨r, .error e⟩ : Exchange platformSignature) ∈ handler.conversation) :
    ∃ failure, e = .request failure := by
  have hgrounded := h.grounded _ hmem
  generalize hx : (⟨r, .error e⟩ : Exchange platformSignature) = x at hgrounded
  cases hgrounded with
  | fulfilled _ _ =>
      injection hx with hr' _
      rw [hr'] at hr
      exact absurd trivial hr
  | rejected _ _ =>
      injection hx with hr' _
      rw [hr'] at hr
      exact absurd trivial hr
  | external r' _ answer =>
      injection hx with hr' hanswer
      subst hr'
      cases answer with
      | ok a => cases hanswer
      | error failure => exact ⟨failure, Except.error.inj (eq_of_heq hanswer)⟩

namespace ResultService

variable {D V R C : Type} {lib : PlatformLib D V R C} {s : ResultService} {i : ℕ}

/-- Every handler is sound, and the calls are those of the handlers. -/
structure Sound (lib : PlatformLib D V R C) (s : ResultService) : Prop where
  handlers : ∀ i handler, s.handlers i = some handler → handler.Sound lib s.node i
  calls : ∀ i, s.handlers i = none → s.node.service.calls i = none

/-- Steps of the node leave the handlers sound. -/
theorem Sound.run_node (h : Sound lib s) (as : List NodeState.Action) {handler : ResultHandler}
    (hi : s.handlers i = some handler) : handler.Sound lib (NodeState.run s.node as) i := by
  have hsound := h.handlers i handler hi
  refine ⟨hsound.obeys, fun x hx => (hsound.grounded x hx).run as,
    fun hashString timeout k hk => ?_⟩
  obtain ⟨call, hcall⟩ := hsound.waiting hashString timeout k hk
  obtain ⟨call', hcall', -⟩ := hcall.run as
  exact ⟨call', hcall'⟩

/-- **A call comes in**: its handler starts, and makes its call of the service. -/
theorem Sound.request (h : Sound lib s) (i : ℕ) (request : ResultRequest) :
    Sound lib (s.step lib (.request i request)) := by
  cases hi : s.handlers i with
  | some handler =>
      have hstep : s.step lib (.request i request) = s := by
        unfold step nodeActions
        simp [hi, NodeState.run]
      rw [hstep]
      exact h
  | none =>
      have hstep : s.step lib (.request i request) =
          ⟨NodeState.run s.node (startWait i (waitForStateTransitionResultHandler lib request)),
            Function.update s.handlers i
              (some ⟨request, waitForStateTransitionResultHandler lib request, []⟩)⟩ := by
        unfold step nodeActions
        simp [hi]
      rw [hstep]
      refine ⟨fun j handler hj => ?_, fun j hj => ?_⟩
      · by_cases hji : j = i
        · subst hji
          obtain rfl := Option.some.inj ((Function.update_self j _ s.handlers).symm.trans hj)
          refine ⟨resultHandler_obeys request, fun x hx => absurd hx List.not_mem_nil,
            fun hashString timeout k hk => ⟨.new hashString, ?_, rfl⟩⟩
          have hk' : waitForStateTransitionResultHandler lib request =
            .await (.waitForTransactionToBeProvable hashString timeout) k := hk
          have hnone := h.calls j hi
          show (NodeState.run s.node (startWait j _)).service.calls j = _
          rw [hk']
          show (s.node.step (.call j hashString)).service.calls j = _
          rw [NodeState.step, if_pos hnone]
          show (s.node.service.step (.call j hashString)).calls j = _
          rw [WaitState.step, if_pos hnone]
          exact WaitState.setCall_self
        · exact h.run_node _ ((Function.update_of_ne hji _ s.handlers).symm.trans hj)
      · have hji : j ≠ i := by
          rintro rfl
          cases (Function.update_self j _ s.handlers).symm.trans hj
        have hnone := h.calls j ((Function.update_of_ne hji _ s.handlers).symm.trans hj)
        unfold startWait
        split
        · rename_i hashString _ _ _
          show (s.node.step (.call i hashString)).service.calls j = none
          refine NodeState.calls_step_of_none hnone fun hashString' heq => hji ?_
          injection heq with heq
          exact heq.symm
        · exact hnone

/-- A step of the node leaves the handlers sound. -/
theorem Sound.node (h : Sound lib s) (a : NodeState.Action) :
    Sound lib (s.step lib (.node a)) := by
  refine ⟨fun i handler hi => h.run_node _ hi, fun i hi => ?_⟩
  have hnone := h.calls i hi
  by_cases hcall : ∃ j hashString, a = .call j hashString
  · obtain ⟨j, hashString, rfl⟩ := hcall
    exact hnone
  · have hactions : s.nodeActions lib (.node a) = [a] := by
      cases a with
      | call j hashString => exact absurd ⟨j, hashString, rfl⟩ hcall
      | _ => rfl
    show (NodeState.run s.node (s.nodeActions lib (.node a))).service.calls i = none
    rw [hactions]
    exact NodeState.calls_step_of_none hnone fun hashString heq => hcall ⟨i, hashString, heq⟩

/-- The answer is grounded. -/
theorem grounded_answerTo {handler : ResultHandler} (h : handler.Sound lib s.node i)
    {r : PlatformRequest} {k : Except PlatformFailure r.Answer → PlatformProgram
      WaitForStateTransitionResultResponse} (hawait : handler.program = .await r k)
    {external : ExternalAnswer} {answer : Except PlatformFailure r.Answer}
    (hanswer : s.answerTo i external r = some answer) : Grounded s.node i ⟨r, answer⟩ := by
  cases r with
  | waitForTransactionToBeProvable hashString timeout =>
      obtain ⟨call, hcall⟩ := h.waiting hashString timeout k hawait
      simp only [answerTo, hcall.1, Option.map_some] at hanswer
      split at hanswer
      · rename_i result hresult
        cases hanswer
        exact .fulfilled hcall (Option.some.inj hresult)
      · rename_i failure hresult
        cases hanswer
        exact .rejected hcall (Option.some.inj hresult)
      · cases hanswer
  | _ =>
      cases hanswer
      exact .external _ id _

/-- **A handler goes on.** -/
theorem sound_resume {handler : ResultHandler} (h : handler.Sound lib s.node i)
    (external : ExternalAnswer) : (handler.resume (s.answerTo i external)).Sound lib s.node i := by
  unfold ResultHandler.resume
  split
  · rename_i r k hawait
    split
    · rename_i answer hanswer
      have hobeys := h.obeys
      rw [hawait] at hobeys
      refine ⟨hobeys.2 answer, fun x hx => ?_, fun hashString timeout k' hk' => ?_⟩
      · rcases List.mem_append.mp hx with hx | hx
        · exact h.grounded x hx
        · rw [List.mem_singleton.mp hx]
          exact grounded_answerTo h hawait hanswer
      · -- a handler waits only once, at its start
        have hnext := hobeys.2 answer
        have hk : k answer = .await (.waitForTransactionToBeProvable hashString timeout) k' := hk'
        rw [hk] at hnext
        have hnil := hnext.1.1
        exact absurd hnil (by simp [Protocol.remembering])
    · exact h
  · exact h

/-- An answer leaves the handlers sound. -/
theorem Sound.answer (h : Sound lib s) (i : ℕ) (external : ExternalAnswer) :
    Sound lib (s.step lib (.answer i external)) := by
  refine ⟨fun j handler hj => ?_, fun j hj => ?_⟩
  · have hj' : Function.update s.handlers i
      ((s.handlers i).map (ResultHandler.resume (s.answerTo i external))) j = some handler := hj
    by_cases hji : j = i
    · subst hji
      rw [Function.update_self] at hj'
      obtain ⟨handler', hhandler', rfl⟩ := Option.map_eq_some_iff.mp hj'
      exact sound_resume (h.handlers j handler' hhandler') external
    · rw [Function.update_of_ne hji] at hj'
      exact h.handlers j handler hj'
  · have hj' : Function.update s.handlers i
      ((s.handlers i).map (ResultHandler.resume (s.answerTo i external))) j = none := hj
    by_cases hji : j = i
    · subst hji
      rw [Function.update_self, Option.map_eq_none_iff] at hj'
      exact h.calls j hj'
    · rw [Function.update_of_ne hji] at hj'
      exact h.calls j hj'

/-- **Every step keeps the invariant.** -/
theorem Sound.step (h : Sound lib s) (a : Action) : Sound lib (s.step lib a) := by
  cases a with
  | request i request => exact h.request i request
  | node a => exact h.node a
  | answer i external => exact h.answer i external

/-- **What the handlers were told is true**, in every run. -/
theorem run_sound (lib : PlatformLib D V R C) (as : List Action) :
    Sound lib (run lib initial as) :=
  Machine.run_invariant (fun _ a h => h.step a)
    ⟨fun _ _ hi => (by cases hi), fun _ _ => rfl⟩ as

/-! ## Every run -/

/-- The node runs as it does alone, on what happens to it. -/
theorem node_run (as : List Action) : (run lib initial as).node =
    NodeState.run .initial (Machine.outputs (step lib) (nodeActions lib) initial as) :=
  Machine.run_refines (fun _ _ => rfl) initial as

/-- Blocks and timers are not made up. -/
theorem mem_of_mem_nodeActions {as : List Action} {b : NodeState.Action}
    (h : b ∈ Machine.outputs (step lib) (nodeActions lib) initial as)
    (hb : ∀ i hashString, b ≠ .call i hashString) : .node b ∈ as := by
  obtain ⟨s, a, ha, hmem⟩ := Machine.exists_of_mem_outputs h
  cases a with
  | request i request =>
      exfalso
      simp only [nodeActions] at hmem
      split_ifs at hmem
      · unfold startWait at hmem
        split at hmem
        · exact hb _ _ (List.mem_singleton.mp hmem)
        · simp at hmem
      · simp at hmem
  | node a =>
      cases a with
      | call i hashString => simp [nodeActions] at hmem
      | _ =>
          rw [List.mem_singleton.mp hmem]
          exact ha
  | answer i external => simp [nodeActions] at hmem

/-- **A result that a handler was answered is committed.** -/
theorem isCommitted_of_mem {as : List Action} {handler : ResultHandler}
    (hhandler : (run lib initial as).handlers i = some handler) {hashString : String}
    {result : TransactionResult}
    (hmem : waitExchange hashString (.ok result) ∈ handler.conversation) :
    ∃ payload, NodeState.IsCommitted (Machine.outputs (step lib) (nodeActions lib) initial as)
      hashString result payload := by
  have hgrounded := ((run_sound lib as).handlers i handler hhandler).grounded _ hmem
  generalize hx : waitExchange hashString (.ok result) = x at hgrounded
  cases hgrounded with
  | fulfilled hcall hresult =>
      rw [waitExchange] at hx
      injection hx with hr hanswer
      injection hr with hhash _
      subst hhash
      obtain rfl := Except.ok.inj hanswer
      obtain ⟨hi, rfl⟩ := hcall
      rw [node_run] at hi
      exact NodeState.isCommitted_of_fulfilled hi hresult
  | rejected hcall hresult =>
      rw [waitExchange] at hx
      injection hx with hr hanswer
      cases hr
      cases hanswer
  | external r hr answer =>
      rw [waitExchange] at hx
      injection hx with hr' _
      rw [← hr'] at hr
      exact absurd trivial hr

/-- **A wait that failed** has timed out, or its request has failed. -/
theorem timeout_of_mem {as : List Action} {handler : ResultHandler}
    (hhandler : (run lib initial as).handlers i = some handler) {hashString : String}
    {failure : PlatformFailure}
    (hmem : waitExchange hashString (.error failure) ∈ handler.conversation) :
    (failure = .transactionWaitPeriodExceeded hashString ∧ .node (.timeout i) ∈ as) ∨
      ∃ requestFailure, failure = .request requestFailure := by
  have hgrounded := ((run_sound lib as).handlers i handler hhandler).grounded _ hmem
  generalize hx : waitExchange hashString (.error failure) = x at hgrounded
  cases hgrounded with
  | fulfilled hcall hresult =>
      rw [waitExchange] at hx
      injection hx with hr hanswer
      cases hr
      cases hanswer
  | rejected hcall hresult =>
      rw [waitExchange] at hx
      injection hx with hr hanswer
      injection hr with hhash _
      subst hhash
      obtain rfl := Except.error.inj hanswer
      obtain ⟨hi, rfl⟩ := hcall
      rw [node_run] at hi
      rcases NodeState.timeout_of_rejected hi hresult with
        ⟨rfl, htimeout⟩ | ⟨_, requestFailure, -, -, rfl, -⟩
      · exact Or.inl ⟨rfl, mem_of_mem_nodeActions htimeout (fun _ _ heq => by cases heq)⟩
      · exact Or.inr ⟨requestFailure, rfl⟩
  | external r hr answer =>
      rw [waitExchange] at hx
      injection hx with hr' _
      rw [← hr'] at hr
      exact absurd trivial hr

/-- **A handler that is done** was answered a committed result, and has answered it. -/
theorem answersResult_of_done {as : List Action} {handler : ResultHandler}
    {response : WaitForStateTransitionResultResponse}
    (hhandler : (run lib initial as).handlers i = some handler)
    (hdone : handler.program = .done response) :
    ∃ hash result payload c, handler.request.stateTransitionHash = some hash ∧
      NodeState.IsCommitted (Machine.outputs (step lib) (nodeActions lib) initial as)
          hash.toUpperHex result payload ∧
        AnswersResult lib handler.request result response c ∧ c <:+ handler.conversation := by
  have hobeys := ((run_sound lib as).handlers i handler hhandler).obeys
  rw [hdone] at hobeys
  obtain ⟨hashString, result, c, hhash, hc, hanswers⟩ := hobeys
  obtain ⟨payload, hcommitted⟩ := isCommitted_of_mem hhandler
    (hc ▸ List.mem_cons_self : waitExchange hashString (.ok result) ∈ handler.conversation)
  obtain ⟨hash, hsome, rfl⟩ := Option.map_eq_some_iff.mp hhash
  exact ⟨hash, result, payload, c, hsome, hcommitted, hanswers, hc ▸ List.suffix_cons _ c⟩

/-- Libraries for bytes without contents, and a proof for identities. -/
def plainPlatformLib : PlatformLib Unit Unit Buffer Buffer where
  driveErrorLib := Payload.plainLib
  encodeData _ := []
  decodeOption _ := .ok ()
  decodeProofs _ := .ok ⟨none, some ⟨[1], [2], [3], [4]⟩, none, some ⟨42, 41⟩⟩
  encodeMetadata _ := []
  deserializeBinary _ buffer := .ok buffer
  getDataContract buffer := buffer
  createDataContract buffer := .ok buffer

/-- The transaction is a state transition of an identity, and Drive has a proof. -/
def plainExternal : ExternalAnswer
  | .createStateTransition _ => .ok ⟨false, true, false, [[9]]⟩
  | .abciQuery _ => .ok ⟨some ⟨⟨some 0, none⟩, []⟩, none⟩
  | .consensusParams _ | .waitForTransactionToBeProvable _ _ => .error .typeError

/-- A call comes in, and its transaction is committed below a block. -/
def provedActions : List Action :=
  .request 0 ⟨some [0xab], true⟩ ::
    ([.commit "AB" ⟨⟨some 0, none⟩, 5, [1]⟩,
      .deliverEvent ⟨some ["AB"], ⟨some ⟨some 0, none⟩, [1], 5⟩⟩, .job 0 .raceUpcoming,
      .job 0 .commitment, .newBlock 6, .job 0 .heightReached, .job 0 .raceProvable].map .node ++
    [.answer 0 plainExternal, .answer 0 plainExternal])

/-- The handler after that run, and one more answer. -/
def provedHandler : ResultHandler where
  request := ⟨some [0xab], true⟩
  program := .done ⟨none, some ⟨42, 41⟩, some ⟨[1], ⟨none, some [2], none⟩, [3], [4]⟩⟩
  conversation :=
    [waitExchange "AB" (.ok ⟨.TransactionOkResult, some ⟨some 0, none⟩, 5, [1]⟩),
      ⟨.createStateTransition [1], .ok ⟨false, true, false, [[9]]⟩⟩,
      ⟨.abciQuery ⟨"/proofs", [], false⟩, .ok ⟨some ⟨⟨some 0, none⟩, []⟩, none⟩⟩]

/-- The handler of the run, computed. -/
theorem handlers_provedActions : (run plainPlatformLib initial
    (provedActions ++ [.answer 0 plainExternal])).handlers 0 = some provedHandler := by
  rfl

/-- **A response tells what is committed.**  In every run, with any number of calls in any order:
a handler that answers without an error does so for a transaction that the node has committed under
the hash of the request, whose code is a success, and after a block above it was heard of; and one
that answers with an error does so for a committed transaction that failed, and the error has its
code and is made of what Drive reported. -/
theorem result_of_committed (lib : PlatformLib D V R C) (as : List Action) (i : ℕ)
    (handler : ResultHandler) (response : WaitForStateTransitionResultResponse)
    (hhandler : (run lib initial as).handlers i = some handler)
    (hdone : handler.program = .done response) :
    ∃ hash payload, handler.request.stateTransitionHash = some hash ∧
      (run lib initial as).node.committed hash.toUpperHex = some payload ∧
        (response.error = none → payload.IsSuccess ∧
          ∃ height, .node (.newBlock height) ∈ as ∧ payload.height + 1 ≤ height) ∧
        ∀ error, response.error = some error → payload.result.code ≠ some 0 ∧
          error.code = payload.result.code ∧
            createStateTransitionDeliverError lib payload.result = .ok error := by
  obtain ⟨hash, result, payload, c, hsome, hcommitted, hanswers, -⟩ :=
    answersResult_of_done hhandler hdone
  have hok : result.resultClass = .TransactionOkResult → payload.IsSuccess ∧
      ∃ height, .node (.newBlock height) ∈ as ∧ payload.height + 1 ≤ height := by
    intro hclass
    obtain ⟨hsuccess, height, hmem, hle⟩ := hcommitted.ok hclass
    exact ⟨hsuccess, height, mem_of_mem_nodeActions hmem (fun _ _ heq => by cases heq), hle⟩
  refine ⟨hash, payload, hsome, ?_, ?_⟩
  · rw [node_run]
    exact hcommitted.committed
  · rcases hanswers.cases with ⟨hclass, deliverResult, error, hdeliver, herror, rfl⟩ |
      ⟨hclass, -, rfl⟩ | ⟨hclass, -, metadata, proof, rfl, -⟩
    · refine ⟨fun hnone => (by cases hnone), fun error' heq => ?_⟩
      obtain rfl := Option.some.inj heq
      obtain rfl := Option.some.inj (hcommitted.hasResult.deliverResult.symm.trans hdeliver)
      exact ⟨hcommitted.error hclass, createStateTransitionDeliverError_code herror, herror⟩
    · exact ⟨fun _ => hok hclass, fun error heq => by cases heq⟩
    · exact ⟨fun _ => hok hclass, fun error heq => by cases heq⟩

/-- The transaction of the proof is committed. -/
theorem result_of_committed_proved : ∃ hash payload,
    provedHandler.request.stateTransitionHash = some hash ∧
      (run plainPlatformLib initial (provedActions ++ [.answer 0 plainExternal])).node.committed
          hash.toUpperHex = some payload ∧ payload.IsSuccess := by
  obtain ⟨hash, payload, hhash, hcommitted, hok, -⟩ :=
    result_of_committed plainPlatformLib _ 0 provedHandler _ handlers_provedActions rfl
  exact ⟨hash, payload, hhash, hcommitted, (hok rfl).1⟩

/-- **A proof is the one of the committed transaction.**  In every run, a response has a proof
exactly when one was requested and there is no error; and then Drive was asked for what the state
transition in the committed bytes is about, under its kind, and the proof and the metadata are the
ones of that answer, under the same kind. -/
theorem proof_of_committed (lib : PlatformLib D V R C) (as : List Action) (i : ℕ)
    (handler : ResultHandler) (response : WaitForStateTransitionResultResponse)
    (hhandler : (run lib initial as).handlers i = some handler)
    (hdone : handler.program = .done response) :
    (response.proof ≠ none ↔ handler.request.prove = true ∧ response.error = none) ∧
      ∀ proof, response.proof = some proof → ∃ hash payload metadata c,
        handler.request.stateTransitionHash = some hash ∧
          (run lib initial as).node.committed hash.toUpperHex = some payload ∧
            response.metadata = some metadata ∧ IsProofOf lib c payload.tx metadata proof ∧
              c <:+ handler.conversation := by
  obtain ⟨hash, result, payload, c, hsome, hcommitted, hanswers, hsuffix⟩ :=
    answersResult_of_done hhandler hdone
  rcases hanswers.cases with ⟨-, _, error, -, -, rfl⟩ | ⟨-, hprove, rfl⟩ |
    ⟨-, hprove, metadata, proof, rfl, hproof⟩
  · simp
  · simp [hprove]
  · refine ⟨by simp [hprove], fun proof' heq => ?_⟩
    obtain rfl := Option.some.inj heq
    refine ⟨hash, payload, metadata, c, hsome, ?_, rfl, ?_, hsuffix⟩
    · rw [node_run]
      exact hcommitted.committed
    · rw [← hcommitted.hasResult.transaction]
      exact hproof

/-- The proof is the one of the committed transaction. -/
theorem proof_of_committed_proved : ∃ payload metadata c,
    (run plainPlatformLib initial (provedActions ++ [.answer 0 plainExternal])).node.committed
          "AB" = some payload ∧
      IsProofOf plainPlatformLib c payload.tx metadata ⟨[1], ⟨none, some [2], none⟩, [3], [4]⟩ ∧
        c <:+ provedHandler.conversation := by
  obtain ⟨hash, payload, metadata, c, hhash, hcommitted, -, hproof, hsuffix⟩ :=
    (proof_of_committed plainPlatformLib _ 0 provedHandler _ handlers_provedActions rfl).2 _ rfl
  cases hhash
  exact ⟨payload, metadata, c, hcommitted, hproof, hsuffix⟩

/-- **Drive is asked for a proof only when there is one.**  In every run, a handler that awaits
Drive was asked to prove, and the transaction with its hash is committed with success below a block
that was heard of; and it asks for what the state transition in the committed bytes is about. -/
theorem proof_asked_when_provable (lib : PlatformLib D V R C) (as : List Action) (i : ℕ)
    (handler : ResultHandler) (query : AbciQuery)
    (k : Except PlatformFailure (RpcResponse AbciQueryResponse) →
      PlatformProgram WaitForStateTransitionResultResponse)
    (hhandler : (run lib initial as).handlers i = some handler)
    (hawait : handler.program = .await (.abciQuery query) k) :
    handler.request.prove = true ∧ ∃ payload stateTransition kind,
      (∃ hash, handler.request.stateTransitionHash = some hash ∧
        (run lib initial as).node.committed hash.toUpperHex = some payload) ∧
      payload.IsSuccess ∧ (∃ height, .node (.newBlock height) ∈ as ∧ payload.height + 1 ≤ height) ∧
        ⟨.createStateTransition payload.tx, .ok stateTransition⟩ ∈ handler.conversation ∧
          stateTransition.kind = some kind ∧ query = proofQuery lib kind stateTransition := by
  have hobeys := ((run_sound lib as).handlers i handler hhandler).obeys
  rw [hawait] at hobeys
  obtain ⟨hprove, hashString, result, stateTransition, kind, hhash, hc, hok, hkind, hquery⟩ :=
    hobeys.1
  obtain ⟨payload, hcommitted⟩ := isCommitted_of_mem hhandler
    (hc ▸ List.mem_cons_self : waitExchange hashString (.ok result) ∈ handler.conversation)
  obtain ⟨hash, hsome, rfl⟩ := Option.map_eq_some_iff.mp hhash
  obtain ⟨hsuccess, height, hmem, hle⟩ := hcommitted.ok hok
  refine ⟨hprove, payload, stateTransition, kind, ⟨hash, hsome, ?_⟩, hsuccess,
    ⟨height, mem_of_mem_nodeActions hmem (fun _ _ heq => by cases heq), hle⟩, ?_, hkind, hquery⟩
  · rw [node_run]
    exact hcommitted.committed
  · rw [hc, ← hcommitted.hasResult.transaction]
    exact List.mem_cons_of_mem _ List.mem_cons_self

/-- When Drive is asked, the transaction is committed. -/
theorem proof_asked_when_provable_proved : ∃ payload,
    (run plainPlatformLib initial provedActions).node.committed "AB" = some payload ∧
      payload.IsSuccess := by
  obtain ⟨-, payload, -, -, ⟨hash, hhash, hcommitted⟩, hsuccess, -⟩ :=
    proof_asked_when_provable plainPlatformLib provedActions 0
      ⟨⟨some [0xab], true⟩, _, _⟩ _ _ rfl rfl
  cases hhash
  exact ⟨payload, hcommitted, hsuccess⟩

/-- **A deadline is a timer.**  In every run, a handler reports that its waiting period is exceeded
only when the timer of its wait has fired, with the hash of its request; and it never hands the
exception of the wait out. -/
theorem deadline_of_timer (lib : PlatformLib D V R C) (as : List Action) (i : ℕ)
    (handler : ResultHandler) (hhandler : (run lib initial as).handlers i = some handler) :
    (∀ message hash, handler.program = .throw (.deadlineExceeded message hash) →
        handler.request.hashString = some hash ∧ .node (.timeout i) ∈ as ∧
          message = "Waiting period for state transition " ++ hash ++ " exceeded") ∧
      ∀ hash, handler.program ≠ .throw (.transactionWaitPeriodExceeded hash) := by
  have hsound := (run_sound lib as).handlers i handler hhandler
  have hfailed : ∀ e, handler.program = .throw e → (∃ failure, e = .request failure) ∨
      ∃ hash, handler.request.hashString = some hash ∧ .node (.timeout i) ∈ as ∧ e =
        .deadlineExceeded ("Waiting period for state transition " ++ hash ++ " exceeded") hash := by
    intro e he
    have hobeys := hsound.obeys
    rw [he] at hobeys
    rcases hobeys with ⟨-, -, rfl⟩ | ⟨hashString, failure, hhash, hc, rfl⟩ |
      ⟨hashString, result, c, -, hc, ⟨failure, rfl⟩ | ⟨r, hr, hmem⟩⟩
    · exact Or.inl ⟨_, rfl⟩
    · rcases timeout_of_mem hhandler (hc ▸ List.mem_cons_self :
        waitExchange hashString (.error failure) ∈ handler.conversation) with
          ⟨rfl, htimeout⟩ | ⟨requestFailure, rfl⟩
      · exact Or.inr ⟨hashString, hhash, htimeout, rfl⟩
      · exact Or.inl ⟨requestFailure, rfl⟩
    · exact Or.inl ⟨failure, rfl⟩
    · exact Or.inl (hsound.external hr (hc ▸ List.mem_cons_of_mem _ hmem))
  refine ⟨fun message hash he => ?_, fun hash he => ?_⟩
  · rcases hfailed _ he with ⟨failure, heq⟩ | ⟨hash', hhash, htimeout, heq⟩
    · cases heq
    · cases heq
      exact ⟨hhash, htimeout, rfl⟩
  · rcases hfailed _ he with ⟨failure, heq⟩ | ⟨hash', -, -, heq⟩
    · cases heq
    · cases heq

/-- The deadline comes with the timer. -/
theorem deadline_of_timer_exceeded :
    .node (.timeout 0) ∈ ([.request 0 ⟨some [0xab], true⟩, .node (.timeout 0),
      .node (.job 0 .raceTimeout), .answer 0 plainExternal] : List Action) :=
  ((deadline_of_timer plainPlatformLib _ 0 ⟨⟨some [0xab], true⟩, .throw (.deadlineExceeded
    "Waiting period for state transition AB exceeded" "AB"), _⟩ rfl).1 _ _ rfl).2.1

end ResultService

end Dapi
