/-
# What a call for historical data gets

A call of the stream handler with a `count`
(`src/lib/grpcServer/handlers/tx-filter-stream/`
`subscribeToTransactionsWithProofsHandlerFactory.js`), on a chain that does not change.  Alone, its
handler yields the requested blocks (`HistoricalScan`); here it runs among the other calls of a
server, and Core may fail.

* `givesUp_handler`: when a request fails, the handler throws at once.
* `OnCourse` is the invariant: up to a failure, what the handler has done and what it is going to do
  are together its evaluation.
* `history_delivered`: the client gets the requested blocks from the first one on, and all of them
  when the stream ends.
* `history_completed`: it ends after so many answers of Core (`Finishing`).
-/
import Dapi.BoundedCalls
import Dapi.HistoricalScan

namespace Dapi

open Async Program

/-! ## The handler gives up -/

section GivesUp

variable {F : Type} (lib : DashcoreLib F)

/-- A library that fails ends the handler. -/
theorem givesUp_ofLibrary {α : Type} (x : Except String α) : (ofLibrary x).GivesUp := by
  cases x <;> exact trivial

theorem givesUp_newTransactions (raws : List Buffer) : (newTransactions lib raws).GivesUp := by
  induction raws with
  | nil => exact trivial
  | cons raw raws ih =>
      exact givesUp_bind (givesUp_ofLibrary _) fun _ => givesUp_bind ih fun _ => trivial

theorem givesUp_getTransactions (transactionHashes : List Hash) :
    (getTransactions lib transactionHashes).GivesUp :=
  givesUp_bind (givesUp_issue _) (givesUp_newTransactions lib)

theorem givesUp_writeResponse (response : Response) : (writeResponse response).GivesUp :=
  givesUp_bind (givesUp_perform _) fun _ => givesUp_issue _

theorem givesUp_sendHistoricalItem (item : HistoricalItem) :
    (sendHistoricalItem false item).GivesUp := by
  have hwait : (runIf (item.index > 0) (Handler.wait 50)).GivesUp := by
    unfold runIf
    split_ifs
    · exact givesUp_issue _
    · exact trivial
  refine givesUp_bind hwait fun _ => ?_
  refine givesUp_bind (givesUp_writeResponse _) fun _ => ?_
  exact givesUp_bind (givesUp_writeResponse _) fun _ => trivial

theorem givesUp_yieldMerkleBlocks (rawMerkleBlocks : List Buffer) (merkleBlockIndex : ℕ) :
    (yieldMerkleBlocks lib (sendHistoricalItem false) rawMerkleBlocks
      merkleBlockIndex).GivesUp := by
  induction rawMerkleBlocks generalizing merkleBlockIndex with
  | nil => exact trivial
  | cons rawMerkleBlock rawMerkleBlocks ih =>
      refine givesUp_bind (givesUp_ofLibrary _) fun merkleBlock => ?_
      refine givesUp_bind (givesUp_getTransactions lib _) fun transactions => ?_
      refine givesUp_bind (givesUp_perform _) fun _ => ?_
      exact givesUp_bind (givesUp_sendHistoricalItem _) fun _ => ih _

/-- A failure between the batches ends the handler. -/
theorem givesUp_scanBatches (fromHeight : ℕ) (count : ℤ)
    (numberOfBatches remaining batchIndex merkleBlockIndex : ℕ) :
    (scanBatches lib (sendHistoricalItem false) fromHeight count numberOfBatches remaining
      batchIndex merkleBlockIndex).GivesUp := by
  induction remaining generalizing batchIndex merkleBlockIndex with
  | zero => exact trivial
  | succ remaining ih =>
      refine givesUp_bind (givesUp_issue _) fun blockHash => ?_
      refine givesUp_bind (givesUp_perform _) fun filter => ?_
      refine givesUp_bind (givesUp_issue _) fun rawMerkleBlocks => ?_
      exact givesUp_bind (givesUp_yieldMerkleBlocks lib _ _) fun _ => ih _ _

/-- **The scan gives up at its first failure.** -/
theorem givesUp_iterator (fromBlockHash : Hash) (count : ℤ) :
    (getHistoricalTransactionsIterator lib fromBlockHash count
      (sendHistoricalItem false)).GivesUp :=
  givesUp_bind (givesUp_issue _) fun _ => givesUp_scanBatches lib _ _ _ _ _ _

/-- A start that is not found ends the handler. -/
theorem givesUp_resolveFromBlockHash (request : StreamRequest) :
    (resolveFromBlockHash request).GivesUp := by
  rw [resolveFromBlockHash]
  split_ifs
  · exact trivial
  · refine givesUp_issue_tryCatch fun e => ?_
    split
    · exact ⟨_, rfl⟩
    · exact ⟨_, rfl⟩
  · exact trivial

theorem givesUp_getFromBlock (fromBlockHash : Hash) : (getFromBlock fromBlockHash).GivesUp := by
  refine givesUp_bind (givesUp_issue_tryCatch fun e => ?_) fun fromBlock => ?_
  · split
    · exact ⟨_, rfl⟩
    · exact ⟨_, rfl⟩
  · split_ifs
    · exact trivial
    · exact trivial

/-- **A failure is the end** of a handler that is asked for historical data only. -/
theorem givesUp_handler {request : StreamRequest} (hcount : request.count ≠ 0) :
    (subscribeToTransactionsWithProofsHandler lib request).GivesUp := by
  have hflag : decide (request.count = 0) = false := decide_eq_false hcount
  rw [subscribeToTransactionsWithProofsHandler, hflag]
  have hfilter : ((Handler.newBloomFilter request.bloomFilter).tryCatch fun e =>
      throw (.invalidArgument ("Invalid bloom filter: " ++ e.message))).GivesUp := by
    intro result
    cases result <;> exact trivial
  refine givesUp_bind hfilter fun _ => ?_
  refine givesUp_bind trivial fun _ => ?_
  refine givesUp_bind (givesUp_resolveFromBlockHash request) fun fromBlockHash => ?_
  refine givesUp_bind (givesUp_getFromBlock fromBlockHash) fun fromBlock => ?_
  refine givesUp_bind (givesUp_issue _) fun bestBlockHeight => ?_
  refine givesUp_bind (givesUp_iterator lib fromBlockHash _) fun _ => ?_
  refine givesUp_bind (givesUp_perform _) fun _ => ?_
  exact givesUp_bind (givesUp_perform _) fun _ => givesUp_perform _

end GivesUp

/-! ## The course of the call -/

namespace StreamSystem

variable {F : Type} [BloomFilter F]

/-- What a program does and returns with the filter, when nothing fails. -/
abbrev evaluation {α : Type} (filter : F) (answer : (r : CoreRequest) → Except Failure r.Answer)
    (x : HandlerProgram α) : Except Failure α × List (Event handlerSignature) :=
  x.eval (quietAnswer (BloomFilter.toBuffer filter)) answer

/-- The call is at work: its filter is made, and it has no subscription. -/
structure AtWork (filter : F) (sys : StreamSystem F) (j : ℕ) : Prop where
  subscription : (sys.calls j).subscription = none
  request : (sys.calls j).request ≠ none
  filter : (sys.calls j).filter = some filter

/-- **How far the call is.**  It has not come in; or what its handler has done and what it is going
to do are together `whole`; or it has failed on the way. -/
inductive OnCourse (filter : F) (answer : (r : CoreRequest) → Except Failure r.Answer)
    (whole : List HandlerOp) (sys : StreamSystem F) (j : ℕ) : List HandlerOp → Prop
  | idle (hrequest : (sys.calls j).request = none) : OnCourse filter answer whole sys j []
  | working {log : List HandlerOp} (hwork : AtWork filter sys j) (hne : log ≠ [])
    (hgives : (sys.handlers j).GivesUp)
    (hwhole : log ++ loggedOperations (evaluation filter answer (sys.handlers j)).2 = whole) :
    OnCourse filter answer whole sys j log
  | failed {log : List HandlerOp} (hwork : AtWork filter sys j) (e : Failure)
    (hthrow : sys.handlers j = .throw e) (hpart : log <+: whole) :
    OnCourse filter answer whole sys j log

variable {env : Environment F} {lib : DashcoreLib F} {sys sys' : StreamSystem F} {j : ℕ}
  {filter : F} {answer : (r : CoreRequest) → Except Failure r.Answer}
  {whole log : List HandlerOp} {request : StreamRequest}

/-- What was done is a beginning of the whole. -/
theorem OnCourse.prefix_whole (h : OnCourse filter answer whole sys j log) : log <+: whole := by
  cases h with
  | idle _ => exact List.nil_prefix
  | working _ _ _ hwhole => exact ⟨_, hwhole⟩
  | failed _ _ _ hpart => exact hpart

omit [BloomFilter F] in
/-- Nothing else of the call matters. -/
theorem AtWork.congr (h : AtWork filter sys j)
    (hsubscription : (sys'.calls j).subscription = (sys.calls j).subscription)
    (hrequest : (sys'.calls j).request = (sys.calls j).request)
    (hfilter : (sys'.calls j).filter = (sys.calls j).filter) : AtWork filter sys' j :=
  ⟨hsubscription.trans h.subscription, fun hnone => h.request (hrequest.symm.trans hnone),
    hfilter.trans h.filter⟩

theorem OnCourse.congr (h : OnCourse filter answer whole sys j log)
    (hsubscription : (sys'.calls j).subscription = (sys.calls j).subscription)
    (hrequest : (sys'.calls j).request = (sys.calls j).request)
    (hfilter : (sys'.calls j).filter = (sys.calls j).filter)
    (hhandler : sys'.handlers j = sys.handlers j) : OnCourse filter answer whole sys' j log := by
  cases h with
  | idle hnone => exact .idle (hrequest.trans hnone)
  | working hwork hne hgives hwhole =>
      refine .working (hwork.congr hsubscription hrequest hfilter) hne ?_ ?_
      · rwa [hhandler]
      · rwa [hhandler]
  | failed hwork e hthrow hpart =>
      exact .failed (hwork.congr hsubscription hrequest hfilter) e (hhandler.trans hthrow) hpart

/-- After its filter is made, the operations of the handler are answered as in the evaluation. -/
theorem exec_quiet {call : Call F} (hsubscription : call.subscription = none)
    (hfilter : call.filter = some filter) {op : HandlerOp} (hop : HistoricalOk log op)
    (hne : log ≠ []) :
    (call.exec env lib op).1 = quietAnswer (BloomFilter.toBuffer filter) op ∧
      (call.exec env lib op).2.filter = some filter := by
  cases op with
  | newBloomFilter bloomFilter => exact absurd hop hne
  | filterToBuffer =>
      refine ⟨?_, hfilter⟩
      show Except.ok ((call.currentFilter.map BloomFilter.toBuffer).getD []) = _
      rw [Call.currentFilter, hsubscription, hfilter]
      rfl
  | write response =>
      rw [Call.exec, Call.act_of_none hsubscription]
      exact ⟨rfl, hfilter⟩
  | emitHistoricalDataSent =>
      rw [Call.exec, Call.act_of_none hsubscription]
      exact ⟨rfl, hfilter⟩
  | yield item => exact ⟨rfl, hfilter⟩
  | endCall => exact ⟨rfl, hfilter⟩
  | onCancelled => exact ⟨rfl, hfilter⟩
  | _ => exact hop.elim

variable (env lib answer) in
/-- **The handler of the call runs** as in its evaluation. -/
theorem AtWork.runHandler (h : AtWork filter sys j) {handler : HandlerProgram Unit}
    {post : Unit → List HandlerOp → Prop} {exc : Failure → List HandlerOp → Prop}
    (hobeys : handler.Obeys (Protocol.logging HistoricalOk) post exc log) (hne : log ≠ []) :
    evaluation filter answer handler =
        ((evaluation filter answer ((sys.runHandler env lib j handler).handlers j)).1,
          (handler.operations (exec env lib j) sys).map Event.sync ++
            (evaluation filter answer ((sys.runHandler env lib j handler).handlers j)).2) ∧
      AtWork filter (sys.runHandler env lib j handler) j := by
  have hexec : ∀ log op (sys : StreamSystem F), log ≠ [] → HistoricalOk log op →
      AtWork filter sys j →
        (sys.exec env lib j op).1 = quietAnswer (BloomFilter.toBuffer filter) op ∧
          AtWork filter (sys.exec env lib j op).2 j := by
    intro log op sys hne hop hwork
    obtain ⟨hanswer, hfilter⟩ : ((sys.calls j).exec env lib op).1 =
        quietAnswer (BloomFilter.toBuffer filter) op ∧ _ :=
      exec_quiet hwork.subscription hwork.filter hop hne
    rw [exec_of_ne (ne_testCollection hop)]
    refine ⟨hanswer, ?_, ?_, ?_⟩
    · rw [setCall_self]
      exact exec_subscription hwork.subscription hop
    · rw [setCall_self, Call.exec_request]
      exact hwork.request
    · rw [setCall_self]
      exact hfilter
  obtain ⟨heval, hwork⟩ := hobeys.advance_eval answer (R := fun sys => AtWork filter sys j)
    hexec hne h
  refine ⟨?_, hwork.subscription, hwork.request, hwork.filter⟩
  rw [runHandler_handlers_self]
  exact heval

/-- A handler that goes on stays on course. -/
theorem onCourse_runHandler {handler : HandlerProgram Unit} {post : Unit → List HandlerOp → Prop}
    {exc : Failure → List HandlerOp → Prop}
    (hobeys : handler.Obeys (Protocol.logging HistoricalOk) post exc log) (hne : log ≠ [])
    (hwork : AtWork filter sys j) (hgives : handler.GivesUp)
    (hwhole : log ++ loggedOperations (evaluation filter answer handler).2 = whole) :
    OnCourse filter answer whole (sys.runHandler env lib j handler) j
      (log ++ handler.operations (exec env lib j) sys) := by
  obtain ⟨heval, hwork'⟩ := hwork.runHandler env lib answer hobeys hne
  refine .working hwork' (List.append_ne_nil_of_left_ne_nil hne _) ?_ ?_
  · rw [runHandler_handlers_self]
    exact hgives.advance _ _
  · rw [← hwhole, heval, loggedOperations_append, List.append_assoc]

/-- A handler that has failed does nothing. -/
theorem onCourse_throw (hwork : AtWork filter sys j) (e : Failure) (hpart : log <+: whole) :
    OnCourse filter answer whole (sys.runHandler env lib j (.throw e)) j
      (log ++ (Program.throw e : HandlerProgram Unit).operations (exec env lib j) sys) := by
  have hlog : log ++ (Program.throw e : HandlerProgram Unit).operations (exec env lib j) sys =
    log := List.append_nil log
  rw [hlog]
  exact .failed (hwork.congr rfl rfl rfl) e (runHandler_handlers_self _) hpart

variable (lib filter answer request) in
/-- What the handler of a request comes to, and the events on the way. -/
abbrev wholeEvaluation : Except Failure Unit × List (Event handlerSignature) :=
  evaluation filter answer (subscribeToTransactionsWithProofsHandler lib request)

variable (lib filter answer request) in
/-- What the handler does when nothing fails. -/
def wholeLog : List HandlerOp :=
  loggedOperations (wholeEvaluation lib filter answer request).2

variable (env) in
/-- **The handler makes its filter first**, and then the rest of it runs. -/
theorem step_call_eq (hnone : (sys.calls j).request = none)
    (hnew : lib.newBloomFilter request.bloomFilter = .ok filter) :
    ∃ k, subscribeToTransactionsWithProofsHandler lib request =
        .sync (.newBloomFilter request.bloomFilter) k ∧
      ∃ sys₁ : StreamSystem F, AtWork filter sys₁ j ∧
        sys.step env lib (.call j request) = sys₁.runHandler env lib j (k (.ok ())) ∧
        sys.operationsOf env lib j (.call j request) =
          [.newBloomFilter request.bloomFilter] ++
            (k (.ok ())).operations (exec env lib j) sys₁ := by
  obtain ⟨k, hk⟩ : ∃ k, subscribeToTransactionsWithProofsHandler lib request =
      .sync (.newBloomFilter request.bloomFilter) k := ⟨_, rfl⟩
  let sys₀ : StreamSystem F :=
    { sys.setCall j (.accepted request) with accepted := sys.accepted ++ [j] }
  let sys₁ : StreamSystem F := sys₀.setCall j { Call.accepted request with filter := some filter }
  have haccepted : sys₀.calls j = .accepted request := setCall_self _
  have hexec : sys₀.exec env lib j (.newBloomFilter request.bloomFilter) = (.ok (), sys₁) := by
    rw [exec_of_ne (by simp), haccepted, Call.exec, hnew]
  have hcall : sys₁.calls j = { Call.accepted request with filter := some filter } :=
    setCall_self _
  have hwork : AtWork filter sys₁ j := by
    refine ⟨?_, ?_, ?_⟩
    · rw [hcall]
      rfl
    · rw [hcall]
      exact Option.some_ne_none request
    · rw [hcall]
  refine ⟨k, hk, sys₁, hwork, ?_, ?_⟩
  · rw [StreamSystem.step, if_pos hnone, hk]
    show StreamSystem.runHandler env lib j
      (k (sys₀.exec env lib j (.newBloomFilter request.bloomFilter)).1)
      (sys₀.exec env lib j (.newBloomFilter request.bloomFilter)).2 = _
    rw [hexec]
  · rw [operationsOf, if_pos ⟨rfl, hnone⟩, hk]
    show HandlerOp.newBloomFilter request.bloomFilter ::
      (k (sys₀.exec env lib j (.newBloomFilter request.bloomFilter)).1).operations
        (exec env lib j) (sys₀.exec env lib j (.newBloomFilter request.bloomFilter)).2 = _
    rw [hexec]
    rfl

/-- The call starts on course. -/
theorem onCourse_call (hnone : (sys.calls j).request = none) (hcount : request.count ≠ 0)
    (hnew : lib.newBloomFilter request.bloomFilter = .ok filter) :
    OnCourse filter answer (wholeLog lib filter answer request)
      (sys.step env lib (.call j request)) j
      (sys.operationsOf env lib j (.call j request)) := by
  obtain ⟨k, hk, sys₁, hwork, hstate, hoperations⟩ := step_call_eq env hnone hnew
  have hobeys := historical_obeys lib hcount
  have hgives := givesUp_handler lib hcount
  rw [hk] at hobeys hgives
  have hrest : (k (.ok ())).Obeys (Protocol.logging HistoricalOk) (fun _ log => .endCall ∈ log)
    (fun _ _ => True) [.newBloomFilter request.bloomFilter] := hobeys.2 (.ok ())
  rw [hstate, hoperations]
  refine onCourse_runHandler hrest (List.cons_ne_nil _ _) hwork (hgives (.ok ())) ?_
  rw [wholeLog, wholeEvaluation, hk]
  rfl

/-- An answer to the handler, as in the evaluation or a failure. -/
theorem OnCourse.answered (h : OnCourse filter answer whole sys j log)
    (hhistorical : Historical sys j log)
    {given : (r : CoreRequest) → Except Failure r.Answer}
    (hgiven : ∀ r, given r = answer r ∨ ∃ e, given r = .error e) :
    OnCourse filter answer whole (sys.step env lib (.answer j given)) j
      (log ++ sys.operationsOf env lib j (.answer j given)) := by
  rw [StreamSystem.step, operationsOf, if_pos rfl]
  cases h with
  | idle hnone =>
      obtain ⟨-, hdone, -⟩ | ⟨hne, -⟩ := hhistorical.handler
      · rw [hdone]
        exact .idle hnone
      · exact absurd hnone hne
  | working hwork hne hgives hwhole =>
      obtain ⟨hnone, -⟩ | ⟨-, hobeys, -⟩ := hhistorical.handler
      · exact absurd hnone hwork.request
      · obtain ⟨e, hthrow⟩ | ⟨hgives', heval⟩ := hgives.resume hgiven
        · -- the failure is thrown, and nothing is done
          rw [hthrow]
          exact onCourse_throw hwork e ⟨_, hwhole⟩
        · refine onCourse_runHandler (hobeys.resume_logging given) hne hwork hgives' ?_
          rw [heval, hwhole]
  | failed hwork e hthrow hpart =>
      rw [hthrow]
      exact onCourse_throw hwork e hpart

/-- **Step lemma.** -/
theorem OnCourse.step (h : OnCourse filter answer (wholeLog lib filter answer request) sys j log)
    (hhistorical : Historical sys j log) (hcount : request.count ≠ 0)
    (hnew : lib.newBloomFilter request.bloomFilter = .ok filter) (a : Action)
    (hcall : ∀ request', a = .call j request' → request' = request)
    (hanswer : ∀ given, a = .answer j given →
      ∀ r, given r = answer r ∨ ∃ e, given r = .error e) :
    OnCourse filter answer (wholeLog lib filter answer request) (sys.step env lib a) j
      (log ++ sys.operationsOf env lib j a) := by
  by_cases ha : a.isAnswerTo j = true
  · obtain ⟨given, rfl⟩ := exists_answer ha
    exact h.answered hhistorical (hanswer given rfl)
  · by_cases hfirst : a = .call j request ∧ (sys.calls j).request = none
    · obtain ⟨rfl, hnone⟩ := hfirst
      obtain ⟨-, -, rfl⟩ | ⟨hne, -⟩ := hhistorical.handler
      · exact onCourse_call hnone hcount hnew
      · exact absurd hnone hne
    · have haccepted : ∀ request', a = .call j request' → (sys.calls j).request ≠ none := by
        rintro request' rfl hnone
        obtain rfl : request' = request := hcall request' rfl
        exact hfirst ⟨rfl, hnone⟩
      obtain ⟨hnone, hhandler, hsubscription, hrequest, hfilter⟩ :=
        step_unanswered env lib hhistorical.subscription ha haccepted
      rw [hnone, List.append_nil]
      exact h.congr hsubscription hrequest hfilter hhandler

/-- **The handler stays on course** in every run, as long as Core answers the same or fails. -/
theorem run_onCourse (hcount : request.count ≠ 0)
    (hnew : lib.newBloomFilter request.bloomFilter = .ok filter) {as : List Action}
    (hcall : ∀ request', .call j request' ∈ as → request' = request)
    (hanswer : ∀ given, .answer j given ∈ as →
      ∀ r, given r = answer r ∨ ∃ e, given r = .error e) :
    OnCourse filter answer (wholeLog lib filter answer request) (run env lib initial as) j
      (operationLog env lib j as) := by
  induction as using List.reverseRecOn with
  | nil => exact .idle rfl
  | append_singleton as a ih =>
      have hbefore : ∀ request', .call j request' ∈ as → request' = request :=
        fun request' hmem => hcall request' (List.mem_append_left _ hmem)
      have hcourse := ih hbefore fun given hmem => hanswer given (List.mem_append_left _ hmem)
      have hrun : Historical (run env lib initial as) j (operationLog env lib j as) :=
        run_historical fun request' hmem => by rwa [hbefore request' hmem]
      unfold operationLog
      rw [Machine.outputs_snoc, run, Machine.run_append]
      exact hcourse.step hrun hcount hnew a (fun request' heq => hcall request' (by simp [heq]))
        fun given heq => hanswer given (by simp [heq])

/-! ## The end of the call -/

/-- The call is at work, and returns after `left` answers or less. -/
structure Finishing (filter : F) (answer : (r : CoreRequest) → Except Failure r.Answer) (left : ℕ)
    (sys : StreamSystem F) (j : ℕ) (log : List HandlerOp) : Prop where
  work : AtWork filter sys j
  started : log ≠ []
  atRest : (sys.handlers j).IsAtRest
  result : (evaluation filter answer (sys.handlers j)).1 = .ok ()
  requests : requestCount (evaluation filter answer (sys.handlers j)).2 ≤ left

variable {left : ℕ}

/-- A handler that goes on has fewer requests left. -/
theorem finishing_runHandler {handler : HandlerProgram Unit}
    {post : Unit → List HandlerOp → Prop} {exc : Failure → List HandlerOp → Prop}
    (hobeys : handler.Obeys (Protocol.logging HistoricalOk) post exc log) (hne : log ≠ [])
    (hwork : AtWork filter sys j)
    (hresult : (evaluation filter answer handler).1 = .ok ())
    (hrequests : requestCount (evaluation filter answer handler).2 ≤ left) :
    Finishing filter answer left (sys.runHandler env lib j handler) j
      (log ++ handler.operations (exec env lib j) sys) := by
  obtain ⟨heval, hwork'⟩ := hwork.runHandler env lib answer hobeys hne
  rw [heval] at hresult hrequests
  rw [requestCount_append] at hrequests
  refine ⟨hwork', List.append_ne_nil_of_left_ne_nil hne _, ?_, hresult, hrequests⟩
  rw [runHandler_handlers_self]
  exact advance_isAtRest _ _ _

/-- The call comes in. -/
theorem finishing_call (hnone : (sys.calls j).request = none) (hcount : request.count ≠ 0)
    (hnew : lib.newBloomFilter request.bloomFilter = .ok filter)
    (hresult : (wholeEvaluation lib filter answer request).1 = .ok ()) :
    Finishing filter answer (requestCount (wholeEvaluation lib filter answer request).2)
      (sys.step env lib (.call j request)) j
      (sys.operationsOf env lib j (.call j request)) := by
  obtain ⟨k, hk, sys₁, hwork, hstate, hoperations⟩ := step_call_eq env hnone hnew
  have hobeys := historical_obeys lib hcount
  rw [wholeEvaluation, hk] at hresult ⊢
  rw [hk] at hobeys
  have hrest : (k (.ok ())).Obeys (Protocol.logging HistoricalOk) (fun _ log => .endCall ∈ log)
    (fun _ _ => True) [.newBloomFilter request.bloomFilter] := hobeys.2 (.ok ())
  rw [hstate, hoperations]
  refine finishing_runHandler hrest (List.cons_ne_nil _ _) hwork hresult ?_
  exact (requestCount_append [HandlerOp.newBloomFilter request.bloomFilter]
    (evaluation filter answer (k (.ok ()))).2).ge

/-- **Every answer brings the call nearer to its end**, and nothing takes it back. -/
theorem Finishing.step (h : Finishing filter answer left sys j log)
    (hhistorical : Historical sys j log) (a : Action)
    (hanswer : ∀ given, a = .answer j given → ∀ r, given r = answer r) :
    Finishing filter answer (left - if a.isAnswerTo j then 1 else 0) (sys.step env lib a) j
      (log ++ sys.operationsOf env lib j a) := by
  by_cases ha : a.isAnswerTo j = true
  · rw [if_pos ha]
    obtain ⟨given, rfl⟩ := exists_answer ha
    obtain ⟨hnone, -⟩ | ⟨-, hobeys, -⟩ := hhistorical.handler
    · exact absurd hnone h.work.request
    · obtain ⟨hresult, hrequests⟩ :
          (evaluation filter answer ((sys.handlers j).resume given)).1 = _ ∧ _ :=
        h.atRest.resume_eval (hanswer given rfl)
      rw [StreamSystem.step, operationsOf, if_pos rfl]
      refine finishing_runHandler (hobeys.resume_logging given) h.started h.work
        (hresult.trans h.result) ?_
      rw [hrequests]
      exact Nat.sub_le_sub_right h.requests 1
  · rw [if_neg ha, Nat.sub_zero]
    obtain ⟨hnone, hhandler, hsubscription, hrequest, hfilter⟩ :=
      step_unanswered env lib hhistorical.subscription ha fun _ _ => h.work.request
    rw [hnone, List.append_nil]
    refine ⟨h.work.congr hsubscription hrequest hfilter, h.started, ?_, ?_, ?_⟩
    · rw [hhandler]
      exact h.atRest
    · rw [hhandler]
      exact h.result
    · rw [hhandler]
      exact h.requests

variable (env) in
/-- Every answer takes one request off the bound. -/
theorem run_finishing {before after : List Action} (hcount : request.count ≠ 0)
    (hnew : lib.newBloomFilter request.bloomFilter = .ok filter)
    (hfresh : ((run env lib initial before).calls j).request = none)
    (hcall : ∀ request', .call j request' ∈ before ++ .call j request :: after →
      request' = request)
    (hanswer : ∀ given, .answer j given ∈ after → ∀ r, given r = answer r)
    (hresult : (wholeEvaluation lib filter answer request).1 = .ok ()) :
    Finishing filter answer
      (requestCount (wholeEvaluation lib filter answer request).2 -
          after.countP fun a => a.isAnswerTo j)
      (run env lib initial (before ++ .call j request :: after)) j
      (operationLog env lib j (before ++ .call j request :: after)) := by
  induction after using List.reverseRecOn with
  | nil =>
      have hrun : Historical (run env lib initial before) j (operationLog env lib j before) :=
        run_historical fun request' hmem => by
          rwa [hcall request' (List.mem_append_left _ hmem)]
      obtain ⟨-, -, hnil⟩ | ⟨hne, -⟩ := hrun.handler
      · have hlog : operationLog env lib j (before ++ [.call j request]) =
            (run env lib initial before).operationsOf env lib j (.call j request) := by
          unfold operationLog at hnil ⊢
          rw [Machine.outputs_snoc, hnil]
          rfl
        rw [hlog, run, Machine.run_append]
        exact finishing_call hfresh hcount hnew hresult
      · exact absurd hfresh hne
  | append_singleton after a ih =>
      have hsplit : before ++ .call j request :: (after ++ [a]) =
          (before ++ .call j request :: after) ++ [a] := by simp
      rw [hsplit] at hcall ⊢
      have hbefore : ∀ request', .call j request' ∈ before ++ .call j request :: after →
          request' = request :=
        fun request' hmem => hcall request' (List.mem_append_left _ hmem)
      have hfinishing := ih hbefore fun given hmem => hanswer given (List.mem_append_left _ hmem)
      have hrun : Historical (run env lib initial (before ++ .call j request :: after)) j
          (operationLog env lib j (before ++ .call j request :: after)) :=
        run_historical fun request' hmem => by rwa [hbefore request' hmem]
      unfold operationLog
      rw [Machine.outputs_snoc, run, Machine.run_append, List.countP_append, List.countP_singleton,
        ← Nat.sub_sub]
      exact hfinishing.step hrun a fun given heq => hanswer given (by simp [heq])

/-! ## What the client gets -/

end StreamSystem

/-- The yielded items, from the operations. -/
theorem yieldedItems_eq (log : List (Event handlerSignature)) :
    yieldedItems log = (loggedOperations log).filterMap HandlerOp.yielded := by
  unfold yieldedItems loggedOperations
  rw [List.filterMap_filterMap]
  refine List.filterMap_congr fun e _ => ?_
  cases e with
  | sync op => cases op <;> rfl
  | await r => rfl

/-- The blocks that a request asks for, from a height on. -/
def FixedChain.requestedItems (chain : FixedChain) (request : StreamRequest) (fromHeight : ℕ) :
    List HistoricalItem :=
  chain.items (chain.matchingHeights fromHeight
    (chain.lastHeight fromHeight request.count + 1 - fromHeight)) 0

/-- What a client is to get for them. -/
def FixedChain.requested (chain : FixedChain) (request : StreamRequest) (fromHeight : ℕ) :
    List Response :=
  (chain.requestedItems request fromHeight).flatMap HistoricalItem.responses

/-- Alone, the handler returns. -/
theorem yields_handler {F : Type} {lib : DashcoreLib F} {chain : FixedChain} {buffer : Buffer}
    {answer : (r : CoreRequest) → Except Failure r.Answer}
    (hc : chain.AnsweredBy lib buffer answer) {request : StreamRequest} {fromHeight : ℕ}
    (hcount : request.count ≠ 0) (hstart : chain.StartsAt request fromHeight)
    (hfrom : fromHeight ≤ chain.best) :
    Yields chain buffer answer (subscribeToTransactionsWithProofsHandler lib request) ()
      (chain.requestedItems request fromHeight) := by
  obtain ⟨fromBlock, rfl, hblock⟩ := yields_getFromBlock hc hfrom
  have hbest : fromBlock.height +
      (chain.lastHeight fromBlock.height request.count + 1 - fromBlock.height) ≤
        chain.best + 1 := by
    rw [FixedChain.lastHeight, if_neg hcount]
    omega
  have hscan := yields_iterator hc (yields_sendHistoricalItem hc false) hfrom hbest
  rw [← getHistoricalCount_eq hfrom] at hscan
  have hflag : decide (request.count = 0) = false := decide_eq_false hcount
  rw [subscribeToTransactionsWithProofsHandler, hflag, FixedChain.requestedItems,
    ← List.append_nil (chain.items _ _)]
  refine yields_step (yields_tryCatch (yields_perform (.newBloomFilter _) rfl trivial)) ?_
  refine yields_step (yields_runIf (yields_perform .subscribeToNewTransactions rfl trivial)) ?_
  refine yields_step (yields_resolveFromBlockHash hc hstart hfrom) ?_
  refine yields_step hblock ?_
  refine yields_step (yields_issue hc.getBestBlockHeight trivial) ?_
  refine yields_bind hscan ?_
  refine yields_step (yields_perform .emitHistoricalDataSent rfl trivial) ?_
  refine yields_step (yields_perform .endCall rfl trivial) ?_
  exact yields_perform .onCancelled rfl trivial

namespace StreamSystem

section

variable {F : Type} [BloomFilter F] {lib : DashcoreLib F} {filter : F}
  {answer : (r : CoreRequest) → Except Failure r.Answer} {chain : FixedChain}
  {request : StreamRequest} {fromHeight : ℕ}

/-- The handler comes to its end, and yields what was requested. -/
theorem wholeEvaluation_eq (hc : chain.AnsweredBy lib (BloomFilter.toBuffer filter) answer)
    (hcount : request.count ≠ 0) (hstart : chain.StartsAt request fromHeight)
    (hfrom : fromHeight ≤ chain.best) :
    ∃ log, wholeEvaluation lib filter answer request = (.ok (), log) ∧
      yieldedItems log = chain.requestedItems request fromHeight := by
  obtain ⟨log, heval, hitems, -⟩ := yields_handler hc hcount hstart hfrom
  exact ⟨log, heval, hitems⟩

/-- What is due is what was requested. -/
theorem due_wholeLog (hc : chain.AnsweredBy lib (BloomFilter.toBuffer filter) answer)
    (hcount : request.count ≠ 0) (hstart : chain.StartsAt request fromHeight)
    (hfrom : fromHeight ≤ chain.best) :
    due (wholeLog lib filter answer request) = chain.requested request fromHeight := by
  obtain ⟨log, heval, hitems⟩ := wholeEvaluation_eq hc hcount hstart hfrom
  rw [due, wholeLog, ← yieldedItems_eq, heval, hitems]
  rfl

/-- The whole keeps the order of the handler. -/
theorem wholeLog_always (hcount : request.count ≠ 0) :
    Trace.Always HistoricalOk (wholeLog lib filter answer request) :=
  (historical_obeys lib hcount).eval_logging (Trace.always_nil _)

/-- When the stream has ended, there is nothing more to yield. -/
theorem due_eq_of_ended {log whole : List HandlerOp} (hwhole : Trace.Always HistoricalOk whole)
    (hpart : log <+: whole) (hended : .endCall ∈ log) : due log = due whole := by
  obtain ⟨rest, rfl⟩ := hpart
  obtain ⟨before, after, rfl⟩ := List.append_of_mem hended
  have hlog : Trace.Always HistoricalOk (before ++ .endCall :: after) :=
    (Trace.always_append.mp hwhole).1
  rw [List.append_assoc, List.cons_append] at hwhole ⊢
  rw [← sent_before_endCall hlog, ← sent_before_endCall hwhole]

/-- What is sent on the course is requested. -/
theorem OnCourse.sent_requested {sys : StreamSystem F} {j : ℕ} {log : List HandlerOp}
    (h : OnCourse filter answer (wholeLog lib filter answer request) sys j log)
    (hc : chain.AnsweredBy lib (BloomFilter.toBuffer filter) answer) (hcount : request.count ≠ 0)
    (hstart : chain.StartsAt request fromHeight) (hfrom : fromHeight ≤ chain.best) :
    sent log <+: chain.requested request fromHeight ∧
      (.endCall ∈ log → sent log = chain.requested request fromHeight) := by
  have hwhole : Trace.Always HistoricalOk (wholeLog lib filter answer request) :=
    wholeLog_always hcount
  obtain ⟨rest, hrest⟩ := h.prefix_whole
  have hlog : Trace.Always HistoricalOk log := by
    rw [← hrest] at hwhole
    exact (Trace.always_append.mp hwhole).1
  rw [← due_wholeLog hc hcount hstart hfrom]
  refine ⟨(sent_prefix_due hlog).trans ?_, fun hended => ?_⟩
  · rw [← hrest]
    unfold due
    rw [List.filterMap_append, List.flatMap_append]
    exact List.prefix_append _ _
  · rw [sent_of_ended hlog hended, due_eq_of_ended hwhole h.prefix_whole hended]

end

variable {F : Type} [BloomFilter F]

/-- **The requested blocks are delivered.**  On a chain that does not change, in every run with any
other calls, a call that asks for historical data only is sent the transactions and the merkle block
of each matching block that it has asked for, in ascending order and nothing else: up to a failure
of Core a part of them from the first one on, and all of them when its stream ends. -/
theorem history_delivered (env : Environment F) (lib : DashcoreLib F) (j : ℕ) (as : List Action)
    (request : StreamRequest) (hcount : request.count ≠ 0)
    (hcall : ∀ request', .call j request' ∈ as → request' = request) (filter : F)
    (hnew : lib.newBloomFilter request.bloomFilter = .ok filter) (chain : FixedChain)
    (answer : (r : CoreRequest) → Except Failure r.Answer)
    (hc : chain.AnsweredBy lib (BloomFilter.toBuffer filter) answer)
    (hanswer : ∀ given, .answer j given ∈ as →
      ∀ r, given r = answer r ∨ ∃ e, given r = .error e)
    (fromHeight : ℕ) (hstart : chain.StartsAt request fromHeight)
    (hfrom : fromHeight ≤ chain.best) :
    sent (operationLog env lib j as) <+: chain.requested request fromHeight ∧
      (.endCall ∈ operationLog env lib j as →
        sent (operationLog env lib j as) = chain.requested request fromHeight) := by
  have hcourse : OnCourse filter answer (wholeLog lib filter answer request)
      (run env lib initial as) j (operationLog env lib j as) :=
    run_onCourse hcount hnew hcall hanswer
  exact hcourse.sent_requested hc hcount hstart hfrom

/-- The request for four blocks of the small chain from height 1 on. -/
def smallRequest : StreamRequest := ⟨⟨[], 0, 0, 0⟩, [2], 0, 4⟩

/-- Core is lost after the first of the two matching blocks. -/
def interruptedActions : List Action :=
  .call 0 smallRequest :: List.replicate 9 (.answer 0 smallAnswer) ++
    [.answer 0 fun _ => .error (.rejection (-28) "Loading block index"), .answer 0 smallAnswer]

/-- A failure after the first block leaves the beginning. -/
theorem history_delivered_interrupted :
    sent (operationLog paymentEnvironment smallLib 0 interruptedActions) <+:
        smallChain.requested smallRequest 1 ∧
      sent (operationLog paymentEnvironment smallLib 0 interruptedActions) =
        [.rawTransactions [], .rawMerkleBlock ⟨⟨[4]⟩, none⟩] := by
  have hcall : ∀ request', .call 0 request' ∈ interruptedActions → request' = smallRequest := by
    intro request' hmem
    simpa [interruptedActions] using hmem
  have hanswer : ∀ given, .answer 0 given ∈ interruptedActions →
      ∀ r, given r = smallAnswer r ∨ ∃ e, given r = .error e := by
    intro given hmem r
    have hgiven : given = smallAnswer ∨
        given = fun _ => .error (.rejection (-28) "Loading block index") := by
      simpa [interruptedActions, or_comm] using hmem
    obtain rfl | rfl := hgiven
    · exact Or.inl rfl
    · exact Or.inr ⟨_, rfl⟩
  refine ⟨?_, by decide⟩
  exact (history_delivered paymentEnvironment smallLib 0 interruptedActions smallRequest (by decide)
    hcall ⟨[], 0⟩ rfl smallChain smallAnswer smallChain_answeredBy hanswer 1
    (Or.inl ⟨by decide, rfl⟩) (by decide)).1

/-- **The stream ends.**  There is a number of answers after which such a call has got all that it
has asked for and its stream has ended, whatever else happens on the server. -/
theorem history_completed (lib : DashcoreLib F) (request : StreamRequest)
    (hcount : request.count ≠ 0) (filter : F)
    (hnew : lib.newBloomFilter request.bloomFilter = .ok filter) (chain : FixedChain)
    (answer : (r : CoreRequest) → Except Failure r.Answer)
    (hc : chain.AnsweredBy lib (BloomFilter.toBuffer filter) answer) (fromHeight : ℕ)
    (hstart : chain.StartsAt request fromHeight) (hfrom : fromHeight ≤ chain.best) :
    ∃ n, ∀ (env : Environment F) (j : ℕ) (before after : List Action),
      ((run env lib initial before).calls j).request = none →
      (∀ request', .call j request' ∈ before ++ .call j request :: after → request' = request) →
      (∀ given, .answer j given ∈ before ++ .call j request :: after →
        ∀ r, given r = answer r) →
      n ≤ after.countP (fun a => a.isAnswerTo j) →
        .endCall ∈ operationLog env lib j (before ++ .call j request :: after) ∧
          sent (operationLog env lib j (before ++ .call j request :: after)) =
            chain.requested request fromHeight := by
  obtain ⟨log, heval, -⟩ := wholeEvaluation_eq hc hcount hstart hfrom
  refine ⟨requestCount log, fun env j before after hfresh hcall hanswer hn => ?_⟩
  have hafter : ∀ given, .answer j given ∈ after → ∀ r, given r = answer r :=
    fun given hmem => hanswer given (List.mem_append_right _ (List.mem_cons_of_mem _ hmem))
  have hfinishing := run_finishing env hcount hnew hfresh hcall hafter (by rw [heval])
  rw [heval, Nat.sub_eq_zero_of_le hn] at hfinishing
  have hdone := hfinishing.atRest.eq_done hfinishing.result (Nat.le_zero.mp hfinishing.requests)
  have hrun : Historical (run env lib initial (before ++ .call j request :: after)) j
      (operationLog env lib j (before ++ .call j request :: after)) :=
    run_historical fun request' hmem => by rwa [hcall request' hmem]
  have hcourse : OnCourse filter answer (wholeLog lib filter answer request)
      (run env lib initial (before ++ .call j request :: after)) j
      (operationLog env lib j (before ++ .call j request :: after)) :=
    run_onCourse hcount hnew hcall fun given hmem r => Or.inl (hanswer given hmem r)
  obtain ⟨hnone, -⟩ | ⟨-, hobeys, -⟩ := hrun.handler
  · exact absurd hnone hfinishing.work.request
  · rw [hdone] at hobeys
    exact ⟨hobeys, (hcourse.sent_requested hc hcount hstart hfrom).2 hobeys⟩

/-- The two matching blocks of the small chain are sent. -/
theorem history_completed_smallChain :
    ∃ n, .endCall ∈ operationLog paymentEnvironment smallLib 0
        (.call 0 smallRequest :: List.replicate n (.answer 0 smallAnswer)) ∧
      sent (operationLog paymentEnvironment smallLib 0
          (.call 0 smallRequest :: List.replicate n (.answer 0 smallAnswer))) =
        [.rawTransactions [], .rawMerkleBlock ⟨⟨[4]⟩, none⟩, .rawTransactions [],
          .rawMerkleBlock ⟨⟨[5]⟩, none⟩] := by
  obtain ⟨n, hn⟩ := history_completed smallLib smallRequest (by decide) ⟨[], 0⟩ rfl smallChain
    smallAnswer smallChain_answeredBy 1 (Or.inl ⟨by decide, rfl⟩) (by decide)
  refine ⟨n, hn paymentEnvironment 0 [] (List.replicate n (.answer 0 smallAnswer)) rfl ?_ ?_ ?_⟩
  · intro request' hmem
    simpa using hmem
  · intro given hmem r
    have hgiven : n ≠ 0 ∧ given = smallAnswer := by simpa using hmem
    rw [hgiven.2]
  · simp [List.countP_replicate, Action.isAnswerTo]

end StreamSystem

end Dapi
