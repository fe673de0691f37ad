/-
# Calls for historical data only

A call of the stream handler with a `count`
(`src/lib/grpcServer/handlers/tx-filter-stream/`
`subscribeToTransactionsWithProofsHandlerFactory.js`) among the other calls of a server.

* `operationLog` is what the handler of a call does in a run.
* `HistoricalOk` are the rules of a handler that is asked for historical data only:
  `historical_obeys`.
* `historical_call_sends`: it sends a pair of responses for each block that the iterator yields, and
  ends the stream after them.
* `historical_call_apart`: nothing else touches such a call, and no other call notices it.
-/
import Dapi.Interference
import Dapi.Conversation

namespace Dapi

open Async Program

/-! ## Operations -/

/-- What a client gets of an item of the history. -/
def HistoricalItem.responses (item : HistoricalItem) : List Response :=
  [.rawTransactions item.transactions, .rawMerkleBlock item.merkleBlock]

namespace HandlerOp

/-- The item that an operation yields. -/
def yielded : HandlerOp → Option HistoricalItem
  | .yield item => some item
  | _ => none

/-- The response that an operation writes. -/
def written : HandlerOp → Option Response
  | .write response => some response
  | _ => none

end HandlerOp

/-- The responses for the items that were yielded. -/
def due (log : List HandlerOp) : List Response :=
  (log.filterMap HandlerOp.yielded).flatMap HistoricalItem.responses

/-- The responses that were written. -/
def sent (log : List HandlerOp) : List Response := log.filterMap HandlerOp.written

/-- **The rules of a handler that is asked for historical data only.**  The filter is made first, an
item is yielded when the ones before it are sent, what is written is due, and the stream ends when
all is sent. -/
def HistoricalOk (log : List HandlerOp) : HandlerOp → Prop
  | .newBloomFilter _ => log = []
  | .filterToBuffer | .emitHistoricalDataSent => .endCall ∉ log
  | .yield _ => .endCall ∉ log ∧ sent log = due log
  | .write response => .endCall ∉ log ∧ sent log ++ [response] <+: due log
  | .endCall => .endCall ∉ log ∧ sent log = due log
  | .onCancelled => .endCall ∈ log
  | _ => False

/-- All is sent, and the stream goes on. -/
def AllSent (log : List HandlerOp) : Prop := .endCall ∉ log ∧ sent log = due log

/-- The last operation may send. -/
@[simp] theorem sent_snoc (log : List HandlerOp) (op : HandlerOp) :
    sent (log ++ [op]) = sent log ++ op.written.toList := by
  unfold sent
  rw [List.filterMap_append]
  cases h : op.written <;> simp [h]

/-- The last operation may be due a response. -/
@[simp] theorem due_snoc (log : List HandlerOp) (op : HandlerOp) :
    due (log ++ [op]) = due log ++ op.yielded.toList.flatMap HistoricalItem.responses := by
  unfold due
  rw [List.filterMap_append, List.flatMap_append]
  cases h : op.yielded <;> simp [h]

/-- Only one operation ends the stream. -/
theorem endCall_not_mem_snoc {log : List HandlerOp} (hlog : .endCall ∉ log) {op : HandlerOp}
    (hop : op ≠ .endCall) : .endCall ∉ log ++ [op] := by
  intro hmem
  rcases List.mem_append.mp hmem with hmem | hmem
  · exact hlog hmem
  · exact hop (List.mem_singleton.mp hmem).symm

/-! ## The handler keeps to the rules -/

section SendsAll

variable {α β : Type}

/-- From one moment at which all is sent to another. -/
def SendsAll (x : HandlerProgram α) : Prop :=
  ∀ log, AllSent log → x.Obeys (Protocol.logging HistoricalOk) (fun _ log => AllSent log)
    (fun _ _ => True) log

theorem sendsAll_done (a : α) : SendsAll (.done a) := fun _ h => h

theorem sendsAll_throw (e : Failure) : SendsAll (.throw e : HandlerProgram α) := fun _ _ => trivial

/-- A part that sends all is followed by the rest. -/
theorem SendsAll.obeys_bind {x : HandlerProgram α} {f : α → HandlerProgram β}
    {post : β → List HandlerOp → Prop} {log : List HandlerOp} (hx : SendsAll x)
    (hlog : AllSent log)
    (hf : ∀ a log, AllSent log →
      (f a).Obeys (Protocol.logging HistoricalOk) post (fun _ _ => True) log) :
    (x.bind f).Obeys (Protocol.logging HistoricalOk) post (fun _ _ => True) log :=
  Program.obeys_bind ((hx log hlog).mono hf (fun _ _ _ => trivial))

/-- A sequence sends all when its parts do. -/
theorem sendsAll_bind {x : HandlerProgram α} {f : α → HandlerProgram β} (hx : SendsAll x)
    (hf : ∀ a, SendsAll (f a)) : SendsAll (x.bind f) :=
  fun _ h => hx.obeys_bind h fun a log h => hf a log h

/-- A request to Core sends nothing. -/
theorem sendsAll_issue (r : CoreRequest) : SendsAll (issue (S := handlerSignature) r) :=
  fun _ h => obeys_issue trivial (fun _ => h) (fun _ => trivial)

/-- A handler of exceptions that throws whatever it catches. -/
theorem sendsAll_issue_tryCatch {r : CoreRequest} {handler : Failure → HandlerProgram r.Answer}
    (hhandler : ∀ e, ∃ e', handler e = .throw e') :
    SendsAll ((issue (S := handlerSignature) r).tryCatch handler) := by
  intro log h
  refine obeys_tryCatch (obeys_issue trivial (fun _ => h) fun e => ?_)
  obtain ⟨e', heq⟩ := hhandler e
  rw [heq]
  exact trivial

/-- An operation that sends and yields nothing. -/
theorem sendsAll_perform {op : HandlerOp} (hok : ∀ log, AllSent log → HistoricalOk log op)
    (hend : op ≠ .endCall) (hwritten : op.written = none) (hyielded : op.yielded = none) :
    SendsAll (perform (S := handlerSignature) op) := by
  intro log h
  have hall : sent (log ++ [op]) = due (log ++ [op]) := by
    rw [sent_snoc, due_snoc, hwritten, hyielded, h.2]
    simp
  exact obeys_perform (hok log h) (fun _ => ⟨endCall_not_mem_snoc h.1 hend, hall⟩)
    (fun _ => trivial)

theorem sendsAll_ofLibrary (x : Except String α) : SendsAll (ofLibrary x) := by
  cases x with
  | ok a => exact sendsAll_done a
  | error message => exact sendsAll_throw _

variable {F : Type} (lib : DashcoreLib F)

/-- Parsing sends nothing. -/
theorem sendsAll_newTransactions (raws : List Buffer) : SendsAll (newTransactions lib raws) := by
  induction raws with
  | nil => exact sendsAll_done _
  | cons raw raws ih =>
      exact sendsAll_bind (sendsAll_ofLibrary _) fun _ => sendsAll_bind ih fun _ => sendsAll_done _

theorem sendsAll_getTransactions (transactionHashes : List Hash) :
    SendsAll (getTransactions lib transactionHashes) :=
  sendsAll_bind (sendsAll_issue _) (sendsAll_newTransactions lib)

/-- A response that is the next one due is written. -/
theorem writeResponse_obeys {response : Response} {rest : List Response}
    {post : Unit → List HandlerOp → Prop} {log : List HandlerOp} (hend : .endCall ∉ log)
    (hdue : sent log ++ response :: rest = due log)
    (hpost : ∀ log', .endCall ∉ log' → sent log' ++ rest = due log' → post () log') :
    (writeResponse response).Obeys (Protocol.logging HistoricalOk) post (fun _ _ => True) log := by
  have hok : HistoricalOk log (.write response) := by
    refine ⟨hend, rest, ?_⟩
    rw [← hdue, List.append_assoc]
    rfl
  have hrest : sent (log ++ [.write response]) ++ rest = due (log ++ [.write response]) := by
    rw [sent_snoc, due_snoc, ← hdue]
    simp [HandlerOp.written, HandlerOp.yielded]
  refine obeys_bind (obeys_perform hok (fun _ => ?_) (fun _ => trivial))
  exact obeys_issue trivial (fun _ => hpost _ (endCall_not_mem_snoc hend (by simp)) hrest)
    (fun _ => trivial)

/-- **An item is yielded and sent.** -/
theorem sendsAll_item (item : HistoricalItem) :
    SendsAll ((Handler.yield item).bind fun _ => sendHistoricalItem false item) := by
  intro log h
  refine obeys_bind (obeys_perform h (fun _ => ?_) (fun _ => trivial))
  have hend : .endCall ∉ log ++ [HandlerOp.yield item] := endCall_not_mem_snoc h.1 (by simp)
  have hdue : sent (log ++ [.yield item]) ++ item.responses = due (log ++ [.yield item]) := by
    rw [sent_snoc, due_snoc, h.2]
    simp [HandlerOp.written, HandlerOp.yielded]
  refine obeys_bind (obeys_runIf (fun _ => obeys_issue trivial (fun _ => ?_) (fun _ => trivial))
    fun _ => ?_)
  all_goals
    refine obeys_bind (writeResponse_obeys hend hdue fun log₁ hend₁ hdue₁ => ?_)
    refine obeys_bind (writeResponse_obeys hend₁ hdue₁ fun log₂ hend₂ hdue₂ => ?_)
    exact ⟨hend₂, by rwa [List.append_nil] at hdue₂⟩

/-- The merkle blocks of a batch are all sent. -/
theorem sendsAll_yieldMerkleBlocks (rawMerkleBlocks : List Buffer) (merkleBlockIndex : ℕ) :
    SendsAll
      (yieldMerkleBlocks lib (sendHistoricalItem false) rawMerkleBlocks merkleBlockIndex) := by
  induction rawMerkleBlocks generalizing merkleBlockIndex with
  | nil => exact sendsAll_done _
  | cons rawMerkleBlock rawMerkleBlocks ih =>
      refine sendsAll_bind (sendsAll_ofLibrary _) fun merkleBlock => ?_
      refine sendsAll_bind (sendsAll_getTransactions lib _) fun transactions => ?_
      have hitem := sendsAll_bind (sendsAll_item ⟨merkleBlock, transactions, merkleBlockIndex⟩)
        fun _ => ih (merkleBlockIndex + 1)
      rwa [bind_bind] at hitem

/-- The batches are all sent. -/
theorem sendsAll_scanBatches (fromHeight : ℕ) (count : ℤ)
    (numberOfBatches remaining batchIndex merkleBlockIndex : ℕ) :
    SendsAll (scanBatches lib (sendHistoricalItem false) fromHeight count numberOfBatches remaining
      batchIndex merkleBlockIndex) := by
  induction remaining generalizing batchIndex merkleBlockIndex with
  | zero => exact sendsAll_done _
  | succ remaining ih =>
      refine sendsAll_bind (sendsAll_issue _) fun blockHash => ?_
      refine sendsAll_bind (sendsAll_perform (fun _ h => h.1) (by simp) rfl rfl) fun filter => ?_
      refine sendsAll_bind (sendsAll_issue _) fun rawMerkleBlocks => ?_
      exact sendsAll_bind (sendsAll_yieldMerkleBlocks lib _ _) fun _ => ih _ _

/-- **What is yielded is sent**, when only the history is wanted. -/
theorem sendsAll_iterator (fromBlockHash : Hash) (count : ℤ) :
    SendsAll (getHistoricalTransactionsIterator lib fromBlockHash count
      (sendHistoricalItem false)) :=
  sendsAll_bind (sendsAll_issue _) fun _ => sendsAll_scanBatches lib _ _ _ _ _ _

/-- The start of the scan sends nothing. -/
theorem sendsAll_resolveFromBlockHash (request : StreamRequest) :
    SendsAll (resolveFromBlockHash request) := by
  rw [resolveFromBlockHash]
  split_ifs
  · exact sendsAll_throw _
  · refine sendsAll_issue_tryCatch fun e => ?_
    split
    · exact ⟨_, rfl⟩
    · exact ⟨_, rfl⟩
  · exact sendsAll_done _

theorem sendsAll_getFromBlock (fromBlockHash : Hash) : SendsAll (getFromBlock fromBlockHash) := by
  refine sendsAll_bind (sendsAll_issue_tryCatch fun e => ?_) fun fromBlock => ?_
  · split
    · exact ⟨_, rfl⟩
    · exact ⟨_, rfl⟩
  · split_ifs
    · exact sendsAll_throw _
    · exact sendsAll_done _

/-- **The handler keeps to the rules**, whatever it is answered, and returns after the end of the
stream. -/
theorem historical_obeys {request : StreamRequest} (hcount : request.count ≠ 0) :
    (subscribeToTransactionsWithProofsHandler lib request).Obeys (Protocol.logging HistoricalOk)
      (fun _ log => .endCall ∈ log) (fun _ _ => True) [] := by
  have hflag : decide (request.count = 0) = false := decide_eq_false hcount
  rw [subscribeToTransactionsWithProofsHandler, hflag]
  refine obeys_bind (obeys_tryCatch (obeys_perform rfl (fun _ => ?_)
    (fun _ => trivial)))
  have hstart : AllSent [.newBloomFilter request.bloomFilter] := ⟨by simp, rfl⟩
  refine obeys_bind (obeys_runIf (fun h => by cases h) fun _ => ?_)
  refine (sendsAll_resolveFromBlockHash request).obeys_bind hstart fun fromBlockHash log hlog => ?_
  refine (sendsAll_getFromBlock fromBlockHash).obeys_bind hlog fun fromBlock log hlog => ?_
  refine (sendsAll_issue _).obeys_bind hlog fun bestBlockHeight log hlog => ?_
  refine (sendsAll_iterator lib fromBlockHash _).obeys_bind hlog fun _ log hlog => ?_
  have hdataSent : SendsAll Handler.emitHistoricalDataSent :=
    sendsAll_perform (fun _ h => h.1) (by simp) rfl rfl
  refine hdataSent.obeys_bind hlog fun _ log hlog => ?_
  -- all is sent: the stream ends, and then the cancellation is listened for
  refine obeys_bind (obeys_perform hlog (fun _ => ?_) (fun _ => trivial))
  have hended : .endCall ∈ log ++ [HandlerOp.endCall] := by simp
  exact obeys_perform hended (fun _ => List.mem_append_left _ hended) (fun _ => trivial)

end SendsAll

/-! ## What the log of such a handler says -/

section

variable {log before after : List HandlerOp}

/-- After the end of the stream, the cancellation is listened for, and that is all. -/
theorem eq_onCancelled_of_ended {op : HandlerOp} (h : HistoricalOk log op)
    (hended : .endCall ∈ log) : op = .onCancelled := by
  cases op with
  | onCancelled => rfl
  | newBloomFilter bloomFilter =>
      obtain rfl : log = [] := h
      cases hended
  | filterToBuffer => exact absurd hended h
  | emitHistoricalDataSent => exact absurd hended h
  | yield item => exact absurd hended h.1
  | write response => exact absurd hended h.1
  | endCall => exact absurd hended h.1
  | _ => exact h.elim

/-- Nothing is sent before it is due. -/
theorem sent_prefix_due (h : Trace.Always HistoricalOk log) : sent log <+: due log := by
  induction log using List.reverseRecOn with
  | nil => exact List.prefix_rfl
  | append_singleton log op ih =>
      obtain ⟨hlog, hop⟩ := Trace.always_snoc.mp h
      have hprefix := ih hlog
      rw [sent_snoc, due_snoc]
      cases op with
      | yield item =>
          rw [hop.2]
          simp [HandlerOp.written]
      | write response => simpa [HandlerOp.written, HandlerOp.yielded] using hop.2
      | _ => simpa [HandlerOp.written, HandlerOp.yielded] using hprefix

/-- After its end the handler only listens for a cancellation. -/
theorem after_endCall (h : Trace.Always HistoricalOk (before ++ .endCall :: after)) :
    ∀ op ∈ after, op = .onCancelled := by
  intro op hmem
  obtain ⟨between, rest, rfl⟩ := List.append_of_mem hmem
  have hop := h (before ++ .endCall :: between) op rest (by simp)
  exact eq_onCancelled_of_ended hop (by simp)

/-- **All is sent when the stream ends.** -/
theorem sent_before_endCall (h : Trace.Always HistoricalOk (before ++ .endCall :: after)) :
    sent before = due (before ++ .endCall :: after) := by
  have hend := h before .endCall after rfl
  have hnone : after.filterMap HandlerOp.yielded = [] := by
    refine List.filterMap_eq_nil_iff.mpr fun op hmem => ?_
    rw [after_endCall h op hmem]
    rfl
  rw [hend.2]
  unfold due
  rw [List.filterMap_append, List.filterMap_cons_none rfl, hnone, List.append_nil]

/-- When the call is ended, everything due is sent. -/
theorem sent_of_ended (h : Trace.Always HistoricalOk log) (hended : .endCall ∈ log) :
    sent log = due log := by
  obtain ⟨before, after, rfl⟩ := List.append_of_mem hended
  have hbefore := sent_before_endCall h
  have hle : sent before <+: sent (before ++ .endCall :: after) := by
    unfold sent
    rw [List.filterMap_append]
    exact List.prefix_append _ _
  rw [hbefore] at hle
  exact (sent_prefix_due h).eq_of_length_le hle.length_le

end

/-! ## The call among the others -/

namespace StreamSystem

section

variable {F : Type} (env : Environment F) [BloomFilter F] (lib : DashcoreLib F)

/-- What the handler of call `j` does in an action. -/
def operationsOf (j : ℕ) (sys : StreamSystem F) : Action → List HandlerOp
  | .call i request =>
    if i = j ∧ (sys.calls i).request = none then
      (subscribeToTransactionsWithProofsHandler lib request).operations (exec env lib i)
        { sys.setCall i (.accepted request) with accepted := sys.accepted ++ [i] }
    else []
  | .answer i answer =>
    if i = j then ((sys.handlers i).resume answer).operations (exec env lib i) sys else []
  | _ => []

/-- What the handler of call `j` does in a run. -/
def operationLog (j : ℕ) (as : List Action) : List HandlerOp :=
  Machine.outputs (step env lib) (operationsOf env lib j) initial as

end

variable {F : Type}

/-- **A call for historical data only**, with what its handler has done: it has no subscription, and
it has not come in, or is at work by the rules. -/
structure Historical (sys : StreamSystem F) (j : ℕ) (log : List HandlerOp) : Prop where
  subscription : (sys.calls j).subscription = none
  handler : ((sys.calls j).request = none ∧ sys.handlers j = .done () ∧ log = []) ∨
    ((sys.calls j).request ≠ none ∧ (sys.handlers j).Obeys (Protocol.logging HistoricalOk)
      (fun _ log => .endCall ∈ log) (fun _ _ => True) log ∧ Trace.Always HistoricalOk log)

/-- Whatever it is answered, the handler goes on by the rules. -/
theorem Historical.resume_obeys {sys : StreamSystem F} {j : ℕ} {log : List HandlerOp}
    (h : Historical sys j log) (answer : (r : CoreRequest) → Except Failure r.Answer) :
    ∃ post log', ((sys.handlers j).resume answer).Obeys (Protocol.logging HistoricalOk) post
      (fun _ _ => True) log' := by
  obtain ⟨-, hdone, -⟩ | ⟨-, hobeys, -⟩ := h.handler
  · rw [hdone]
    exact ⟨fun _ _ => True, [], trivial⟩
  · exact ⟨_, log, hobeys.resume_logging answer⟩

/-- No call has been made. -/
theorem historical_initial (j : ℕ) : Historical (initial : StreamSystem F) j [] :=
  ⟨rfl, Or.inl ⟨rfl, rfl, rfl⟩⟩

variable {env : Environment F} {sys sys' : StreamSystem F} {i j : ℕ} {log : List HandlerOp}

/-- A call for the history tests no mempool transactions. -/
theorem ne_testCollection {op : HandlerOp} (hop : HistoricalOk log op) (tx : Transaction) :
    op ≠ .testCollection tx := by
  rintro rfl
  exact hop

/-- A cancelled call without a subscription is only ended. -/
theorem cancel_of_none {call : Call F} (h : call.subscription = none) :
    call.cancel env = { call with isEnded := true } := by
  have hended : ({ call with isEnded := true } : Call F).subscription = none := h
  exact congrArg Prod.snd (Call.act_of_none hended .clientDisconnected)

variable [BloomFilter F] {lib : DashcoreLib F}

/-- An operation of such a call makes no subscription. -/
theorem exec_subscription {call : Call F} (h : call.subscription = none) {op : HandlerOp}
    (hop : HistoricalOk log op) : (call.exec env lib op).2.subscription = none := by
  cases op with
  | newBloomFilter bloomFilter =>
      rw [Call.exec]
      cases lib.newBloomFilter bloomFilter <;> exact h
  | write response => rwa [Call.exec, Call.act_of_none h]
  | emitHistoricalDataSent => rwa [Call.exec, Call.act_of_none h]
  | subscribeToNewTransactions => exact hop.elim
  | emitHistoricalBlockSent blockHash => exact hop.elim
  | emitMemPoolDataSent => exact hop.elim
  | _ => exact h

/-- The handler of the call runs. -/
theorem historical_runHandler {handler : HandlerProgram Unit}
    (hsubscription : (sys.calls j).subscription = none) (hrequest : (sys.calls j).request ≠ none)
    (hobeys : handler.Obeys (Protocol.logging HistoricalOk) (fun _ log => .endCall ∈ log)
      (fun _ _ => True) log) (hlog : Trace.Always HistoricalOk log) :
    Historical (sys.runHandler env lib j handler) j
      (log ++ handler.operations (exec env lib j) sys) := by
  obtain ⟨hobeys', hlog'⟩ := hobeys.advance_logging hlog (exec env lib j) sys
  have hexec : ∀ log op (sys : StreamSystem F), HistoricalOk log op →
      ((sys.calls j).subscription = none ∧ (sys.calls j).request ≠ none) →
        ((sys.exec env lib j op).2.calls j).subscription = none ∧
          ((sys.exec env lib j op).2.calls j).request ≠ none := by
    intro log op sys hop hR
    rw [exec_of_ne (ne_testCollection hop)]
    show ((sys.setCall j _).calls j).subscription = none ∧
      ((sys.setCall j _).calls j).request ≠ none
    rw [setCall_self, Call.exec_request]
    exact ⟨exec_subscription hR.1 hop, hR.2⟩
  obtain ⟨-, -, hsubscription', hrequest'⟩ := advance_obeys
    (R := fun _ (sys : StreamSystem F) =>
      (sys.calls j).subscription = none ∧ (sys.calls j).request ≠ none)
    hexec hobeys ⟨hsubscription, hrequest⟩
  refine ⟨hsubscription', Or.inr ⟨hrequest', ?_, hlog'⟩⟩
  rw [runHandler_handlers_self]
  exact hobeys'

/-- A step of another call does nothing for this one. -/
theorem operationsOf_of_not_isOf {a : Action} (hof : ¬ a.isOf j = true) :
    sys.operationsOf env lib j a = [] := by
  cases a with
  | call i request => exact if_neg fun hcall => hof (decide_eq_true hcall.1)
  | answer i answer => exact if_neg fun hij => hof (decide_eq_true hij)
  | _ => rfl

/-- What other calls and Core do, a call without a subscription does not notice. -/
theorem step_other (h : (sys.calls j).subscription = none) {a : Action} (hof : ¬ a.isOf j = true) :
    (sys.step env lib a).calls j = sys.calls j ∧
      (sys.step env lib a).handlers j = sys.handlers j := by
  have hact : ∀ (b : Subscription.Action) (call : Call F), call = sys.calls j →
      (call.act env b).2 = sys.calls j := by
    rintro b call rfl
    rw [Call.act_of_none h]
  cases a with
  | call i request =>
      have hij : j ≠ i := fun hij => hof (decide_eq_true hij.symm)
      rw [step]
      split_ifs
      · refine ⟨?_, runHandler_handlers_of_ne hij _⟩
        refine runHandler_invariant (I := fun call => call = sys.calls j) (fun tx => hact _) hij _
          ?_
        exact setCall_of_ne hij _
      · exact ⟨rfl, rfl⟩
  | answer i answer =>
      have hij : j ≠ i := fun hij => hof (decide_eq_true hij.symm)
      exact ⟨runHandler_invariant (I := fun call => call = sys.calls j) (fun tx => hact _) hij _
          rfl,
        runHandler_handlers_of_ne hij _⟩
  | rawTransaction tx =>
      exact ⟨forEachEmitter_invariant (I := fun call => call = sys.calls j) (hact _) rfl,
        congrFun (forEachEmitter_handlers _) j⟩
  | block block =>
      exact ⟨forEachEmitter_invariant (I := fun call => call = sys.calls j) (hact _) rfl,
        congrFun (forEachEmitter_handlers _) j⟩
  | instantLock tx lock =>
      exact ⟨forEachEmitter_invariant (I := fun call => call = sys.calls j) (hact _) rfl,
        congrFun (forEachEmitter_handlers _) j⟩
  | wakeUp i =>
      have hij : j ≠ i := fun hij => hof (decide_eq_true hij.symm)
      exact ⟨setCall_of_ne hij _, rfl⟩
  | cancelled i =>
      have hij : j ≠ i := fun hij => hof (decide_eq_true hij.symm)
      rw [step]
      split_ifs
      · exact ⟨setCall_of_ne hij _, rfl⟩
      · exact ⟨rfl, rfl⟩

/-- An answer of Core to the handler of a call. -/
def Action.isAnswerTo (j : ℕ) : Action → Bool
  | .answer i _ => decide (i = j)
  | _ => false

variable (env lib) in
/-- What is neither the first call nor an answer, is nothing to the handler. -/
theorem step_unanswered (hsubscription : (sys.calls j).subscription = none) {a : Action}
    (hanswer : ¬ a.isAnswerTo j = true)
    (hcall : ∀ request, a = .call j request → (sys.calls j).request ≠ none) :
    sys.operationsOf env lib j a = [] ∧ (sys.step env lib a).handlers j = sys.handlers j ∧
      ((sys.step env lib a).calls j).subscription = (sys.calls j).subscription ∧
      ((sys.step env lib a).calls j).request = (sys.calls j).request ∧
      ((sys.step env lib a).calls j).filter = (sys.calls j).filter := by
  by_cases hof : a.isOf j = true
  · cases a with
    | call i request =>
        obtain rfl : i = j := of_decide_eq_true hof
        have hi := hcall request rfl
        rw [step_call_of_accepted hi, operationsOf, if_neg fun hcall => hi hcall.2]
        exact ⟨rfl, rfl, rfl, rfl, rfl⟩
    | answer i given => exact absurd hof hanswer
    | wakeUp i =>
        obtain rfl : i = j := of_decide_eq_true hof
        have hsame : (sys.step env lib (.wakeUp i)).calls i = sys.calls i := by
          show (sys.setCall i _).calls i = _
          rw [setCall_self, Call.act_of_none hsubscription]
        rw [hsame]
        exact ⟨rfl, rfl, rfl, rfl, rfl⟩
    | cancelled i =>
        obtain rfl : i = j := of_decide_eq_true hof
        rw [StreamSystem.step]
        split_ifs
        · have hended : (sys.setCall i ((sys.calls i).cancel env)).calls i =
              { sys.calls i with isEnded := true } := by
            rw [setCall_self, cancel_of_none hsubscription]
          rw [hended]
          exact ⟨rfl, rfl, rfl, rfl, rfl⟩
        · exact ⟨rfl, rfl, rfl, rfl, rfl⟩
    | _ => cases hof
  · obtain ⟨hcalls, hhandlers⟩ : (sys.step env lib a).calls j = sys.calls j ∧
        (sys.step env lib a).handlers j = sys.handlers j := step_other hsubscription hof
    rw [hcalls]
    exact ⟨operationsOf_of_not_isOf hof, hhandlers, rfl, rfl, rfl⟩

/-- An answer to a call. -/
theorem exists_answer {a : Action} (h : a.isAnswerTo j = true) :
    ∃ given, a = .answer j given := by
  cases a with
  | answer i given =>
      obtain rfl : i = j := of_decide_eq_true h
      exact ⟨given, rfl⟩
  | _ => cases h

omit [BloomFilter F] in
theorem Historical.congr (h : Historical sys j log)
    (hsubscription : (sys'.calls j).subscription = (sys.calls j).subscription)
    (hrequest : (sys'.calls j).request = (sys.calls j).request)
    (hhandler : sys'.handlers j = sys.handlers j) : Historical sys' j log := by
  refine ⟨hsubscription.trans h.subscription, ?_⟩
  rw [hrequest, hhandler]
  exact h.handler

/-- The call comes in. -/
theorem historical_call {request : StreamRequest} (hnone : (sys.calls j).request = none)
    (hcount : request.count ≠ 0) :
    Historical (sys.step env lib (.call j request)) j
      (sys.operationsOf env lib j (.call j request)) := by
  have haccepted : (sys.setCall j (.accepted request)).calls j = .accepted request :=
    setCall_self _
  rw [StreamSystem.step, if_pos hnone, operationsOf, if_pos ⟨rfl, hnone⟩]
  refine historical_runHandler ?_ ?_ (historical_obeys lib hcount) (Trace.always_nil _)
  · show ((sys.setCall j (.accepted request)).calls j).subscription = none
    rw [haccepted]
    rfl
  · show ((sys.setCall j (.accepted request)).calls j).request ≠ none
    rw [haccepted]
    exact Option.some_ne_none request

/-- An answer keeps the call historical. -/
theorem Historical.answered (h : Historical sys j log)
    (given : (r : CoreRequest) → Except Failure r.Answer) :
    Historical (sys.step env lib (.answer j given)) j
      (log ++ sys.operationsOf env lib j (.answer j given)) := by
  rw [StreamSystem.step, operationsOf, if_pos rfl]
  obtain ⟨hnone, hdone, rfl⟩ | ⟨hne, hobeys, hlog⟩ := h.handler
  · rw [hdone]
    refine ⟨h.subscription, Or.inl ⟨hnone, ?_, rfl⟩⟩
    exact runHandler_handlers_self _
  · exact historical_runHandler h.subscription hne (hobeys.resume_logging given) hlog

/-- **Step lemma.** -/
theorem Historical.step (h : Historical sys j log) (a : Action)
    (hcount : ∀ request, a = .call j request → request.count ≠ 0) :
    Historical (sys.step env lib a) j (log ++ sys.operationsOf env lib j a) := by
  by_cases ha : a.isAnswerTo j = true
  · obtain ⟨given, rfl⟩ := exists_answer ha
    exact h.answered given
  · by_cases hfirst : ∃ request, a = .call j request ∧ (sys.calls j).request = none
    · obtain ⟨request, rfl, hnone⟩ := hfirst
      obtain ⟨-, -, rfl⟩ | ⟨hne, -⟩ := h.handler
      · exact historical_call hnone (hcount request rfl)
      · exact absurd hnone hne
    · obtain ⟨hnone, hhandler, hsubscription, hrequest, -⟩ :=
        step_unanswered env lib h.subscription ha fun request heq hnone =>
          hfirst ⟨request, heq, hnone⟩
      rw [hnone, List.append_nil]
      exact h.congr hsubscription hrequest hhandler

/-- **A call for the history stays one**, in every run. -/
theorem run_historical {as : List Action}
    (hcount : ∀ request, .call j request ∈ as → request.count ≠ 0) :
    Historical (run env lib initial as) j (operationLog env lib j as) := by
  induction as using List.reverseRecOn with
  | nil => exact historical_initial j
  | append_singleton as a ih =>
      have has := ih fun request hmem => hcount request (List.mem_append_left _ hmem)
      unfold operationLog
      rw [Machine.outputs_snoc, run, Machine.run_append]
      exact has.step a fun request heq => hcount request (by simp [heq])

/-- **Historical data is sent in pairs, and all of it.**  In every run, a call that asks for
historical data only is sent, for the items that its iterator yields and in their order, the
transactions and the merkle block of each, and nothing else; when its stream is ended all of that is
sent, and nothing is done after that but to listen for the cancellation; and when its handler
returns the stream has been ended. -/
theorem historical_call_sends (env : Environment F) (lib : DashcoreLib F) (j : ℕ)
    (as : List Action) (hcount : ∀ request, .call j request ∈ as → request.count ≠ 0) :
    sent (operationLog env lib j as) <+: due (operationLog env lib j as) ∧
      (∀ before after, operationLog env lib j as = before ++ .endCall :: after →
        sent before = due (operationLog env lib j as) ∧ ∀ op ∈ after, op = .onCancelled) ∧
        (((run env lib initial as).calls j).request ≠ none →
          (run env lib initial as).handlers j = .done () →
            .endCall ∈ operationLog env lib j as) := by
  have hrun : Historical (run env lib initial as) j (operationLog env lib j as) :=
    run_historical hcount
  obtain ⟨-, ⟨hnone, -, hnil⟩ | ⟨-, hobeys, hlog⟩⟩ := hrun
  · rw [hnil]
    refine ⟨List.prefix_rfl, fun before after h => ?_, fun hne => absurd hnone hne⟩
    simp at h
  · refine ⟨sent_prefix_due hlog, fun before after h => ?_, fun _ hdone => ?_⟩
    · rw [h] at hlog ⊢
      exact ⟨sent_before_endCall hlog, after_endCall hlog⟩
    · rw [hdone] at hobeys
      exact hobeys

/-- A call for the payments to `[1]` in block `[5]`, with all answers of Core. -/
def historyActions (j : ℕ) : List Action :=
  .call j { paymentRequest with count := 1 } :: List.replicate 8 (.answer j paymentAnswer)

theorem count_of_mem_historyActions {j : ℕ} {request : StreamRequest}
    (h : .call j request ∈ historyActions j) : request.count ≠ 0 := by
  obtain heq | hanswer := List.mem_cons.mp h
  · injection heq with _ hrequest
    rw [hrequest]
    exact one_ne_zero
  · cases List.eq_of_mem_replicate hanswer

/-- The block with the payment is sent, and the call is ended. -/
theorem historical_call_sends_payment :
    .endCall ∈ operationLog paymentEnvironment paymentLib 0 (historyActions 0) ∧
      sent (operationLog paymentEnvironment paymentLib 0 (historyActions 0)) =
        [.rawTransactions [payment [9] [[1]]], .rawMerkleBlock ⟨⟨[5]⟩, some [[9]]⟩] := by
  have hrequest : ((paymentRun (historyActions 0)).calls 0).request ≠ none := by decide
  have hdone : (paymentRun (historyActions 0)).handlers 0 = .done () := by rfl
  have hcall := historical_call_sends paymentEnvironment paymentLib 0 (historyActions 0)
    fun request hmem => count_of_mem_historyActions hmem
  exact ⟨hcall.2.2 hrequest hdone, by decide⟩

/-! ## Alone -/

omit [BloomFilter F] in
variable (j) in
/-- The states agree on call `j`. -/
structure Same (sys sys' : StreamSystem F) : Prop where
  calls : sys'.calls j = sys.calls j
  handlers : sys'.handlers j = sys.handlers j

/-- The way of the handler to its next `await` is a matter of its call. -/
theorem advance_same {handler : HandlerProgram Unit} {post : Unit → List HandlerOp → Prop}
    {exc : Failure → List HandlerOp → Prop}
    (h : handler.Obeys (Protocol.logging HistoricalOk) post exc log)
    (hcalls : sys'.calls j = sys.calls j) :
    (handler.advance (exec env lib j) sys').1 = (handler.advance (exec env lib j) sys).1 ∧
      (handler.advance (exec env lib j) sys').2.calls j =
        (handler.advance (exec env lib j) sys).2.calls j := by
  induction handler generalizing log sys sys' with
  | sync op k ih =>
      unfold Program.advance
      rw [exec_of_ne (ne_testCollection h.1), exec_of_ne (ne_testCollection h.1), hcalls]
      refine ih _ (h.2 _) ?_
      rw [setCall_self, setCall_self]
  | done _ => exact ⟨rfl, hcalls⟩
  | throw _ => exact ⟨rfl, hcalls⟩
  | await _ _ => exact ⟨rfl, hcalls⟩

/-- The handler does the same in both systems. -/
theorem Same.runHandler {handler : HandlerProgram Unit} {post : Unit → List HandlerOp → Prop}
    {exc : Failure → List HandlerOp → Prop}
    (h : handler.Obeys (Protocol.logging HistoricalOk) post exc log)
    (hcalls : sys'.calls j = sys.calls j) :
    Same j (sys.runHandler env lib j handler) (sys'.runHandler env lib j handler) := by
  obtain ⟨hhandler, hcall⟩ : (handler.advance (exec env lib j) sys').1 =
      (handler.advance (exec env lib j) sys).1 ∧ _ := advance_same h hcalls
  refine ⟨hcall, ?_⟩
  rw [runHandler_handlers_self, runHandler_handlers_self, hhandler]

/-- A step of the call itself is a matter of the call. -/
theorem Same.step_own (hsame : Same j sys sys') (h : Historical sys j log) {a : Action}
    (hof : a.isOf j = true) (hcount : ∀ request, a = .call j request → request.count ≠ 0) :
    Same j (sys.step env lib a) (sys'.step env lib a) := by
  cases a with
  | call i request =>
      obtain rfl : i = j := of_decide_eq_true hof
      rw [step, step, hsame.calls]
      split_ifs
      · refine Same.runHandler (historical_obeys lib (hcount request rfl)) ?_
        show (sys'.setCall i _).calls i = (sys.setCall i _).calls i
        rw [setCall_self, setCall_self]
      · exact hsame
  | answer i answer =>
      obtain rfl : i = j := of_decide_eq_true hof
      rw [step, step, hsame.handlers]
      obtain ⟨post, log', hobeys⟩ := h.resume_obeys answer
      exact Same.runHandler hobeys hsame.calls
  | wakeUp i =>
      obtain rfl : i = j := of_decide_eq_true hof
      refine ⟨?_, hsame.handlers⟩
      show (sys'.setCall i _).calls i = (sys.setCall i _).calls i
      rw [setCall_self, setCall_self, hsame.calls]
  | cancelled i =>
      obtain rfl : i = j := of_decide_eq_true hof
      rw [step, step, hsame.calls]
      split_ifs
      · refine ⟨?_, hsame.handlers⟩
        rw [setCall_self, setCall_self]
      · exact hsame
  | _ => cases hof

/-- The call is the same in the run of its own steps only. -/
theorem run_same {as : List Action}
    (hcount : ∀ request, .call j request ∈ as → request.count ≠ 0) :
    Same j (run env lib initial as)
      (run env lib initial (as.filter fun a => a.isOf j)) := by
  induction as using List.reverseRecOn with
  | nil => exact ⟨rfl, rfl⟩
  | append_singleton as a ih =>
      have hbefore : ∀ request, .call j request ∈ as → request.count ≠ 0 :=
        fun request hmem => hcount request (List.mem_append_left _ hmem)
      have hrun : Historical (run env lib initial as) j (operationLog env lib j as) :=
        run_historical hbefore
      rw [List.filter_append, run, Machine.run_append, Machine.run_append]
      by_cases hof : a.isOf j = true
      · rw [List.filter_cons_of_pos hof]
        exact (ih hbefore).step_own hrun hof fun request heq => hcount request (by simp [heq])
      · rw [List.filter_cons_of_neg hof]
        obtain ⟨hcalls, hhandlers⟩ : ((run env lib initial as).step env lib a).calls j = _ ∧
            ((run env lib initial as).step env lib a).handlers j = _ :=
          step_other hrun.subscription hof
        exact ⟨(ih hbefore).calls.trans hcalls.symm, (ih hbefore).handlers.trans hhandlers.symm⟩

/-! ## Unseen -/

omit [BloomFilter F] in
variable (j) in
/-- The states agree on the other calls, and call `j` has no subscription. -/
structure Unseen (sys sys' : StreamSystem F) : Prop where
  apart : Apart j sys sys'
  subscription : (sys.calls j).subscription = none

omit [BloomFilter F] in
theorem Unseen.not_mem (h : Unseen j sys sys') : j ∉ sys.bloomFilterEmitterCollection := by
  intro hmem
  have hregistered := (List.mem_filter.mp hmem).2
  rw [Call.isRegistered, h.subscription] at hregistered
  cases hregistered

omit [BloomFilter F] in
/-- A step of another subscription is the same with and without the call. -/
theorem Unseen.actOn (h : Unseen j sys sys') (hij : i ≠ j) (a : Subscription.Action) :
    (sys'.actOn env a i).1 = (sys.actOn env a i).1 ∧
      Unseen j (sys.actOn env a i).2 (sys'.actOn env a i).2 := by
  obtain ⟨hresult, hapart⟩ : (sys'.actOn env a i).1 = (sys.actOn env a i).1 ∧ _ :=
    h.apart.actOn hij a
  refine ⟨hresult, hapart, ?_⟩
  show ((sys.setCall i _).calls j).subscription = none
  rw [setCall_of_ne hij.symm]
  exact h.subscription

omit [BloomFilter F] in
/-- **A notification** reaches the other calls in both states alike, whatever it raises. -/
theorem Unseen.forEachEmitter (h : Unseen j sys sys') (a : Subscription.Action) :
    (sys'.forEachEmitter env a).1 = (sys.forEachEmitter env a).1 ∧
      Unseen j (sys.forEachEmitter env a).2 (sys'.forEachEmitter env a).2 := by
  have hsame : sys'.bloomFilterEmitterCollection = sys.bloomFilterEmitterCollection := by
    rw [h.apart.collection]
    refine List.filter_eq_self.mpr fun k hk => decide_eq_true ?_
    rintro rfl
    exact h.not_mem hk
  have hround : ∀ k ∈ sys.bloomFilterEmitterCollection, ∀ sys₁ sys₁' : StreamSystem F,
      Unseen j sys₁ sys₁' → (sys₁'.actOn env a k).1 = (sys₁.actOn env a k).1 ∧
        Unseen j (sys₁.actOn env a k).2 (sys₁'.actOn env a k).2 := by
    intro k hk sys₁ sys₁' h₁
    refine h₁.actOn ?_ a
    rintro rfl
    exact h.not_mem hk
  unfold StreamSystem.forEachEmitter
  rw [hsame]
  exact forEach_related hround h

/-- An operation of the handler of another call. -/
theorem Unseen.exec (h : Unseen j sys sys') (hij : i ≠ j) (op : HandlerOp) :
    (sys'.exec env lib i op).1 = (sys.exec env lib i op).1 ∧
      Unseen j (sys.exec env lib i op).2 (sys'.exec env lib i op).2 := by
  by_cases hop : ∀ tx, op ≠ .testCollection tx
  · rw [exec_of_ne hop, exec_of_ne hop, h.apart.calls i hij]
    refine ⟨rfl, h.apart.setCall i _, ?_⟩
    rw [setCall_of_ne hij.symm]
    exact h.subscription
  · push Not at hop
    obtain ⟨tx, rfl⟩ := hop
    obtain ⟨hresult, hunseen⟩ : (sys'.forEachEmitter env (.test tx)).1 =
        (sys.forEachEmitter env (.test tx)).1 ∧ _ := h.forEachEmitter (.test tx)
    rw [exec_testCollection_snd, exec_testCollection_snd]
    refine ⟨?_, hunseen⟩
    rw [StreamSystem.exec, StreamSystem.exec]
    revert hresult
    rcases sys.forEachEmitter env (.test tx) with ⟨_ | _, _⟩ <;>
      rcases sys'.forEachEmitter env (.test tx) with ⟨_ | _, _⟩ <;> intro hresult <;>
        cases hresult <;> rfl

/-- The way of another handler to its next `await`. -/
theorem Unseen.advance (h : Unseen j sys sys') (hij : i ≠ j) (handler : HandlerProgram Unit) :
    (handler.advance (StreamSystem.exec env lib i) sys').1 =
        (handler.advance (StreamSystem.exec env lib i) sys).1 ∧
      Unseen j (handler.advance (StreamSystem.exec env lib i) sys).2
        (handler.advance (StreamSystem.exec env lib i) sys').2 := by
  induction handler generalizing sys sys' with
  | sync op k ih =>
      obtain ⟨hanswer, h₁⟩ : (sys'.exec env lib i op).1 = (sys.exec env lib i op).1 ∧
          Unseen j (sys.exec env lib i op).2 (sys'.exec env lib i op).2 := h.exec hij op
      unfold Program.advance
      rw [hanswer]
      exact ih _ h₁
  | done _ => exact ⟨rfl, h⟩
  | throw _ => exact ⟨rfl, h⟩
  | await _ _ => exact ⟨rfl, h⟩

theorem Unseen.runHandler (h : Unseen j sys sys') (hij : i ≠ j) (handler : HandlerProgram Unit) :
    Unseen j (sys.runHandler env lib i handler) (sys'.runHandler env lib i handler) := by
  obtain ⟨hhandler, h₁⟩ : (handler.advance (StreamSystem.exec env lib i) sys').1 =
      (handler.advance (StreamSystem.exec env lib i) sys).1 ∧ _ := h.advance hij handler
  refine ⟨⟨h₁.apart.accepted, h₁.apart.calls, fun k hk => ?_⟩, h₁.subscription⟩
  by_cases hki : k = i
  · rw [hki, runHandler_handlers_self, runHandler_handlers_self, hhandler]
  · rw [runHandler_handlers_of_ne hki, runHandler_handlers_of_ne hki]
    exact h.apart.handlers k hk

/-- A step that is not one of call `j`. -/
theorem Unseen.step_both (h : Unseen j sys sys') {a : Action} (hof : ¬ a.isOf j = true) :
    Unseen j (sys.step env lib a) (sys'.step env lib a) := by
  cases a with
  | call i request =>
      have hij : i ≠ j := fun hij => hof (decide_eq_true hij)
      rw [StreamSystem.step, StreamSystem.step, h.apart.calls i hij]
      split_ifs
      · apply Unseen.runHandler _ hij
        refine ⟨⟨?_, (h.apart.setCall i _).calls, h.apart.handlers⟩, ?_⟩
        · show sys'.accepted ++ [i] = (sys.accepted ++ [i]).filter _
          rw [List.filter_append, h.apart.accepted]
          simp [hij]
        · show ((sys.setCall i _).calls j).subscription = none
          rw [setCall_of_ne hij.symm]
          exact h.subscription
      · exact h
  | answer i answer =>
      have hij : i ≠ j := fun hij => hof (decide_eq_true hij)
      show Unseen j (sys.runHandler env lib i _) (sys'.runHandler env lib i _)
      rw [h.apart.handlers i hij]
      exact h.runHandler hij _
  | rawTransaction tx => exact (h.forEachEmitter (.test tx)).2
  | block block => exact (h.forEachEmitter (.block block)).2
  | instantLock tx lock => exact (h.forEachEmitter (.instantLock tx lock)).2
  | wakeUp i =>
      have hij : i ≠ j := fun hij => hof (decide_eq_true hij)
      exact (h.actOn hij .wakeUp).2
  | cancelled i =>
      have hij : i ≠ j := fun hij => hof (decide_eq_true hij)
      rw [StreamSystem.step, StreamSystem.step, h.apart.calls i hij]
      split_ifs
      · refine ⟨h.apart.setCall i _, ?_⟩
        rw [setCall_of_ne hij.symm]
        exact h.subscription
      · exact h

/-- The handler of the call itself. -/
theorem apart_runHandler {handler : HandlerProgram Unit} {post : Unit → List HandlerOp → Prop}
    {exc : Failure → List HandlerOp → Prop}
    (hobeys : handler.Obeys (Protocol.logging HistoricalOk) post exc log)
    (h : Apart j sys sys') : Apart j (sys.runHandler env lib j handler) sys' := by
  have hexec : ∀ log op (sys : StreamSystem F), HistoricalOk log op → Apart j sys sys' →
      Apart j (sys.exec env lib j op).2 sys' := by
    intro log op sys hop h
    rw [exec_of_ne (ne_testCollection hop)]
    exact h.setCall_left _
  obtain ⟨-, -, hapart⟩ := advance_obeys (R := fun _ sys => Apart j sys sys') hexec hobeys h
  refine ⟨hapart.accepted, hapart.calls, fun k hk => ?_⟩
  rw [hapart.handlers k hk]
  exact (Function.update_of_ne hk _ _).symm

/-- A step of the call itself, the others do not see. -/
theorem Unseen.step_own (h : Unseen j sys sys') (hhistorical : Historical sys j log) {a : Action}
    (hof : a.isOf j = true) (hcount : ∀ request, a = .call j request → request.count ≠ 0) :
    Unseen j (sys.step env lib a) sys' := by
  refine ⟨?_, (hhistorical.step a hcount).subscription⟩
  cases a with
  | call i request =>
      obtain rfl : i = j := of_decide_eq_true hof
      rw [StreamSystem.step]
      split_ifs
      · refine apart_runHandler (historical_obeys lib (hcount request rfl)) ?_
        refine ⟨?_, (h.apart.setCall_left _).calls, h.apart.handlers⟩
        show sys'.accepted = (sys.accepted ++ [i]).filter _
        rw [List.filter_append, h.apart.accepted]
        simp
      · exact h.apart
  | answer i answer =>
      obtain rfl : i = j := of_decide_eq_true hof
      rw [StreamSystem.step]
      obtain ⟨post, log', hobeys⟩ := hhistorical.resume_obeys answer
      exact apart_runHandler hobeys h.apart
  | wakeUp i =>
      obtain rfl : i = j := of_decide_eq_true hof
      exact h.apart.setCall_left _
  | cancelled i =>
      obtain rfl : i = j := of_decide_eq_true hof
      rw [StreamSystem.step]
      split_ifs
      · exact h.apart.setCall_left _
      · exact h.apart
  | _ => cases hof

/-- The other calls are the same in the run without this one. -/
theorem run_unseen {as : List Action}
    (hcount : ∀ request, .call j request ∈ as → request.count ≠ 0) :
    Unseen j (run env lib initial as)
      (run env lib initial (as.filter fun a => !a.isOf j)) := by
  induction as using List.reverseRecOn with
  | nil => exact ⟨apart_initial, rfl⟩
  | append_singleton as a ih =>
      have hbefore : ∀ request, .call j request ∈ as → request.count ≠ 0 :=
        fun request hmem => hcount request (List.mem_append_left _ hmem)
      have hrun : Historical (run env lib initial as) j (operationLog env lib j as) :=
        run_historical hbefore
      rw [List.filter_append, run, Machine.run_append, Machine.run_append]
      by_cases hof : a.isOf j = true
      · rw [List.filter_cons_of_neg (by simp [hof])]
        exact (ih hbefore).step_own hrun hof fun request heq => hcount request (by simp [heq])
      · rw [List.filter_cons_of_pos (by simp [hof])]
        exact (ih hbefore).step_both hof

/-- **A call for historical data only runs alone.**  In every run with any other calls, such a call
is never in the emitter collection; its state and what is left of its handler are as in the run of
its own actions alone, without any notification and any other call; and all other calls are as in
the run without its actions, whatever is raised in it. -/
theorem historical_call_apart (env : Environment F) (lib : DashcoreLib F) (j : ℕ)
    (as : List Action) (hcount : ∀ request, .call j request ∈ as → request.count ≠ 0) :
    j ∉ (run env lib initial as).bloomFilterEmitterCollection ∧
      ((run env lib initial as).calls j =
          (run env lib initial (as.filter fun a => a.isOf j)).calls j ∧
        (run env lib initial as).handlers j =
          (run env lib initial (as.filter fun a => a.isOf j)).handlers j) ∧
      ∀ i, i ≠ j → (run env lib initial as).calls i =
          (run env lib initial (as.filter fun a => !a.isOf j)).calls i ∧
        (run env lib initial as).handlers i =
          (run env lib initial (as.filter fun a => !a.isOf j)).handlers i := by
  have hsame : Same j (run env lib initial as)
    (run env lib initial (as.filter fun a => a.isOf j)) := run_same hcount
  have hunseen : Unseen j (run env lib initial as)
    (run env lib initial (as.filter fun a => !a.isOf j)) := run_unseen hcount
  exact ⟨hunseen.not_mem, ⟨hsame.calls.symm, hsame.handlers.symm⟩, fun i hij =>
    ⟨(hunseen.apart.calls i hij).symm, (hunseen.apart.handlers i hij).symm⟩⟩

/-- A call for all payments, and one for those of the history; then a payment comes in. -/
def historyAmongPayments : List Action :=
  .call 0 paymentRequest :: paymentAnswers ++ historyActions 1 ++
    [.rawTransaction (payment [9] [[1]])]

/-- The call between the payments leaves the subscription as it is. -/
theorem historical_call_apart_payment :
    0 ∈ (paymentRun historyAmongPayments).bloomFilterEmitterCollection ∧
      1 ∉ (paymentRun historyAmongPayments).bloomFilterEmitterCollection ∧
      (paymentRun historyAmongPayments).calls 0 =
        (paymentRun (historyAmongPayments.filter fun a => !a.isOf 1)).calls 0 := by
  have hcount : ∀ request, .call 1 request ∈ historyAmongPayments → request.count ≠ 0 := by
    intro request hmem
    have hown : .call 1 request ∈ historyActions 1 := by
      simpa [historyAmongPayments, paymentAnswers] using hmem
    exact count_of_mem_historyActions hown
  have hcall := historical_call_apart paymentEnvironment paymentLib 1 historyAmongPayments hcount
  exact ⟨by decide, hcall.1, (hcall.2.2 0 zero_ne_one).1⟩

end StreamSystem

end Dapi
