/-
# The stages of a subscription for new transactions

What the handler of a request with `count = 0` does in which order, however Core
answers: it subscribes, scans the history block by block (transactions, merkle block,
`HISTORICAL_BLOCK_SENT`), reads the mempool, starts the sending loop and only then
listens for the cancellation.

* `Stage.next` is this order as the subscription sees it, an automaton over its actions.
* `handlerProtocol` is the order as a protocol of the handler, `handler_obeys` says that
  the handler keeps to it.
* `InPhase` relates the protocol to the state of the call, and `run_isInPhase` says that in
  every run of the system every call is in one of the phases.  With it come
  the facts that the results about whole systems start from: the subscription of a
  call is the run of its history (`IsSubscribed`), and its history is in order.
-/
import Dapi.StreamSystem
import Dapi.SubscriptionSteps

namespace Dapi

open Async Program

/-! ## Stages -/

/-- Where the handler is, as the subscription sees it. -/
inductive Stage
  | scanning
  | transactionsSent
  | merkleBlockSent (blockHash : Hash)
  | scanned
  | live
  deriving DecidableEq

namespace Stage

/-- The next stage, if the action is possible at the stage. -/
def next : Stage → Subscription.Action → Option Stage
  | scanning, .sendHistorical (.rawTransactions _) => some transactionsSent
  | transactionsSent, .sendHistorical (.rawMerkleBlock merkleBlock) =>
    some (merkleBlockSent merkleBlock.header.hash)
  | merkleBlockSent blockHash, .historicalBlockSent blockHash' =>
    if blockHash' = blockHash then some scanning else none
  | scanning, .historicalDataSent => some scanned
  | scanned, .memPoolDataSent => some live
  -- the listener for `cancelled` is attached in this stage
  | live, .clientDisconnected => some live
  -- notifications are possible at any stage
  | stage, .test _ => some stage
  | stage, .block _ => some stage
  | stage, .instantLock _ _ => some stage
  | stage, .wakeUp => some stage
  | _, _ => none

/-- The stage that a history leads to. -/
def after (history : List Subscription.Action) : Option Stage := history.foldlM next scanning

/-- One more step of the stages. -/
theorem after_snoc {history : List Subscription.Action} {stage stage' : Stage}
    {a : Subscription.Action} (h : after history = some stage)
    (hnext : stage.next a = some stage') : after (history ++ [a]) = some stage' := by
  rw [after, List.foldlM_append]
  show after history >>= _ = _
  rw [h]
  show (stage.next a >>= fun stage => pure stage) = _
  rw [hnext]
  rfl

/-- What the stage before the last action was. -/
theorem after_snoc_inv {history : List Subscription.Action} {stage' : Stage}
    {a : Subscription.Action} (h : after (history ++ [a]) = some stage') :
    ∃ stage, after history = some stage ∧ stage.next a = some stage' := by
  rw [after, List.foldlM_append] at h
  obtain ⟨stage, hstage, hnext⟩ := Option.bind_eq_some_iff.mp h
  refine ⟨stage, hstage, ?_⟩
  obtain ⟨stage'', hstage'', hpure⟩ := Option.bind_eq_some_iff.mp hnext
  obtain rfl : stage'' = stage' := Option.some.inj hpure
  exact hstage''

/-- A notification may come at every stage. -/
theorem next_of_isNotification (stage : Stage) {a : Subscription.Action}
    (ha : a.IsNotification) : stage.next a = some stage := by
  cases a with
  | test tx => cases stage <;> rfl
  | block block => cases stage <;> rfl
  | instantLock tx lock => cases stage <;> rfl
  | wakeUp => cases stage <;> rfl
  | _ => exact ha.elim

end Stage

/-! ## The protocol of the handler -/

/-- Where the handler is. -/
inductive Phase
  | entered
  | rejected
  | accepted
  | subscribed (stage : Stage)
  | listening
  deriving DecidableEq

/-- The phases in which the handler may throw. -/
def Phase.MayThrow : Phase → Prop
  | rejected | subscribed _ => True
  | _ => False

/-- The phase that an operation leads to, if it is possible at the stage. -/
def Stage.perform (stage : Stage) : HandlerOp → Option Phase
  | .write response => (stage.next (.sendHistorical response)).map .subscribed
  | .emitHistoricalBlockSent blockHash =>
    (stage.next (.historicalBlockSent blockHash)).map .subscribed
  | .emitHistoricalDataSent => (stage.next .historicalDataSent).map .subscribed
  | .emitMemPoolDataSent => (stage.next .memPoolDataSent).map .subscribed
  | .filterToBuffer | .yield _ => if stage = scanning then some (.subscribed stage) else none
  | .testCollection _ => if stage = scanned then some (.subscribed stage) else none
  | .onCancelled => if stage = live then some .listening else none
  | _ => none

/-- What the handler of `request` does in which phase. -/
def handlerProtocol (request : StreamRequest) : Protocol handlerSignature Phase where
  syncOk
    | .entered, op => op = .newBloomFilter request.bloomFilter
    | .accepted, op => op = .subscribeToNewTransactions
    | .subscribed stage, op => (stage.perform op).isSome
    | _, _ => False
  syncNext
    | .entered, _, .ok _ => .accepted
    | .accepted, _, .ok _ => .subscribed .scanning
    | .subscribed stage, op, .ok _ => (stage.perform op).getD (.subscribed stage)
    | .subscribed stage, _, .error _ => .subscribed stage
    | _, _, _ => .rejected
  requestOk phase _ := ∃ stage, phase = .subscribed stage
  requestNext phase _ _ := phase

/-! ## The handler keeps to it -/

section Leads

variable {request : StreamRequest} {stage stage' stage'' : Stage} {α β : Type}

/-- From one stage the program leads to another one, or it throws. -/
def Leads (request : StreamRequest) (stage : Stage) (x : HandlerProgram α) (stage' : Stage) :
    Prop :=
  x.Obeys (handlerProtocol request) (fun _ phase => phase = .subscribed stage')
    (fun _ phase => phase.MayThrow) (.subscribed stage)

theorem leads_done (a : α) : Leads request stage (.done a : HandlerProgram α) stage := rfl

theorem leads_throw (e : Failure) :
    Leads request stage (.throw e : HandlerProgram α) stage' := trivial

/-- A part that leads to a stage is followed by the rest. -/
theorem Leads.obeys_bind {x : HandlerProgram α} {f : α → HandlerProgram β}
    {post : β → Phase → Prop} (hx : Leads request stage x stage')
    (hf : ∀ a, (f a).Obeys (handlerProtocol request) post (fun _ phase => phase.MayThrow)
      (.subscribed stage')) :
    (x.bind f).Obeys (handlerProtocol request) post (fun _ phase => phase.MayThrow)
      (.subscribed stage) := by
  refine Program.obeys_bind (hx.mono ?_ (fun _ _ h => h))
  rintro a phase rfl
  exact hf a

/-- A sequence leads from the first stage to the last. -/
theorem leads_bind {x : HandlerProgram α} {f : α → HandlerProgram β}
    (hx : Leads request stage x stage') (hf : ∀ a, Leads request stage' (f a) stage'') :
    Leads request stage (x.bind f) stage'' :=
  hx.obeys_bind hf

/-- A handler of exceptions that throws whatever it catches. -/
theorem leads_tryCatch {x : HandlerProgram α} {handler : Failure → HandlerProgram α}
    (hx : Leads request stage x stage') (hhandler : ∀ e, ∃ e', handler e = .throw e') :
    Leads request stage (x.tryCatch handler) stage' := by
  refine obeys_tryCatch (hx.mono (fun _ _ h => h) ?_)
  intro e phase he
  obtain ⟨e', heq⟩ := hhandler e
  rw [heq]
  exact he

theorem leads_issue (r : CoreRequest) :
    Leads request stage (issue (S := handlerSignature) r) stage :=
  obeys_issue ⟨stage, rfl⟩ (fun _ => rfl) (fun _ => trivial)

/-- An operation leads to the next stage. -/
theorem leads_perform {op : HandlerOp} (h : stage.perform op = some (.subscribed stage')) :
    Leads request stage (perform (S := handlerSignature) op) stage' := by
  refine obeys_perform ?_ (fun _ => ?_) (fun _ => trivial)
  · show (stage.perform op).isSome = true
    rw [h]
    rfl
  · show (stage.perform op).getD _ = _
    rw [h]
    rfl

theorem leads_runIf {c : Bool} {x : HandlerProgram Unit} (hx : Leads request stage x stage) :
    Leads request stage (runIf c x) stage :=
  obeys_runIf (fun _ => hx) (fun _ => rfl)

/-- A loop stays when its body does. -/
theorem leads_forEach {body : α → HandlerProgram Unit} {xs : List α}
    (hbody : ∀ x ∈ xs, Leads request stage (body x) stage) :
    Leads request stage (forEach body xs) stage := by
  refine obeys_forEach rfl ?_
  rintro x hx phase rfl
  exact hbody x hx

/-- A library leads nowhere. -/
theorem leads_ofLibrary (x : Except String α) : Leads request stage (ofLibrary x) stage := by
  cases x with
  | ok a => exact leads_done a
  | error message => exact leads_throw _

/-! ### The parts of the handler, in the order of the source -/

/-- A response leads to the stage after it. -/
theorem leads_writeResponse {response : Response}
    (h : stage.next (.sendHistorical response) = some stage') :
    Leads request stage (writeResponse response) stage' := by
  refine leads_bind (leads_perform ?_) (fun _ => leads_issue _)
  rw [Stage.perform, h]
  rfl

section

variable {F : Type} (lib : DashcoreLib F)

/-- Parsing leads nowhere. -/
theorem leads_newTransactions (raws : List Buffer) :
    Leads request stage (newTransactions lib raws) stage := by
  induction raws with
  | nil => exact leads_done _
  | cons raw raws ih =>
      exact leads_bind (leads_ofLibrary _) fun _ => leads_bind ih fun _ => leads_done _

theorem leads_getTransactions (transactionHashes : List Hash) :
    Leads request stage (getTransactions lib transactionHashes) stage :=
  leads_bind (leads_issue _) (leads_newTransactions lib)

/-- A block of the history is sent in three steps. -/
theorem leads_sendHistoricalItem (item : HistoricalItem) :
    Leads request .scanning (sendHistoricalItem true item) .scanning := by
  refine leads_bind (leads_runIf (leads_issue _)) fun _ => ?_
  refine leads_bind (leads_writeResponse rfl) fun _ => ?_
  refine leads_bind (leads_writeResponse rfl) fun _ => ?_
  refine leads_perform ?_
  rw [Stage.perform, Stage.next, if_pos rfl]
  rfl

/-- A batch stays within the scan. -/
theorem leads_yieldMerkleBlocks {consume : HistoricalItem → HandlerProgram Unit}
    (hconsume : ∀ item, Leads request .scanning (consume item) .scanning)
    (rawMerkleBlocks : List Buffer) (merkleBlockIndex : ℕ) :
    Leads request .scanning (yieldMerkleBlocks lib consume rawMerkleBlocks merkleBlockIndex)
      .scanning := by
  induction rawMerkleBlocks generalizing merkleBlockIndex with
  | nil => exact leads_done _
  | cons rawMerkleBlock rawMerkleBlocks ih =>
      refine leads_bind (leads_ofLibrary _) fun merkleBlock => ?_
      refine leads_bind (leads_getTransactions lib _) fun transactions => ?_
      refine leads_bind (leads_perform rfl) fun _ => ?_
      exact leads_bind (hconsume _) fun _ => ih _

/-- The batches stay within the scan. -/
theorem leads_scanBatches {consume : HistoricalItem → HandlerProgram Unit}
    (hconsume : ∀ item, Leads request .scanning (consume item) .scanning) (fromHeight : ℕ)
    (count : ℤ) (numberOfBatches remaining batchIndex merkleBlockIndex : ℕ) :
    Leads request .scanning
      (scanBatches lib consume fromHeight count numberOfBatches remaining batchIndex
        merkleBlockIndex) .scanning := by
  induction remaining generalizing batchIndex merkleBlockIndex with
  | zero => exact leads_done _
  | succ remaining ih =>
      refine leads_bind (leads_issue _) fun blockHash => ?_
      refine leads_bind (leads_perform rfl) fun filter => ?_
      refine leads_bind (leads_issue _) fun rawMerkleBlocks => ?_
      exact leads_bind (leads_yieldMerkleBlocks lib hconsume _ _) fun _ => ih _ _

/-- **The scan stays a scan** until it is over. -/
theorem leads_iterator {consume : HistoricalItem → HandlerProgram Unit}
    (hconsume : ∀ item, Leads request .scanning (consume item) .scanning) (fromBlockHash : Hash)
    (count : ℤ) :
    Leads request .scanning (getHistoricalTransactionsIterator lib fromBlockHash count consume)
      .scanning :=
  leads_bind (leads_issue _) fun _ => leads_scanBatches lib hconsume _ _ _ _ _ _

/-- The reading of the mempool leads nowhere. -/
theorem leads_getMemPoolTransactionsLoop (txIds : List Hash) :
    Leads request stage (getMemPoolTransactionsLoop lib txIds) stage := by
  induction txIds with
  | nil => exact leads_done _
  | cons txId txIds ih =>
      refine leads_bind (leads_issue _) fun rawTransaction => ?_
      exact leads_bind (leads_ofLibrary _) fun _ => leads_bind ih fun _ => leads_done _

/-- After the mempool the stream is live. -/
theorem leads_sendMemPoolData : Leads request .scanned (sendMemPoolData lib) .live := by
  refine leads_bind (leads_bind (leads_issue _) (leads_getMemPoolTransactionsLoop lib)) ?_
  intro memPoolTransactions
  refine leads_bind (leads_forEach fun _ _ => leads_perform rfl) fun _ => ?_
  exact leads_perform rfl

end

/-- The start of the scan leads nowhere. -/
theorem leads_resolveFromBlockHash (request' : StreamRequest) :
    Leads request stage (resolveFromBlockHash request') stage := by
  rw [resolveFromBlockHash]
  split_ifs
  · exact leads_throw _
  · refine leads_tryCatch (leads_issue _) fun e => ?_
    split
    · exact ⟨_, rfl⟩
    · exact ⟨_, rfl⟩
  · exact leads_done _

theorem leads_getFromBlock (fromBlockHash : Hash) :
    Leads request stage (getFromBlock fromBlockHash) stage := by
  refine leads_bind (leads_tryCatch (leads_issue _) fun e => ?_) fun fromBlock => ?_
  · split
    · exact ⟨_, rfl⟩
    · exact ⟨_, rfl⟩
  · split_ifs
    · exact leads_throw _
    · exact leads_done _

/-- **The handler keeps to the protocol**, whatever it is answered: it returns when it listens for
the cancellation, and it throws when the filter is rejected or at some stage of the
subscription. -/
theorem handler_obeys {F : Type} (lib : DashcoreLib F) (hcount : request.count = 0) :
    (subscribeToTransactionsWithProofsHandler lib request).Obeys (handlerProtocol request)
      (fun _ phase => phase = .listening) (fun _ phase => phase.MayThrow) .entered := by
  have hflag : decide (request.count = 0) = true := decide_eq_true hcount
  rw [subscribeToTransactionsWithProofsHandler, hflag]
  -- the filter is built, or its rejection ends the call
  refine obeys_bind (obeys_tryCatch (obeys_perform rfl (fun _ => ?_) (fun _ => trivial)))
  refine obeys_bind (obeys_perform rfl (fun _ => ?_) (fun _ => trivial))
  -- from here on the emitter is registered, and every part may throw
  refine (leads_resolveFromBlockHash request).obeys_bind fun fromBlockHash => ?_
  refine (leads_getFromBlock fromBlockHash).obeys_bind fun fromBlock => ?_
  refine Leads.obeys_bind (leads_issue _) fun bestBlockHeight => ?_
  refine (leads_iterator lib leads_sendHistoricalItem _ _).obeys_bind fun _ => ?_
  refine Leads.obeys_bind (leads_perform rfl) fun _ => ?_
  refine (leads_sendMemPoolData lib).obeys_bind fun _ => ?_
  exact obeys_perform rfl (fun _ => rfl) (fun _ => trivial)

end Leads

/-! ## The state of the call in each phase -/

section InPhase

variable {F : Type} (env : Environment F) (lib : DashcoreLib F) (request : StreamRequest)

/-- The call has a subscription, the run of its history, which is in order. -/
structure IsSubscribed (stage : Stage) (call : Call F) : Prop where
  subscription : ∃ filter, lib.newBloomFilter request.bloomFilter = .ok filter ∧
    call.subscription = some (Subscription.run env (.start filter) call.history)
  stage : Stage.after call.history = some stage

/-- What the state of the call is in each phase of its handler. -/
def InPhase : Phase → Call F → Prop
  | .entered, call => call = .accepted request
  | .rejected, call =>
    (∃ message, lib.newBloomFilter request.bloomFilter = .error message) ∧
      call = .accepted request
  | .accepted, call =>
    ∃ filter, lib.newBloomFilter request.bloomFilter = .ok filter ∧
      call = { Call.accepted request with filter := some filter }
  | .subscribed stage, call =>
    IsSubscribed env lib request stage call ∧ call.isCancelListened = false ∧
      .clientDisconnected ∉ call.history
  | .listening, call => IsSubscribed env lib request .live call ∧ call.isCancelListened = true

variable {env lib request} {stage stage' : Stage} {call : Call F}

/-- An action that is possible at the stage. -/
theorem IsSubscribed.act (h : IsSubscribed env lib request stage call)
    {a : Subscription.Action} (hnext : stage.next a = some stage') :
    IsSubscribed env lib request stage' (call.act env a).2 ∧
      (call.act env a).2.history = call.history ++ [a] := by
  obtain ⟨filter, hfilter, hs⟩ := h.subscription
  rw [Call.act_of_some hs]
  refine ⟨⟨⟨filter, hfilter, ?_⟩, Stage.after_snoc h.stage hnext⟩, rfl⟩
  show some _ = some _
  rw [Subscription.run_snoc]

/-- The filter of the request is the one that the subscription started with. -/
theorem IsSubscribed.eq_run (h : IsSubscribed env lib request stage call) {filter : F}
    (hfilter : lib.newBloomFilter request.bloomFilter = .ok filter) {s : Subscription F}
    (hs : call.subscription = some s) :
    s = Subscription.run env (.start filter) call.history := by
  obtain ⟨filter', hfilter', hs'⟩ := h.subscription
  obtain rfl : filter = filter' := Except.ok.inj (hfilter.symm.trans hfilter')
  exact Option.some.inj (hs.symm.trans hs')

/-- A call with a subscription. -/
theorem InPhase.isSubscribed {phase : Phase} (h : InPhase env lib request phase call)
    (hs : call.subscription ≠ none) : ∃ stage, IsSubscribed env lib request stage call := by
  cases phase with
  | entered =>
      rw [show call = .accepted request from h] at hs
      exact absurd rfl hs
  | rejected =>
      rw [h.2] at hs
      exact absurd rfl hs
  | accepted =>
      obtain ⟨filter, -, hcall⟩ := h
      rw [hcall] at hs
      exact absurd rfl hs
  | subscribed stage => exact ⟨stage, h.1⟩
  | listening => exact ⟨.live, h.1⟩

/-- An action of the handler, which is not the disconnect. -/
theorem InPhase.act_subscribed (h : InPhase env lib request (.subscribed stage) call)
    {a : Subscription.Action} (hnext : stage.next a = some stage')
    (ha : a ≠ .clientDisconnected) :
    InPhase env lib request (.subscribed stage') (call.act env a).2 := by
  obtain ⟨hsub, hlistened, hhistory⟩ := h
  obtain ⟨hsub', hhistory'⟩ := hsub.act hnext
  refine ⟨hsub', (Call.act_isCancelListened a).trans hlistened, ?_⟩
  rw [hhistory', List.mem_append, List.mem_singleton]
  rintro (hmem | heq)
  · exact hhistory hmem
  · exact ha heq.symm

/-- An operation of the handler in the phase of the subscription. -/
theorem InPhase.exec_subscribed [BloomFilter F]
    (h : InPhase env lib request (.subscribed stage) call) {op : HandlerOp}
    (hop : (stage.perform op).isSome) (hne : ∀ tx, op ≠ .testCollection tx) :
    InPhase env lib request ((stage.perform op).getD (.subscribed stage))
        (call.exec env lib op).2 ∧
      ∃ answer, (call.exec env lib op).1 = .ok answer := by
  have haction : ∀ a : Subscription.Action, a ≠ .clientDisconnected →
      ((stage.next a).map Phase.subscribed).isSome →
      InPhase env lib request (((stage.next a).map Phase.subscribed).getD (.subscribed stage))
        (call.act env a).2 := by
    intro a ha hsome
    obtain ⟨stage', hnext⟩ := Option.isSome_iff_exists.mp (Option.isSome_map.symm.trans hsome)
    rw [hnext]
    exact h.act_subscribed hnext ha
  cases op with
  | write response => exact ⟨haction (.sendHistorical response) (fun h => by cases h) hop, (), rfl⟩
  | emitHistoricalBlockSent blockHash =>
      exact ⟨haction (.historicalBlockSent blockHash) (fun h => by cases h) hop, (), rfl⟩
  | emitHistoricalDataSent => exact ⟨haction .historicalDataSent (fun h => by cases h) hop, (), rfl⟩
  | emitMemPoolDataSent => exact ⟨haction .memPoolDataSent (fun h => by cases h) hop, (), rfl⟩
  | testCollection tx => exact absurd rfl (hne tx)
  | onCancelled =>
      rw [Stage.perform] at hop ⊢
      split_ifs at hop ⊢ with hlive
      · subst hlive
        obtain ⟨hsub, -, -⟩ := h
        exact ⟨⟨⟨hsub.subscription, hsub.stage⟩, rfl⟩, (), rfl⟩
      · cases hop
  | filterToBuffer =>
      rw [Stage.perform] at hop ⊢
      split_ifs at hop ⊢
      · exact ⟨h, _, rfl⟩
      · cases hop
  | yield item =>
      rw [Stage.perform] at hop ⊢
      split_ifs at hop ⊢
      · exact ⟨h, _, rfl⟩
      · cases hop
  | newBloomFilter bloomFilter => cases hop
  | subscribeToNewTransactions => cases hop
  | endCall => cases hop

/-- **The phases are kept** by everything that happens to the call. -/
theorem tracks_inPhase [BloomFilter F] :
    StreamSystem.Tracks env lib (handlerProtocol request) (InPhase env lib request) where
  exec := by
    intro phase op call hne hop h
    cases phase with
    | entered =>
        obtain rfl : op = .newBloomFilter request.bloomFilter := hop
        obtain rfl : call = .accepted request := h
        rw [Call.exec]
        cases hlib : lib.newBloomFilter request.bloomFilter with
        | ok filter => exact ⟨filter, hlib, rfl⟩
        | error message => exact ⟨⟨message, hlib⟩, rfl⟩
    | rejected => exact hop.elim
    | accepted =>
        obtain rfl : op = .subscribeToNewTransactions := hop
        obtain ⟨filter, hfilter, rfl⟩ := h
        exact ⟨⟨⟨filter, hfilter, rfl⟩, rfl⟩, rfl, List.not_mem_nil⟩
    | subscribed stage =>
        obtain ⟨hphase, answer, hanswer⟩ := h.exec_subscribed hop hne
        rw [hanswer]
        exact hphase
    | listening => exact hop.elim
  test := by
    intro phase tx answer call hop h
    cases phase with
    | entered => cases (show HandlerOp.testCollection tx = .newBloomFilter _ from hop)
    | accepted => cases (show HandlerOp.testCollection tx = .subscribeToNewTransactions from hop)
    | subscribed stage =>
        have hperform : stage.perform (.testCollection tx) = some (.subscribed stage) := by
          have hsome : (stage.perform (.testCollection tx)).isSome = true := hop
          rw [Stage.perform] at hsome ⊢
          split_ifs at hsome ⊢
          · rfl
          · cases hsome
        cases answer with
        | ok _ =>
            show InPhase env lib request ((stage.perform (.testCollection tx)).getD _) call
            rw [hperform]
            exact h
        | error e => exact h
    | _ => exact hop.elim
  request := fun _ h => h
  notified := by
    intro phase a call ha h
    cases phase with
    | entered =>
        obtain rfl : call = .accepted request := h
        rw [Call.act_of_none rfl]
        rfl
    | rejected =>
        obtain ⟨hlib, rfl⟩ := h
        rw [Call.act_of_none rfl]
        exact ⟨hlib, rfl⟩
    | accepted =>
        obtain ⟨filter, hfilter, rfl⟩ := h
        rw [Call.act_of_none rfl]
        exact ⟨filter, hfilter, rfl⟩
    | subscribed stage =>
        refine h.act_subscribed (stage.next_of_isNotification ha) ?_
        rintro rfl
        exact ha
    | listening =>
        obtain ⟨hsub, hlistened⟩ := h
        exact ⟨(hsub.act (Stage.live.next_of_isNotification ha)).1,
          (Call.act_isCancelListened a).trans hlistened⟩
  cancelled := by
    intro phase call hlistened h
    cases phase with
    | entered =>
        obtain rfl : call = .accepted request := h
        cases hlistened
    | rejected =>
        obtain ⟨-, rfl⟩ := h
        cases hlistened
    | accepted =>
        obtain ⟨filter, -, rfl⟩ := h
        cases hlistened
    | subscribed stage =>
        -- nobody listens for the cancellation yet
        rw [h.2.1] at hlistened
        cases hlistened
    | listening =>
        have hended : IsSubscribed env lib request .live { call with isEnded := true } :=
          ⟨h.1.subscription, h.1.stage⟩
        exact ⟨(hended.act rfl).1, (Call.act_isCancelListened _).trans hlistened⟩

end InPhase

/-! ## Every run of the system -/

namespace StreamSystem

variable {F : Type} [BloomFilter F] (env : Environment F) (lib : DashcoreLib F)
  {request : StreamRequest}

/-- The handler of call `i` and the state of the call are in the same phase. -/
abbrev IsInPhase (request : StreamRequest) (sys : StreamSystem F) (i : ℕ) : Prop :=
  Follows (handlerProtocol request) (fun _ phase => phase = .listening)
    (fun _ phase => phase.MayThrow) (InPhase env lib request) request sys i

/-- The acceptance of a call, if it has not been accepted before. -/
theorem isInPhase_call {sys : StreamSystem F} {i : ℕ} (hcount : request.count = 0)
    (hi : (sys.calls i).request = none) :
    IsInPhase env lib request (sys.step env lib (.call i request)) i := by
  rw [step, if_pos hi]
  have haccepted : (sys.setCall i (.accepted request)).calls i = .accepted request :=
    setCall_self _
  refine tracks_inPhase.runHandler ?_ (handler_obeys lib hcount) ?_
  · show ((sys.setCall i (.accepted request)).calls i).request = _
    rw [haccepted]
    rfl
  · exact haccepted

/-- **Every call for new transactions is in one of the phases**, in every run of the system. -/
theorem run_isInPhase (as : List Action) {i : ℕ}
    (hrequest : ((run env lib initial as).calls i).request = some request)
    (hcount : request.count = 0) : IsInPhase env lib request (run env lib initial as) i := by
  revert hrequest
  refine Machine.run_induction (s := (initial : StreamSystem F))
    (P := fun _ sys => (sys.calls i).request = some request → IsInPhase env lib request sys i)
    (fun h => by cases h) ?_ as
  intro as a ih hrequest
  generalize Machine.run (step env lib) initial as = sys at ih hrequest
  by_cases ha : ∃ request', a = .call i request'
  · obtain ⟨request', rfl⟩ := ha
    by_cases hi : (sys.calls i).request = none
    · rw [step_call_request hi] at hrequest
      obtain rfl := Option.some.inj hrequest
      exact isInPhase_call env lib hcount hi
    · rw [step_call_of_accepted hi] at hrequest ⊢
      exact ih hrequest
  · push Not at ha
    rw [step_request ha] at hrequest
    exact (ih hrequest).step tracks_inPhase a

end StreamSystem

end Dapi
