/-
# What the steps of a subscription do

The code of a subscription emits every event through the listeners that are
registered at that moment.  Here the registrations are settled once and for all:

* `Wired` says which listeners are registered, before the mempool data is sent,
  after it, and after a disconnect; every run keeps it (`run_wired`).
* Under it every emission has a plain description (`emitMatched_eq` ...
  `emit_clientDisconnected`), and so has an iteration of the loop (`continueLoop_eq`).
* `Change` lists the changes that an action is made of, with what each requires of the
  state; `Keeps.step` is the rule that an action keeps what its changes keep.
* `Preserves a I` says the same of an invariant `I` of the cache and the trace alone, and
  `Preserves.step` is the rule for it.
* `cache_reached`: the cache of a subscription is in a state that a run of the cache leads to.
-/
import Dapi.Subscription

namespace Dapi

/-! ## The events of a delivery and of an iteration -/

/-- What the log shows of an event with data that reaches the client. -/
def deliveryEvents (event : MediatorEvent) : List TraceEvent :=
  match event with
  | .transaction tx => [.emitted event, .sentLive (.rawTransactions [tx])]
  | .merkleBlock merkleBlock => [.emitted event, .sentLive (.rawMerkleBlock merkleBlock)]
  | .instantLock instantLock =>
    [.emitted event, .sentLive (.instantSendLockMessages [instantLock])]
  | _ => [.emitted event]

/-- The three events that carry data. -/
def MediatorEvent.IsData : MediatorEvent → Prop
  | .transaction _ | .merkleBlock _ | .instantLock _ => True
  | _ => False

namespace TransactionHashesCache

/-- The cache after an iteration of the loop. -/
def drained (cache : TransactionHashesCache) : TransactionHashesCache :=
  { cache with
    transactions := Entry.markRetrieved cache.transactions
    merkleBlocks := Entry.markRetrieved cache.merkleBlocks
    unretrievedInstantLocks := OrderedMap.empty }

/-- The stored locks that an iteration emits. -/
def sendableInstantLocks (cache : TransactionHashesCache) : List InstantLock :=
  cache.unretrievedInstantLocks.values.filter
    (fun instantLock => cache.isInInstantLockCache instantLock.txid)

/-- What an iteration of the loop emits, in this order. -/
def iterationEmits (cache : TransactionHashesCache) : List MediatorEvent :=
  (Entry.unretrieved cache.transactions).map MediatorEvent.transaction ++
    cache.sendableInstantLocks.map MediatorEvent.instantLock ++
    (Entry.unretrieved cache.merkleBlocks).map MediatorEvent.merkleBlock

/-- What the log shows of an iteration. -/
def iterationEvents (cache : TransactionHashesCache) : List TraceEvent :=
  cache.iterationEmits.flatMap deliveryEvents ++ [.iterationEnded]

/-- What is retrieved stays cached. -/
theorem cacheTransactionHashes_drained (cache : TransactionHashesCache) :
    cache.drained.cacheTransactionHashes = cache.cacheTransactionHashes :=
  Entry.map_markRetrieved Transaction.hash _

end TransactionHashesCache

/-! ### Which events these lists hold -/

section EventLists

variable {c : TransactionHashesCache} {e : TraceEvent}

/-- All that `addTransaction` tells is the transaction. -/
theorem eq_of_mem_addTransactionEvents {tx : Transaction} (he : e ∈ c.addTransactionEvents tx) :
    e = .transactionAdded tx := by
  rw [TransactionHashesCache.addTransactionEvents] at he
  split_ifs at he
  · exact List.mem_singleton.mp he
  · cases he

/-- `addBlock` tells of the block, and of the evicted one. -/
theorem cases_of_mem_addBlockEvents {build : MerkleBlockBuild} {block : Block}
    (he : e ∈ c.addBlockEvents build block) :
    (∃ flags merkleBlock, e = .blockAdded block flags merkleBlock) ∨
      ∃ firstBlock, e = .blockEvicted firstBlock := by
  rw [TransactionHashesCache.addBlockEvents] at he
  split_ifs at he
  · rcases List.mem_cons.mp he with rfl | he
    · exact Or.inl ⟨_, _, rfl⟩
    · obtain ⟨firstBlock, -, rfl⟩ := Option.map_eq_some_iff.mp (Option.mem_toList.mp he)
      exact Or.inr ⟨firstBlock, rfl⟩
  · cases he

/-- All that `removeDataByBlockHash` tells is the block. -/
theorem exists_of_mem_removeDataByBlockHashEvents {blockHash : Hash}
    (he : e ∈ c.removeDataByBlockHashEvents blockHash) : ∃ block, e = .blockRemoved block := by
  rw [TransactionHashesCache.removeDataByBlockHashEvents] at he
  obtain ⟨block, -, rfl⟩ := Option.map_eq_some_iff.mp (Option.mem_toList.mp he)
  exact ⟨block, rfl⟩

/-- A delivery is an emission and a response. -/
theorem cases_of_mem_deliveryEvents {event : MediatorEvent} (he : e ∈ deliveryEvents event) :
    e = .emitted event ∨ ∃ response, e = .sentLive response := by
  cases event with
  | transaction tx => exact (List.mem_pair.mp he).imp_right fun h => ⟨_, h⟩
  | merkleBlock merkleBlock => exact (List.mem_pair.mp he).imp_right fun h => ⟨_, h⟩
  | instantLock lock => exact (List.mem_pair.mp he).imp_right fun h => ⟨_, h⟩
  | _ => exact Or.inl (List.mem_singleton.mp he)

/-- What an iteration emits carries data. -/
theorem isData_of_mem_iterationEmits {event : MediatorEvent} (h : event ∈ c.iterationEmits) :
    event.IsData := by
  rw [TransactionHashesCache.iterationEmits, List.mem_append, List.mem_append, List.mem_map,
    List.mem_map, List.mem_map] at h
  rcases h with (⟨_, -, rfl⟩ | ⟨_, -, rfl⟩) | ⟨_, -, rfl⟩
  · trivial
  · trivial
  · trivial

/-- A round of the loop emits what is due, and ends. -/
theorem cases_of_mem_iterationEvents (he : e ∈ c.iterationEvents) :
    (∃ event ∈ c.iterationEmits, e = .emitted event) ∨ (∃ response, e = .sentLive response) ∨
      e = .iterationEnded := by
  rw [TransactionHashesCache.iterationEvents, List.mem_append, List.mem_flatMap,
    List.mem_singleton] at he
  rcases he with ⟨event, hevent, he⟩ | he
  · rcases cases_of_mem_deliveryEvents he with he | he
    · exact Or.inl ⟨event, hevent, he⟩
    · exact Or.inr (Or.inl he)
  · exact Or.inr (Or.inr he)

end EventLists

namespace Subscription

variable {F : Type}

/-! ## Which listeners are registered -/

/-- The filter emitter of a connected client. -/
def liveFilterEmitter (loop : Loop) : EventEmitter FilterEvent FilterListener :=
  ⟨[⟨.matched, .storeTransaction, false⟩, ⟨.block, .storeBlock, false⟩,
    ⟨.instantLock,
      if loop = .notStarted then .preMempoolSentInstantLockListener else .sendInstantLock,
      false⟩]⟩

/-- The mediator of a connected client. -/
def liveMediator (loop : Loop) : EventEmitter MediatorEventName MediatorListener :=
  ⟨[⟨.transaction, .sendTransactionsResponse, false⟩,
      ⟨.merkleBlock, .sendMerkleBlockResponse, false⟩,
      ⟨.instantLock, .sendInstantLockResponse, false⟩,
      ⟨.historicalBlockSent, .removeHistoricalBlock, false⟩] ++
    (if loop = .notStarted then [⟨.memPoolDataSent, .sendNewData, true⟩] else []) ++
    [⟨.clientDisconnected, .disconnect, true⟩]⟩

/-- The part of the state that the registrations depend on. -/
structure Wiring where
  isClientConnected : Bool
  isRegistered : Bool
  filterEmitter : EventEmitter FilterEvent FilterListener
  mediator : EventEmitter MediatorEventName MediatorListener
  loop : Loop

/-- The part of the state that says who is connected to whom. -/
def wiring (s : Subscription F) : Wiring :=
  ⟨s.isClientConnected, s.isRegistered, s.filterEmitter, s.mediator, s.loop⟩

/-- The registrations of a connected client, and none after the disconnect. -/
structure Wiring.Sound (w : Wiring) : Prop where
  filterEmitter : w.filterEmitter =
    if w.isClientConnected then liveFilterEmitter w.loop else .empty
  mediator : w.mediator = if w.isClientConnected then liveMediator w.loop else .empty
  loop : w.isClientConnected = true → w.loop ≠ .ended
  registered : w.isRegistered = w.isClientConnected

/-- The listeners of the subscription are registered as they should be. -/
def Wired (s : Subscription F) : Prop := s.wiring.Sound

variable {s s' : Subscription F}

theorem Wired.congr (h : Wired s) (hw : s'.wiring = s.wiring) : Wired s' := by
  rw [Wired, hw]
  exact h

theorem wired_start (filter : F) : Wired (start filter) := by
  refine ⟨rfl, rfl, fun _ h => ?_, rfl⟩
  cases h

/-- The listeners of a connected client are on the emitter. -/
theorem Wired.filterEmitter_of_connected (h : Wired s) (hc : s.isClientConnected = true) :
    s.filterEmitter = liveFilterEmitter s.loop := by
  have hf := h.filterEmitter
  rwa [wiring, if_pos hc] at hf

/-- The listeners of a connected client are on the mediator. -/
theorem Wired.mediator_of_connected (h : Wired s) (hc : s.isClientConnected = true) :
    s.mediator = liveMediator s.loop := by
  have hm := h.mediator
  rwa [wiring, if_pos hc] at hm

/-- After the disconnect the emitter has no listeners. -/
theorem Wired.filterEmitter_of_disconnected (h : Wired s) (hc : s.isClientConnected = false) :
    s.filterEmitter = .empty := by
  have hf := h.filterEmitter
  rwa [wiring, hc] at hf

/-- After the disconnect the mediator has no listeners. -/
theorem Wired.mediator_of_disconnected (h : Wired s) (hc : s.isClientConnected = false) :
    s.mediator = .empty := by
  have hm := h.mediator
  rwa [wiring, hc] at hm

/-! ### Writing to the log -/

@[simp] theorem log_nil : s.log [] = s := by
  rw [log, List.append_nil]

/-- The trace grows at its end. -/
theorem log_log (es es' : List TraceEvent) : (s.log es).log es' = s.log (es ++ es') := by
  rw [log, log, log, List.append_assoc]

/-! ## Deliveries -/

/-- An event with data reaches its sender, whatever the state of the loop. -/
theorem emitData_eq {l : Loop} (hm : s.mediator = liveMediator l) {e : MediatorEvent}
    (he : e.IsData) : s.emitData e = s.log (deliveryEvents e) := by
  have hlog : (s.log [.emitted e]).mediator = liveMediator l := hm
  cases e with
  | transaction tx =>
      rw [emitData, EventEmitter.emit_eq_run (l := .sendTransactionsResponse) rfl
        (by rw [hlog]; cases l <;> rfl)]
      exact log_log _ _
  | merkleBlock merkleBlock =>
      rw [emitData, EventEmitter.emit_eq_run (l := .sendMerkleBlockResponse) rfl
        (by rw [hlog]; cases l <;> rfl)]
      exact log_log _ _
  | instantLock instantLock =>
      rw [emitData, EventEmitter.emit_eq_run (l := .sendInstantLockResponse) rfl
        (by rw [hlog]; cases l <;> rfl)]
      exact log_log _ _
  | _ => exact he.elim

/-- A list of events with data is delivered in its order. -/
theorem foldl_emitData {α : Type} {l : Loop} (hm : s.mediator = liveMediator l)
    {f : α → MediatorEvent} (hf : ∀ x, (f x).IsData) (xs : List α) :
    xs.foldl (fun s x => s.emitData (f x)) s =
      s.log ((xs.map f).flatMap deliveryEvents) := by
  induction xs generalizing s with
  | nil => exact log_nil.symm
  | cons x xs ih =>
      have hm' : (s.log (deliveryEvents (f x))).mediator = liveMediator l := hm
      rw [List.foldl_cons, emitData_eq hm (hf x), ih hm', log_log, List.map_cons,
        List.flatMap_cons]

/-- The locks whose transaction waits are delivered, the others skipped. -/
theorem foldl_emitData_filter {l : Loop} (hm : s.mediator = liveMediator l)
    (locks : List InstantLock) :
    locks.foldl
        (fun s instantLock =>
          if s.cache.isInInstantLockCache instantLock.txid then
            s.emitData (.instantLock instantLock)
          else s) s =
      s.log (((locks.filter (fun lock => s.cache.isInInstantLockCache lock.txid)).map
        MediatorEvent.instantLock).flatMap deliveryEvents) := by
  induction locks generalizing s with
  | nil => exact log_nil.symm
  | cons lock locks ih =>
      rw [List.foldl_cons, List.filter_cons]
      by_cases hw : s.cache.isInInstantLockCache lock.txid = true
      · have hhead := emitData_eq hm (e := .instantLock lock) trivial
        have hm' : (s.log (deliveryEvents (.instantLock lock))).mediator = liveMediator l := hm
        rw [if_pos hw, if_pos hw, hhead, ih hm', log_log, List.map_cons, List.flatMap_cons]
        rfl
      · rw [if_neg hw, if_neg hw, ih hm]

/-- **An iteration of the loop.** -/
theorem continueLoop_eq {l : Loop} (hc : s.isClientConnected = true)
    (hm : s.mediator = liveMediator l) :
    s.continueLoop =
      { s with cache := s.cache.drained, loop := .waiting }.log s.cache.iterationEvents := by
  rw [continueLoop, if_pos hc]
  have htxs : s.sendTransactions =
      { s with cache := s.cache.getUnretrievedTransactions.2 }.log
        (((Entry.unretrieved s.cache.transactions).map
          MediatorEvent.transaction).flatMap deliveryEvents) :=
    foldl_emitData (s := { s with cache := s.cache.getUnretrievedTransactions.2 }) hm
      (f := MediatorEvent.transaction) (fun _ => trivial) _
  rw [htxs]
  -- each of the three lists is sent from the state that the one before it left
  generalize hs₁ : ({ s with cache := s.cache.getUnretrievedTransactions.2 } :
    Subscription F).log _ = s₁
  have hm₁ : s₁.mediator = liveMediator l := by rw [← hs₁]; exact hm
  have hlocks : s₁.sendInstantLocks =
      { s₁ with cache := s₁.cache.getUnretrievedInstantLocks.2 }.log
        ((s₁.cache.sendableInstantLocks.map MediatorEvent.instantLock).flatMap deliveryEvents) :=
    foldl_emitData_filter
      (s := { s₁ with cache := s₁.cache.getUnretrievedInstantLocks.2 }) hm₁ _
  rw [hlocks]
  generalize hs₂ : ({ s₁ with cache := s₁.cache.getUnretrievedInstantLocks.2 } :
    Subscription F).log _ = s₂
  have hm₂ : s₂.mediator = liveMediator l := by rw [← hs₂]; exact hm₁
  have hblocks : s₂.sendMerkleBlocks =
      { s₂ with cache := s₂.cache.getUnretrievedMerkleBlocks.2 }.log
        (((Entry.unretrieved s₂.cache.merkleBlocks).map
          MediatorEvent.merkleBlock).flatMap deliveryEvents) :=
    foldl_emitData (s := { s₂ with cache := s₂.cache.getUnretrievedMerkleBlocks.2 }) hm₂
      (f := MediatorEvent.merkleBlock) (fun _ => trivial) _
  rw [hblocks]
  subst hs₂ hs₁
  simp only [log, TransactionHashesCache.iterationEvents, TransactionHashesCache.iterationEmits,
    List.flatMap_append, List.append_assoc]
  rfl

/-! ## The actions -/

variable (env : Environment F)

/-- A match is stored while the client is connected. -/
theorem emitMatched_eq (hw : Wired s) (tx : Transaction) :
    s.emitMatched tx = if s.isClientConnected then s.storeTransaction tx else s := by
  rw [emitMatched]
  cases hc : s.isClientConnected with
  | true =>
      rw [if_pos rfl, EventEmitter.emit_eq_run (l := .storeTransaction) rfl]
      rw [hw.filterEmitter_of_connected hc]
      rfl
  | false =>
      rw [if_neg (by decide), EventEmitter.emit_eq_self]
      rw [hw.filterEmitter_of_disconnected hc]
      rfl

/-- A test leaves the wiring. -/
theorem testTransaction_wiring (tx : Transaction) :
    (s.testTransaction env tx).2.wiring = s.wiring := rfl

/-- The transaction is tested, and stored when it matches. -/
theorem testBody_snd (hw : Wired s) (tx : Transaction) :
    (s.testBody env tx).2 =
      if (env.testFunction s.filter tx).1 = .ok true ∧ s.isClientConnected = true then
        (s.testTransaction env tx).2.storeTransaction tx
      else (s.testTransaction env tx).2 := by
  have htest : s.testTransaction env tx =
      ((env.testFunction s.filter tx).1, (s.testTransaction env tx).2) := rfl
  have hw' : Wired (s.testTransaction env tx).2 := hw.congr (testTransaction_wiring env tx)
  have hc' : (s.testTransaction env tx).2.isClientConnected = s.isClientConnected := rfl
  rw [testBody, test, htest]
  rcases hr : (env.testFunction s.filter tx).1 with e | b
  · rw [if_neg (by rintro ⟨h, -⟩; cases h)]
  · cases b with
    | true =>
        simp only
        rw [emitMatched_eq hw', hc']
        simp
    | false => rw [if_neg (by rintro ⟨h, -⟩; cases h)]

/-- The test of a transaction leaves the wiring. -/
theorem testBody_wiring (hw : Wired s) (tx : Transaction) :
    (s.testBody env tx).2.wiring = s.wiring := by
  rw [testBody_snd env hw tx]
  split_ifs
  · rfl
  · rfl

/-- A block is stored while the client is connected. -/
theorem emitBlock_eq (hw : Wired s) (block : Block) :
    s.emitBlock env block =
      if s.isClientConnected then s.storeBlock env block else (.ok (), s) := by
  rw [emitBlock]
  cases hc : s.isClientConnected with
  | true =>
      rw [if_pos rfl, EventEmitter.emitThrowing_eq_run (l := .storeBlock) rfl]
      rw [hw.filterEmitter_of_connected hc]
      rfl
  | false =>
      rw [if_neg (by decide), EventEmitter.emitThrowing_eq_self]
      rw [hw.filterEmitter_of_disconnected hc]
      rfl

/-- A lock goes to the cache before the loop has started, and to the client after it. -/
theorem emitInstantLock_eq (hw : Wired s) (tx : Transaction) (lock : InstantLock) :
    s.emitInstantLock env tx lock =
      if s.isClientConnected then
        if s.loop = .notStarted then s.preMempoolSentInstantLockListener env tx lock
        else (.ok (), s.sendInstantLock lock)
      else (.ok (), s) := by
  rw [emitInstantLock]
  cases hc : s.isClientConnected with
  | true =>
      rw [if_pos rfl]
      by_cases hl : s.loop = .notStarted
      · rw [if_pos hl, EventEmitter.emitThrowing_eq_run
          (l := .preMempoolSentInstantLockListener) rfl]
        rw [hw.filterEmitter_of_connected hc, hl]
        rfl
      · rw [if_neg hl, EventEmitter.emitThrowing_eq_run (l := .sendInstantLock) rfl]
        rw [hw.filterEmitter_of_connected hc]
        cases hloop : s.loop with
        | notStarted => exact absurd hloop hl
        | _ => rfl
  | false =>
      rw [if_neg (by decide), EventEmitter.emitThrowing_eq_self]
      rw [hw.filterEmitter_of_disconnected hc]
      rfl

/-- A control event without a listener is only logged. -/
theorem emit_eq_log {event : MediatorEvent}
    (h : s.mediator.listeners event.name = []) : s.emit event = s.log [.emitted event] := by
  rw [emit, EventEmitter.emit_eq_self]
  exact h

/-- After the disconnect nobody hears the mediator. -/
theorem Wired.emit_of_disconnected (hw : Wired s) (hc : s.isClientConnected = false)
    (event : MediatorEvent) : s.emit event = s.log [.emitted event] := by
  apply emit_eq_log
  rw [hw.mediator_of_disconnected hc]
  rfl

/-- Nobody listens to the end of the history. -/
theorem emit_historicalDataSent (hw : Wired s) :
    s.emit .historicalDataSent = s.log [.emitted .historicalDataSent] := by
  cases hc : s.isClientConnected with
  | true =>
      apply emit_eq_log
      rw [hw.mediator_of_connected hc]
      cases s.loop <;> rfl
  | false => exact hw.emit_of_disconnected hc _

/-- A block that is sent leaves the cache. -/
theorem emit_historicalBlockSent (hw : Wired s) (blockHash : Hash) :
    s.emit (.historicalBlockSent blockHash) =
      if s.isClientConnected then
        (s.log [.emitted (.historicalBlockSent blockHash)]).removeHistoricalBlock blockHash
      else s.log [.emitted (.historicalBlockSent blockHash)] := by
  cases hc : s.isClientConnected with
  | true =>
      rw [if_pos rfl, emit, EventEmitter.emit_eq_run (l := .removeHistoricalBlock) rfl]
      · rfl
      · show s.mediator.listeners .historicalBlockSent = _
        rw [hw.mediator_of_connected hc]
        cases s.loop <;> rfl
  | false =>
      rw [if_neg (by decide)]
      exact hw.emit_of_disconnected hc _

/-- The state in which the loop starts. -/
def loopStarted (s : Subscription F) : Subscription F :=
  { s with
    filterEmitter := liveFilterEmitter .waiting
    mediator := liveMediator .waiting
    loop := .waiting
    cache := s.cache.drained }

/-- The `MEMPOOL_DATA_SENT` listener exchanges the instant lock listener and runs the first
iteration; its own registration is gone by then. -/
theorem sendNewData_eq (hc : s.isClientConnected = true)
    (hf : s.filterEmitter = liveFilterEmitter .notStarted)
    (hm : s.mediator = liveMediator .waiting) :
    s.sendNewData = s.loopStarted.log s.cache.iterationEvents := by
  have hexchange : (s.filterEmitter.removeListener .instantLock
      .preMempoolSentInstantLockListener).on .instantLock .sendInstantLock =
        liveFilterEmitter .waiting := by
    rw [hf]
    rfl
  rw [sendNewData, hexchange, continueLoop_eq (l := .waiting)]
  · rw [loopStarted, ← hm]
  · exact hc
  · exact hm

/-- After the mempool the loop starts, once. -/
theorem emit_memPoolDataSent (hw : Wired s) :
    s.emit .memPoolDataSent =
      if s.isClientConnected = true ∧ s.loop = .notStarted then
        s.loopStarted.log (.emitted .memPoolDataSent :: s.cache.iterationEvents)
      else s.log [.emitted .memPoolDataSent] := by
  cases hc : s.isClientConnected with
  | true =>
      by_cases hl : s.loop = .notStarted
      · have hm := hw.mediator_of_connected hc
        have hf := hw.filterEmitter_of_connected hc
        rw [hl] at hm hf
        -- a `once` registration is gone before its listener runs
        have honce : s.mediator.removeListener .memPoolDataSent .sendNewData =
            liveMediator .waiting := by
          rw [hm]
          rfl
        rw [if_pos ⟨rfl, hl⟩, emit, EventEmitter.emit_eq_run_once (l := .sendNewData)]
        · let s₁ : Subscription F :=
            { s.log [.emitted .memPoolDataSent] with
              mediator := s.mediator.removeListener .memPoolDataSent .sendNewData }
          refine (sendNewData_eq (s := s₁) hc hf honce).trans ?_
          show (s.loopStarted.log [.emitted .memPoolDataSent]).log s.cache.iterationEvents = _
          rw [log_log]
          rfl
        · show s.mediator.listeners .memPoolDataSent = _
          rw [hm]
          rfl
      · -- the listener has run before, so nobody listens any more
        rw [if_neg (fun h => hl h.2)]
        apply emit_eq_log
        rw [hw.mediator_of_connected hc]
        cases hloop : s.loop with
        | notStarted => exact absurd hloop hl
        | _ => rfl
  | false =>
      rw [if_neg (by rintro ⟨h, -⟩; cases h)]
      exact hw.emit_of_disconnected hc _

/-- The first disconnect takes all listeners off. -/
theorem emit_clientDisconnected (hw : Wired s) :
    s.emit .clientDisconnected =
      if s.isClientConnected then (s.log [.emitted .clientDisconnected]).disconnect
      else s.log [.emitted .clientDisconnected] := by
  cases hc : s.isClientConnected with
  | true =>
      rw [if_pos rfl, emit, EventEmitter.emit_eq_run_once (l := .disconnect)]
      · rfl
      · show s.mediator.listeners .clientDisconnected = _
        rw [hw.mediator_of_connected hc]
        cases s.loop <;> rfl
  | false =>
      rw [if_neg (by decide)]
      exact hw.emit_of_disconnected hc _

/-- A lock that is waited for is sent, and waited for no longer. -/
theorem sendInstantLock_eq {l : Loop} (hm : s.mediator = liveMediator l) (lock : InstantLock) :
    s.sendInstantLock lock =
      if s.cache.isInInstantLockCache lock.txid then
        { s with
          cache := s.cache.removeTransactionHashFromInstantSendLockWaitingList
            lock.txid }.log (deliveryEvents (.instantLock lock))
      else s := by
  rw [sendInstantLock]
  split_ifs
  · let s₁ : Subscription F :=
      { s with
        cache := s.cache.removeTransactionHashFromInstantSendLockWaitingList lock.txid }
    exact emitData_eq (s := s₁) (e := .instantLock lock) hm trivial
  · rfl

/-- An iteration changes neither the registrations nor the connection. -/
theorem continueLoop_waiting (hw : Wired s) (hl : s.loop = .waiting) :
    s.continueLoop =
      if s.isClientConnected then { s with cache := s.cache.drained }.log s.cache.iterationEvents
      else { s with loop := .ended } := by
  by_cases hc : s.isClientConnected = true
  · rw [if_pos hc, continueLoop_eq hc (hw.mediator_of_connected hc), ← hl]
  · rw [if_neg hc, continueLoop, if_neg hc]

/-! ## The registrations of the states that follow -/

/-- The start of the loop keeps the subscription wired. -/
theorem wired_loopStarted (hw : Wired s) (hc : s.isClientConnected = true) :
    Wired s.loopStarted where
  filterEmitter := by
    show liveFilterEmitter .waiting = if s.isClientConnected then _ else _
    rw [if_pos hc]
    rfl
  mediator := by
    show liveMediator .waiting = if s.isClientConnected then _ else _
    rw [if_pos hc]
    rfl
  loop := fun _ h => by cases h
  registered := hw.registered

theorem wired_disconnect : Wired s.disconnect where
  filterEmitter := rfl
  mediator := rfl
  loop := fun h => by cases h
  registered := rfl

theorem wired_ended (hw : Wired s) (hc : s.isClientConnected = false) :
    Wired { s with loop := .ended } where
  filterEmitter := by
    show s.filterEmitter = if s.isClientConnected then _ else _
    rw [hc, hw.filterEmitter_of_disconnected hc]
    rfl
  mediator := by
    show s.mediator = if s.isClientConnected then _ else _
    rw [hc, hw.mediator_of_disconnected hc]
    rfl
  loop := fun h => by
    have h' : s.isClientConnected = true := h
    rw [hc] at h'
    cases h'
  registered := hw.registered

end Subscription

/-! ## What an action may do -/

namespace Subscription.Action

/-- What an action may log beside deliveries and changes of the cache. -/
def Logs : Action → TraceEvent → Prop
  | .test tx, e => ∃ verdict, e = .tested tx verdict
  | .block b, e => ∃ tx ∈ b.transactions, ∃ verdict, e = .tested tx verdict
  | .instantLock tx _, e => ∃ verdict, e = .tested tx verdict
  | .historicalBlockSent blockHash, e => e = .emitted (.historicalBlockSent blockHash)
  | .historicalDataSent, e => e = .emitted .historicalDataSent
  | .memPoolDataSent, e => e = .emitted .memPoolDataSent
  | .clientDisconnected, e => e = .emitted .clientDisconnected
  | .sendHistorical response, e => e = .sentHistorical response
  | _, _ => False

/-- The transactions that an action may add to the cache. -/
def Adds : Action → Transaction → Prop
  | .matched tx, tx' => tx' = tx
  | .test tx, tx' => tx' = tx
  | .block b, tx' => tx' ∈ b.transactions
  | _, _ => False

/-- The lock that an action may emit on arrival. -/
def Sends : Action → InstantLock → Prop
  | .instantLock _ lock, lock' => lock' = lock
  | _, _ => False

/-- The actions that may run an iteration of the loop. -/
def Iterates : Action → Prop
  | .memPoolDataSent | .wakeUp => True
  | _ => False

end Subscription.Action

/-- The events that are about neither a delivery nor the cache. -/
def TraceEvent.Quiet : TraceEvent → Prop
  | .tested _ _ => True
  | .emitted event => ¬ event.IsData
  | .sentHistorical _ => True
  | _ => False

/-- What a step may tell besides emissions and responses is quiet. -/
theorem Subscription.Action.Logs.quiet {a : Subscription.Action} {e : TraceEvent}
    (h : a.Logs e) : e.Quiet := by
  cases a with
  | test tx =>
      obtain ⟨verdict, rfl⟩ := h
      trivial
  | block block =>
      obtain ⟨tx, -, verdict, rfl⟩ := h
      trivial
  | instantLock tx lock =>
      obtain ⟨verdict, rfl⟩ := h
      trivial
  | matched tx => exact h.elim
  | wakeUp => exact h.elim
  | sendHistorical response =>
      obtain rfl : e = _ := h
      trivial
  | _ =>
      obtain rfl : e = _ := h
      exact id

/-! ## The changes that an action is made of -/

namespace Subscription

variable {F : Type}

/-- The changes that the listeners make during an action, one at a time, each with what it
requires of the state; the addition of a block, the last one of its action, is apart. -/
inductive Change (env : Environment F) (a : Action) (s : Subscription F) : Subscription F → Prop
  | logged (e : TraceEvent) (ha : a.Logs e) (htest : ∀ tx verdict, e ≠ .tested tx verdict) :
    Change env a s (s.log [e])
  | tested (tx : Transaction) (ha : ∀ verdict, a.Logs (.tested tx verdict)) :
    Change env a s (s.testTransaction env tx).2
  | stored (tx : Transaction) (ha : a.Adds tx) (hc : s.isClientConnected = true) :
    Change env a s (s.storeTransaction tx)
  | blockRemoved (blockHash : Hash) (ha : a = .historicalBlockSent blockHash)
    (hc : s.isClientConnected = true) : Change env a s (s.removeHistoricalBlock blockHash)
  | lockStored (lock : InstantLock) (ha : a.Sends lock) (hc : s.isClientConnected = true)
    (hl : s.loop = .notStarted) :
    Change env a s { s with cache := s.cache.addInstantLock lock }
  | lockSent (lock : InstantLock) (ha : a.Sends lock) (hc : s.isClientConnected = true)
    (hl : s.loop ≠ .notStarted) (hwait : s.cache.isInInstantLockCache lock.txid = true) :
    Change env a s ({ s with
      cache := s.cache.removeTransactionHashFromInstantSendLockWaitingList lock.txid }.log
        (deliveryEvents (.instantLock lock)))
  | loopStarted (ha : a = .memPoolDataSent) (hc : s.isClientConnected = true)
    (hl : s.loop = .notStarted) : Change env a s (s.loopStarted.log s.cache.iterationEvents)
  | iterated (ha : a = .wakeUp) (hc : s.isClientConnected = true) (hl : s.loop = .waiting) :
    Change env a s ({ s with cache := s.cache.drained }.log s.cache.iterationEvents)
  | loopEnded (ha : a = .wakeUp) (hc : s.isClientConnected = false) (hl : s.loop = .waiting) :
    Change env a s { s with loop := .ended }
  | disconnected (ha : a = .clientDisconnected) (hc : s.isClientConnected = true) :
    Change env a s s.disconnect

/-- Every change that the action is made of keeps `I`. -/
def Keeps (env : Environment F) (a : Action) (I : Subscription F → Prop) : Prop :=
  ∀ ⦃s s' : Subscription F⦄, Wired s → I s → Change env a s s' → I s'

variable {env : Environment F} {a : Action} {s s' : Subscription F}
  {I J : Subscription F → Prop}

/-- **Every change keeps the listeners as they should be.** -/
theorem Change.wired (hw : Wired s) (h : Change env a s s') : Wired s' := by
  cases h with
  | loopStarted _ hc hl => exact (wired_loopStarted hw hc).congr rfl
  | loopEnded _ hc hl => exact wired_ended hw hc
  | disconnected _ hc => exact wired_disconnect
  | _ => exact hw.congr rfl

namespace Keeps

/-- An invariant that a test and a new transaction keep is kept by the test of a transaction. -/
theorem testBody (hI : Keeps env a I) (hw : Wired s) {tx : Transaction}
    (hlogs : ∀ verdict, a.Logs (.tested tx verdict)) (hadds : a.Adds tx) (h : I s) :
    I (s.testBody env tx).2 := by
  have htested : I (s.testTransaction env tx).2 := hI hw h (.tested tx hlogs)
  rw [testBody_snd env hw tx]
  split_ifs with hm
  · exact hI (hw.congr (testTransaction_wiring env tx)) htested (.stored tx hadds hm.2)
  · exact htested

/-- An invariant that the tests of a block and its storage keep is kept by the block. -/
theorem testBlock {block : Block} (hI : Keeps env (.block block) I) (hw : Wired s) (h : I s) :
    I (s.testBlock env block).2 := by
  rw [Subscription.testBlock]
  split_ifs
  · have hbody : ∀ tx ∈ block.transactions, ∀ s₁ : Subscription F, Wired s₁ ∧ I s₁ →
        Wired (s₁.testBody env tx).2 ∧ I (s₁.testBody env tx).2 := by
      rintro tx htx s₁ ⟨hw₁, h₁⟩
      refine ⟨hw₁.congr (testBody_wiring env hw₁ tx), hI.testBody hw₁ ?_ htx h₁⟩
      exact fun verdict => ⟨tx, htx, verdict, rfl⟩
    exact (forEach_invariant hbody ⟨hw, h⟩).2
  · exact h

/-- The tests of a block change no registration. -/
theorem testBlock_wiring (hw : Wired s) (block : Block) :
    (s.testBlock env block).2.wiring = s.wiring := by
  have hkeeps : Keeps env (.block block) fun s₁ => s₁.wiring = s.wiring := by
    intro s₁ s₂ _ h hchange
    cases hchange with
    | loopStarted ha => cases ha
    | loopEnded ha => cases ha
    | disconnected ha => cases ha
    | _ => exact h
  exact hkeeps.testBlock hw rfl

/-- **Rule for an action.**  What its changes keep, it keeps; `J` holds once a block was added, and
is no stronger otherwise. -/
theorem step (hI : Keeps env a I) (hIJ : ∀ {s₁}, I s₁ → J s₁) (hw : Wired s)
    (hblock : ∀ block, a = .block block → ∀ {s₁ : Subscription F}, s₁.isClientConnected = true →
      I s₁ → J (s₁.addBlock env block)) (h : I s) : J (Subscription.step env s a) := by
  cases a with
  | matched tx =>
      show J (s.emitMatched tx)
      rw [emitMatched_eq hw]
      split_ifs with hc
      · exact hIJ (hI hw h (.stored tx rfl hc))
      · exact hIJ h
  | test tx => exact hIJ (hI.testBody hw (fun verdict => ⟨verdict, rfl⟩) rfl h)
  | block block =>
      show J (s.emitBlock env block).2
      rw [emitBlock_eq env hw]
      split_ifs with hc
      · have h₁ : I (s.testBlock env block).2 := hI.testBlock hw h
        have hc₁ : (s.testBlock env block).2.isClientConnected = true :=
          (congrArg Wiring.isClientConnected (testBlock_wiring hw block)).trans hc
        rw [storeBlock]
        -- an exception of a test keeps the block from being added
        rcases hr : s.testBlock env block with ⟨_ | _, s₁⟩ <;> rw [hr] at h₁ hc₁
        · exact hIJ h₁
        · exact hblock block rfl hc₁ h₁
      · exact hIJ h
  | instantLock tx lock =>
      show J (s.emitInstantLock env tx lock).2
      rw [emitInstantLock_eq env hw]
      split_ifs with hc hl
      · have h₁ : I (s.testTransaction env tx).2 :=
          hI hw h (.tested tx fun verdict => ⟨verdict, rfl⟩)
        have hw₁ : Wired (s.testTransaction env tx).2 := hw.congr (testTransaction_wiring env tx)
        have hlock : I { (s.testTransaction env tx).2 with
            cache := (s.testTransaction env tx).2.cache.addInstantLock lock } :=
          hI hw₁ h₁ (.lockStored lock rfl hc hl)
        rw [preMempoolSentInstantLockListener]
        rcases hr : s.testTransaction env tx with ⟨_ | _ | _, s₁⟩ <;> rw [hr] at h₁ hlock
        · exact hIJ h₁
        · exact hIJ h₁
        · exact hIJ hlock
      · show J (s.sendInstantLock lock)
        rw [sendInstantLock_eq (hw.mediator_of_connected hc)]
        split_ifs with hwait
        · exact hIJ (hI hw h (.lockSent lock rfl hc hl hwait))
        · exact hIJ h
      · exact hIJ h
  | historicalBlockSent blockHash =>
      have hlog : I (s.log [.emitted (.historicalBlockSent blockHash)]) :=
        hI hw h (.logged _ rfl fun _ _ he => by cases he)
      have hw₁ : Wired (s.log [.emitted (.historicalBlockSent blockHash)]) := hw.congr rfl
      show J (s.emit (.historicalBlockSent blockHash))
      rw [emit_historicalBlockSent hw]
      split_ifs with hc
      · exact hIJ (hI hw₁ hlog (.blockRemoved blockHash rfl hc))
      · exact hIJ hlog
  | historicalDataSent =>
      show J (s.emit .historicalDataSent)
      rw [emit_historicalDataSent hw]
      exact hIJ (hI hw h (.logged _ rfl fun _ _ he => by cases he))
  | memPoolDataSent =>
      have hlog : I (s.log [.emitted .memPoolDataSent]) :=
        hI hw h (.logged _ rfl fun _ _ he => by cases he)
      have hw₁ : Wired (s.log [.emitted .memPoolDataSent]) := hw.congr rfl
      show J (s.emit .memPoolDataSent)
      rw [emit_memPoolDataSent hw]
      split_ifs with hstart
      · have hstarted := hI hw₁ hlog (.loopStarted rfl hstart.1 hstart.2)
        have heq : s.loopStarted.log (.emitted .memPoolDataSent :: s.cache.iterationEvents) =
            (s.loopStarted.log [.emitted .memPoolDataSent]).log s.cache.iterationEvents :=
          (log_log [.emitted .memPoolDataSent] s.cache.iterationEvents).symm
        rw [heq]
        exact hIJ hstarted
      · exact hIJ hlog
  | clientDisconnected =>
      have hlog : I (s.log [.emitted .clientDisconnected]) :=
        hI hw h (.logged _ rfl fun _ _ he => by cases he)
      have hw₁ : Wired (s.log [.emitted .clientDisconnected]) := hw.congr rfl
      show J (s.emit .clientDisconnected)
      rw [emit_clientDisconnected hw]
      split_ifs with hc
      · exact hIJ (hI hw₁ hlog (.disconnected rfl hc))
      · exact hIJ hlog
  | wakeUp =>
      show J (if s.loop = .waiting then s.continueLoop else s)
      split_ifs with hl
      · rw [continueLoop_waiting hw hl]
        split_ifs with hc
        · exact hIJ (hI hw h (.iterated rfl hc hl))
        · exact hIJ (hI hw h (.loopEnded rfl (Bool.not_eq_true _ ▸ hc) hl))
      · exact hIJ h
  | sendHistorical response =>
      exact hIJ (hI hw h (.logged _ rfl fun _ _ he => by cases he))

end Keeps

/-! ## Every run is wired -/

variable (env)

/-- **Every action keeps the listeners as they should be.** -/
theorem Wired.step (hw : Wired s) (a : Action) : Wired (step env s a) := by
  have hkeeps : Keeps env a Wired := fun _ _ hw₁ _ h => h.wired hw₁
  exact hkeeps.step id hw (fun _ _ _ _ h => h.congr rfl) hw

/-- **The listeners are where they should be**, after every run. -/
theorem run_wired (filter : F) (as : List Action) : Wired (run env (start filter) as) :=
  Machine.run_invariant (fun _ a hw => hw.step env a) (wired_start filter) as

/-- The registrations change in three actions only. -/
theorem step_wiring (hw : Wired s) {a : Action} (hmem : a ≠ .memPoolDataSent)
    (hdisc : a ≠ .clientDisconnected) (hwake : a ≠ .wakeUp) :
    (step env s a).wiring = s.wiring := by
  have hkeeps : Keeps env a fun s₁ => s₁.wiring = s.wiring := by
    intro s₁ s₂ _ h hchange
    cases hchange with
    | loopStarted ha => exact absurd ha hmem
    | loopEnded ha => exact absurd ha hwake
    | disconnected ha => exact absurd ha hdisc
    | _ => exact h
  exact hkeeps.step id hw (fun _ _ _ _ h => h) rfl

end Subscription

/-! ## Invariants of the cache and the trace -/

/-- What an invariant of the cache and the trace has to be kept by during the action `a`, the
addition of a block apart. -/
structure Preserves (a : Subscription.Action)
    (I : TransactionHashesCache → List TraceEvent → Prop) : Prop where
  logs : ∀ {c t} {e : TraceEvent}, a.Logs e → I c t → I c (t ++ [e])
  addTransaction : ∀ {c t} {tx : Transaction}, a.Adds tx → I c t →
    I (c.addTransaction tx).2 (t ++ c.addTransactionEvents tx)
  removeDataByBlockHash : ∀ {c t} {blockHash : Hash}, a = .historicalBlockSent blockHash →
    I c t → I (c.removeDataByBlockHash blockHash) (t ++ c.removeDataByBlockHashEvents blockHash)
  addInstantLock : ∀ {c t} (lock : InstantLock), I c t → I (c.addInstantLock lock) t
  sendInstantLock : ∀ {c t} {lock : InstantLock}, a.Sends lock →
    c.isInInstantLockCache lock.txid = true → I c t →
      I (c.removeTransactionHashFromInstantSendLockWaitingList lock.txid)
        (t ++ deliveryEvents (.instantLock lock))
  iteration : ∀ {c t}, a.Iterates → I c t → I c.drained (t ++ c.iterationEvents)

namespace Preserves

open Subscription

variable {F : Type} {env : Environment F} {s : Subscription F}
  {I J : TransactionHashesCache → List TraceEvent → Prop}

/-- The subscription satisfies `I`. -/
abbrev Holds (I : TransactionHashesCache → List TraceEvent → Prop) (s : Subscription F) : Prop :=
  I s.cache s.trace

/-- An invariant of the cache and the trace is kept by the changes. -/
theorem keeps {a : Action} (hI : Preserves a I) : Keeps env a (Holds (F := F) I) := by
  intro s₁ s₂ _ h hchange
  cases hchange with
  | logged e ha => exact hI.logs ha h
  | tested tx ha => exact hI.logs (ha _) h
  | stored tx ha => exact hI.addTransaction ha h
  | blockRemoved blockHash ha => exact hI.removeDataByBlockHash ha h
  | lockStored lock ha => exact hI.addInstantLock lock h
  | lockSent lock ha hc hl hwait => exact hI.sendInstantLock ha hwait h
  | loopStarted ha => exact hI.iteration (by rw [ha]; trivial) h
  | iterated ha => exact hI.iteration (by rw [ha]; trivial) h
  | loopEnded => exact h
  | disconnected => exact h

/-- A preserved invariant is kept by a block. -/
theorem testBlock {block : Block} (hI : Preserves (.block block) I) (hw : Wired s)
    (h : Holds I s) : Holds I (s.testBlock env block).2 :=
  hI.keeps.testBlock hw h

/-- **Step rule.**  An invariant that is preserved, and is `J` once a block was added, is `J` after
any action, `J` being no stronger otherwise. -/
theorem step {a : Action} (hI : Preserves a I) (hIJ : ∀ {c t}, I c t → J c t) (hw : Wired s)
    (hblock : ∀ block, a = .block block → ∀ {c t}, I c t →
      J (c.addBlock env.build block) (t ++ c.addBlockEvents env.build block))
    (h : Holds I s) : Holds J (step env s a) :=
  hI.keeps.step (J := Holds J) hIJ hw (fun block ha _ _ h₁ => hblock block ha h₁) h

/-- **Run rule**, for an invariant that blocks preserve as well. -/
theorem run (hI : ∀ a, Preserves a I)
    (hblock : ∀ block {c t}, I c t →
      I (c.addBlock env.build block) (t ++ c.addBlockEvents env.build block))
    (h0 : I .new []) (filter : F) (as : List Action) :
    Holds I (run env (start filter) as) := by
  have hstep : ∀ (s₁ : Subscription F) (a : Action), Wired s₁ ∧ Holds I s₁ →
      Wired (Subscription.step env s₁ a) ∧ Holds I (Subscription.step env s₁ a) := by
    rintro s₁ a ⟨hw, h⟩
    exact ⟨hw.step env a, (hI a).step id hw (fun block _ => hblock block) h⟩
  exact (Machine.run_invariant hstep ⟨wired_start filter, h0⟩ as).2

end Preserves

/-! ## The cache of a subscription -/

/-- The cache is reached by operations of the cache. -/
def TransactionHashesCache.Reached (build : MerkleBlockBuild) (cache : TransactionHashesCache) :
    Prop :=
  ∃ ops, cache = TransactionHashesCache.run build .new ops

/-- One more operation on a reached cache. -/
theorem TransactionHashesCache.Reached.apply {build : MerkleBlockBuild}
    {cache : TransactionHashesCache} (h : cache.Reached build) (op : CacheOp) :
    (cache.apply build op).Reached build := by
  obtain ⟨ops, rfl⟩ := h
  exact ⟨ops ++ [op], (Machine.run_append (TransactionHashesCache.apply build) _ ops [op]).symm⟩

/-- **A subscription uses its cache through the operations only**, so that what holds in every
run of the cache holds of the cache of a subscription. -/
theorem Subscription.cache_reached {F : Type} (env : Environment F) (filter : F)
    (as : List Subscription.Action) :
    (Subscription.run env (.start filter) as).cache.Reached env.build := by
  have hI : ∀ a : Subscription.Action, Preserves a (fun c _ => c.Reached env.build) := by
    intro a
    constructor
    · exact fun _ h => h
    · exact fun _ h => h.apply (.addTransaction _)
    · exact fun _ h => h.apply (.removeDataByBlockHash _)
    · exact fun _ h => h.apply (.addInstantLock _)
    · exact fun _ _ h => h.apply (.removeTransactionHashFromInstantSendLockWaitingList _)
    · intro c t _ h
      exact ((h.apply .getUnretrievedTransactions).apply .getUnretrievedInstantLocks).apply
        .getUnretrievedMerkleBlocks
  exact Preserves.run hI (fun _ _ _ h => h.apply (.addBlock _)) ⟨[], rfl⟩ filter as

/-! ## What a step adds to the log -/

namespace Subscription

variable {F : Type} {env : Environment F} {s : Subscription F}

/-- A delivery emits its own event. -/
theorem emitted_mem_deliveryEvents {event event' : MediatorEvent} :
    TraceEvent.emitted event ∈ deliveryEvents event' ↔ event = event' := by
  cases event' <;> simp [deliveryEvents]

/-- A round of the loop emits what is due. -/
theorem emitted_mem_iterationEvents {c : TransactionHashesCache} {event : MediatorEvent} :
    TraceEvent.emitted event ∈ c.iterationEvents ↔ event ∈ c.iterationEmits := by
  rw [TransactionHashesCache.iterationEvents, List.mem_append, List.mem_flatMap]
  constructor
  · rintro (⟨event', hmem, he⟩ | he)
    · rwa [emitted_mem_deliveryEvents.mp he]
    · cases List.mem_singleton.mp he
  · intro hmem
    exact Or.inl ⟨event, hmem, emitted_mem_deliveryEvents.mpr rfl⟩

/-- The locks of an iteration are the stored ones whose transaction waits. -/
theorem instantLock_mem_iterationEvents {c : TransactionHashesCache} {lock : InstantLock} :
    .emitted (.instantLock lock) ∈ c.iterationEvents ↔
      lock ∈ c.unretrievedInstantLocks.values ∧ c.isInInstantLockCache lock.txid = true := by
  rw [emitted_mem_iterationEvents, TransactionHashesCache.iterationEmits,
    TransactionHashesCache.sendableInstantLocks]
  simp [List.mem_filter]

/-- The log only grows. -/
theorem trace_prefix_step (hw : Wired s) (a : Action) : s.trace <+: (step env s a).trace := by
  have hI : Preserves a (fun _ t => s.trace <+: t) := by
    constructor
    · exact fun _ h => h.trans (List.prefix_append _ _)
    · exact fun _ h => h.trans (List.prefix_append _ _)
    · exact fun _ h => h.trans (List.prefix_append _ _)
    · exact fun _ h => h
    · exact fun _ _ h => h.trans (List.prefix_append _ _)
    · exact fun _ h => h.trans (List.prefix_append _ _)
  exact hI.step id hw (fun _ _ _ _ h => h.trans (List.prefix_append _ _)) (List.prefix_refl _)

/-- Only the loop and an arriving lock emit events with data. -/
theorem emitted_step_iff (hw : Wired s) {a : Action} (hsends : ∀ lock, ¬ a.Sends lock)
    (hiter : ¬ a.Iterates) {event : MediatorEvent} (hd : event.IsData) :
    .emitted event ∈ (step env s a).trace ↔ .emitted event ∈ s.trace := by
  have hI : Preserves a (fun _ t => .emitted event ∈ t → .emitted event ∈ s.trace) := by
    constructor
    · intro c t e hlogs h hmem
      rcases List.mem_append.mp hmem with hmem | hmem
      · exact h hmem
      · rw [← List.mem_singleton.mp hmem] at hlogs
        exact absurd hd hlogs.quiet
    · intro c t tx _ h hmem
      refine h ((List.mem_append.mp hmem).resolve_right fun he => ?_)
      cases eq_of_mem_addTransactionEvents he
    · intro c t blockHash _ h hmem
      refine h ((List.mem_append.mp hmem).resolve_right fun he => ?_)
      obtain ⟨_, heq⟩ := exists_of_mem_removeDataByBlockHashEvents he
      cases heq
    · exact fun _ h => h
    · exact fun hs _ _ => absurd hs (hsends _)
    · exact fun hi _ => absurd hi hiter
  constructor
  · refine hI.step id hw ?_ id
    intro block _ c t h hmem
    refine h ((List.mem_append.mp hmem).resolve_right fun he => ?_)
    rcases cases_of_mem_addBlockEvents he with ⟨_, _, heq⟩ | ⟨_, heq⟩
    · cases heq
    · cases heq
  · exact fun hmem => (trace_prefix_step hw a).subset hmem

end Subscription

end Dapi
