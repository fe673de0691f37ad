/-
# Locks and their transactions

The loop sends the transactions of an iteration before the instant locks that were
collected, but a lock that arrives once the loop runs is sent right away, when its
transaction may still wait for the next iteration.

* `Ordered` is the invariant: what is on the waiting list is cached, was emitted, or
  was removed, and a cached transaction that was not handed out entered the cache
  after the last iteration.
* `locks_in_order`: a lock is emitted after its transaction was emitted or removed,
  unless it arrives while the loop runs and the transaction entered the cache after the
  last iteration.
-/
import Dapi.SubscriptionDelivery

namespace Dapi

open TransactionHashesCache Subscription Trace

variable {F : Type} (env : Environment F)
  {c c' : TransactionHashesCache} {t es : List TraceEvent} {h : Hash}

/-! ## What a lock comes after -/

/-- The data of a block with the transaction was removed from the cache, for one of the reasons
that `removed` looks at. -/
def RemovedTransaction (removed : TraceEvent → Option Block) (t : List TraceEvent) (h : Hash) :
    Prop :=
  ∃ e ∈ t, ∃ block, removed e = some block ∧ h ∈ block.transactionHashes

/-- The transaction was emitted or removed. -/
def Settled (removed : TraceEvent → Option Block) (t : List TraceEvent) (h : Hash) : Prop :=
  EmittedTransaction t h ∨ RemovedTransaction removed t h

/-- The transaction entered the cache, and no iteration ended since. -/
def AddedSinceIteration (t : List TraceEvent) (h : Hash) : Prop :=
  ∃ tx : Transaction, tx.hash = h ∧
    Outstanding (fun a _ => a = .iterationEnded) t (.transactionAdded tx)

/-- Every emitted lock comes after its transaction was settled. -/
def LockAfterTransaction (removed : TraceEvent → Option Block) (past : List TraceEvent)
    (e : TraceEvent) : Prop :=
  ∀ lock, e = .emitted (.instantLock lock) → Settled removed past lock.txid

/-- The same, unless the loop ran before and the transaction entered the cache after its last
iteration. -/
def LockInOrder (removed : TraceEvent → Option Block) (past : List TraceEvent) (e : TraceEvent) :
    Prop :=
  ∀ lock, e = .emitted (.instantLock lock) →
    Settled removed past lock.txid ∨
      (.iterationEnded ∈ past ∧ AddedSinceIteration past lock.txid)

/-- What is settled stays settled. -/
theorem Settled.append {removed : TraceEvent → Option Block} (hs : Settled removed t h) :
    Settled removed (t ++ es) h := by
  rcases hs with he | ⟨e, he, hrem⟩
  · exact Or.inl he.append
  · exact Or.inr ⟨e, List.mem_append_left _ he, hrem⟩

/-- What was removed later was removed. -/
theorem RemovedTransaction.append_left {removed : TraceEvent → Option Block}
    (hr : RemovedTransaction removed es h) : RemovedTransaction removed (t ++ es) h := by
  obtain ⟨e, he, hrem⟩ := hr
  exact ⟨e, List.mem_append_right _ he, hrem⟩

/-- Until the next round ends, it was added since the last one. -/
theorem AddedSinceIteration.append (ha : AddedSinceIteration t h) (hend : .iterationEnded ∉ es) :
    AddedSinceIteration (t ++ es) h := by
  obtain ⟨tx, hh, ho⟩ := ha
  refine ⟨tx, hh, outstanding_append.mpr (Or.inl ⟨ho, ?_⟩)⟩
  rintro a hmem rfl
  exact hend hmem

/-! ## The invariant -/

/-- The waiting list, the cached transactions and the log belong together. -/
structure Ordered (c : TransactionHashesCache) (t : List TraceEvent) : Prop where
  retrieved : RetrievedEmitted c t
  fresh : ∀ e ∈ c.transactions, e.isRetrieved = false → AddedSinceIteration t e.value.hash
  waiting : ∀ h, c.isInInstantLockCache h = true →
    h ∈ c.cacheTransactionHashes ∨ Settled removedBlock t h
  order : Always (LockInOrder removedBlock) t

/-- An empty cache is in order. -/
theorem ordered_new : Ordered .new [] := by
  refine ⟨?_, ?_, ?_, always_nil _⟩
  · intro e he
    cases he
  · intro e he
    cases he
  · intro h hw
    cases hw

/-- A lock may be emitted for what is on the waiting list, while the loop runs. -/
theorem Ordered.lockInOrder (ho : Ordered c t) (hlive : .iterationEnded ∈ t) {lock : InstantLock}
    (hw : c.isInInstantLockCache lock.txid = true) :
    LockInOrder removedBlock t (.emitted (.instantLock lock)) := by
  rintro lock' heq
  obtain rfl : lock = lock' := by simpa using heq
  rcases ho.waiting _ hw with hcached | hsettled
  · obtain ⟨e, he, hh⟩ := mem_cacheTransactionHashes.mp hcached
    cases hr : e.isRetrieved with
    | true =>
        have hemitted := ho.retrieved e he hr
        rw [hh] at hemitted
        exact Or.inl (Or.inl hemitted)
    | false =>
        have hadded := ho.fresh e he hr
        rw [hh] at hadded
        exact Or.inr ⟨hlive, hadded⟩
  · exact Or.inl hsettled

/-- No transaction enters the cache or the waiting list, and one that leaves the cache was
removed. -/
theorem Ordered.append (ho : Ordered c t) (hsub : ∀ e ∈ c'.transactions, e ∈ c.transactions)
    (hgone : ∀ e ∈ c.transactions, e ∉ c'.transactions →
      RemovedTransaction removedBlock es e.value.hash)
    (hwait : ∀ h, c'.isInInstantLockCache h = true → c.isInInstantLockCache h = true)
    (hend : .iterationEnded ∉ es)
    (horder : Always (fun past e => LockInOrder removedBlock (t ++ past) e) es) :
    Ordered c' (t ++ es) := by
  refine ⟨?_, ?_, ?_, always_append.mpr ⟨ho.order, horder⟩⟩
  · exact ho.retrieved.append fun e he => Or.inl (hsub e he)
  · exact fun e he hr => (ho.fresh e (hsub e he) hr).append hend
  · intro h hw
    rcases ho.waiting h (hwait h hw) with hcached | hsettled
    · obtain ⟨e, he, rfl⟩ := mem_cacheTransactionHashes.mp hcached
      by_cases hstays : e ∈ c'.transactions
      · exact Or.inl (mem_cacheTransactionHashes.mpr ⟨e, hstays, rfl⟩)
      · exact Or.inr (Or.inr (hgone e he hstays).append_left)
    · exact Or.inr hsettled.append

/-- No lock is among the events. -/
theorem always_lockInOrder_of_forall_mem (hes : ∀ lock, .emitted (.instantLock lock) ∉ es) :
    Always (fun past e => LockInOrder removedBlock (t ++ past) e) es :=
  always_of_forall_mem fun _ he _ lock heq => absurd (heq ▸ he) (hes lock)

/-- The same when the cached transactions stay as they are. -/
theorem Ordered.append_of_eq (ho : Ordered c t) (htx : c'.transactions = c.transactions)
    (hwait : ∀ h, c'.isInInstantLockCache h = true → c.isInInstantLockCache h = true)
    (hend : .iterationEnded ∉ es) (hes : ∀ lock, .emitted (.instantLock lock) ∉ es) :
    Ordered c' (t ++ es) := by
  refine ho.append ?_ ?_ hwait hend (always_lockInOrder_of_forall_mem hes)
  · rw [htx]
    exact fun e he => he
  · rw [htx]
    exact fun e he hnot => absurd he hnot

/-! ## What keeps it -/

/-- A transaction that comes in keeps the order. -/
theorem Ordered.addTransaction (ho : Ordered c t) (tx : Transaction) :
    Ordered (c.addTransaction tx).2 (t ++ c.addTransactionEvents tx) := by
  have hend : .iterationEnded ∉ c.addTransactionEvents tx := by
    intro hmem
    cases eq_of_mem_addTransactionEvents hmem
  refine ⟨?_, ?_, ?_, always_append.mpr ⟨ho.order, ?_⟩⟩
  · exact ho.retrieved.append fun e he => of_mem_addTransaction he
  · intro e he hr
    rw [addTransaction_transactions] at he
    split_ifs at he with hadded
    · rcases List.mem_append.mp he with he | he
      · exact (ho.fresh e he hr).append hend
      · -- the transaction that entered just now
        obtain rfl := List.mem_singleton.mp he
        refine ⟨tx, rfl, ?_⟩
        rw [addTransactionEvents, if_pos hadded, outstanding_snoc]
        exact Or.inr rfl
    · exact (ho.fresh e he hr).append hend
  · intro h hw
    by_cases hh : h = tx.hash
    · rw [hh]
      exact Or.inl (hash_mem_addTransaction tx)
    · have hold : c.isInInstantLockCache h = true := by
        rw [isInInstantLockCache_iff, addTransaction_waiting, if_neg (fun hc => hh hc.1)] at hw
        exact isInInstantLockCache_iff.mpr hw
      rcases ho.waiting h hold with hcached | hsettled
      · obtain ⟨e, he, rfl⟩ := mem_cacheTransactionHashes.mp hcached
        exact Or.inl (mem_cacheTransactionHashes.mpr ⟨e, mem_addTransaction_of_mem he, rfl⟩)
      · exact Or.inr hsettled.append
  · apply always_lockInOrder_of_forall_mem
    intro lock hmem
    cases eq_of_mem_addTransactionEvents hmem

/-- The data of a block goes, for whatever reason it is logged. -/
theorem Ordered.remove (ho : Ordered c t) {block : Block} {e : TraceEvent}
    (he : removedBlock e = some block)
    (htx : c'.transactions = (c.removeDataByBlock block).transactions)
    (hwait : c'.transactionHashesMap = c.transactionHashesMap) : Ordered c' (t ++ [e]) := by
  refine ho.append ?_ ?_ ?_ ?_ (always_lockInOrder_of_forall_mem ?_)
  · intro e' he'
    rw [htx, mem_removeDataByBlock_transactions] at he'
    exact he'.1
  · intro e' he' hnot
    rw [htx, mem_removeDataByBlock_transactions] at hnot
    refine ⟨e, List.mem_singleton_self e, block, he, ?_⟩
    by_contra hout
    exact hnot ⟨he', hout⟩
  · intro h hw
    rwa [isInInstantLockCache, hwait] at hw
  · intro hmem
    rw [← List.mem_singleton.mp hmem] at he
    cases he
  · intro lock hmem
    rw [← List.mem_singleton.mp hmem] at he
    cases he

/-- A block ages the waiting list, and may be pushed. -/
theorem isInInstantLockCache_processBlock
    (hw : c.processBlock.isInInstantLockCache h = true) : c.isInInstantLockCache h = true := by
  obtain ⟨v, hv⟩ := isInInstantLockCache_iff.mp hw
  rw [processBlock_waiting, Option.filter_eq_some_iff] at hv
  exact isInInstantLockCache_iff.mpr ⟨v, hv.1⟩

/-- A block that comes in keeps the order. -/
theorem Ordered.addBlock (ho : Ordered c t) (block : Block) :
    Ordered (c.addBlock env.build block) (t ++ c.addBlockEvents env.build block) := by
  have hwith : Ordered (c.withBlock env.build block)
      (t ++ [.blockAdded block (c.matchedTransactionFlags block)
        (buildMerkleBlock env.build block (c.matchedTransactionFlags block))]) :=
    ho.append_of_eq rfl (fun h hw => isInInstantLockCache_processBlock hw) (by simp) (by simp)
  rcases c.addBlock_cases env.build block with
    ⟨hm, heq⟩ | ⟨hm, hlt, heq⟩ | ⟨hm, hle, firstBlock, rest, hcons, heq⟩
  · rw [heq, addBlockEvents_of_not_matching env.build hm]
    exact ho.append_of_eq rfl (fun h hw => isInInstantLockCache_processBlock hw) (by simp)
      (by simp)
  · rw [heq, addBlockEvents_of_fits env.build hm hlt]
    exact hwith
  · rw [heq, addBlockEvents_of_evicts env.build hm hle hcons, ← List.append_assoc]
    exact hwith.remove rfl rfl rfl

/-- A lock is sent on arrival. -/
theorem Ordered.sendInstantLock (ho : Ordered c t) (hlive : .iterationEnded ∈ t)
    {lock : InstantLock} (hw : c.isInInstantLockCache lock.txid = true) :
    Ordered (c.removeTransactionHashFromInstantSendLockWaitingList lock.txid)
      (t ++ deliveryEvents (.instantLock lock)) := by
  have hkept : ∀ h, (c.removeTransactionHashFromInstantSendLockWaitingList
      lock.txid).isInInstantLockCache h = true → c.isInInstantLockCache h = true := by
    intro h hw'
    obtain ⟨v, hv⟩ := isInInstantLockCache_iff.mp hw'
    rw [removeTransactionHash_waiting] at hv
    split_ifs at hv
    exact isInInstantLockCache_iff.mpr ⟨v, hv⟩
  obtain ⟨transactionHashesMap, heq⟩ := c.removeTransactionHash_eq lock.txid
  rw [heq] at hkept ⊢
  refine ho.append (fun e he => he) (fun e he hnot => absurd he hnot) hkept ?_ ?_
  · intro hmem
    rcases cases_of_mem_deliveryEvents hmem with heq' | ⟨_, heq'⟩
    · cases heq'
    · cases heq'
  · have hpair : deliveryEvents (.instantLock lock) =
        [.emitted (.instantLock lock)] ++ [.sentLive (.instantSendLockMessages [lock])] := rfl
    rw [hpair, always_snoc, ← List.nil_append [TraceEvent.emitted _], always_snoc]
    refine ⟨⟨always_nil _, ?_⟩, ?_⟩
    · rw [List.append_nil]
      exact ho.lockInOrder hlive hw
    · rintro lock' heq'
      cases heq'

/-- **The loop sends the locks after the transactions.** -/
theorem Ordered.iteration_order (ho : Ordered c t) :
    Always (fun past e => LockInOrder removedBlock (t ++ past) e) c.iterationEvents := by
  set first := ((Entry.unretrieved c.transactions).map
    MediatorEvent.transaction).flatMap deliveryEvents with hfirst
  set second := (c.sendableInstantLocks.map MediatorEvent.instantLock ++
    (Entry.unretrieved c.merkleBlocks).map MediatorEvent.merkleBlock).flatMap deliveryEvents ++
      [.iterationEnded] with hsecond
  have hevents : c.iterationEvents = first ++ second := by
    rw [iterationEvents, iterationEmits, hfirst, hsecond]
    simp only [List.flatMap_append, List.append_assoc]
  have htxs : ∀ tx ∈ Entry.unretrieved c.transactions, .emitted (.transaction tx) ∈ first :=
    fun tx htx => emitted_mem_deliveries.mpr (List.mem_map_of_mem htx)
  rw [hevents, always_append]
  constructor
  · apply always_lockInOrder_of_forall_mem
    intro lock hmem
    rw [hfirst, emitted_mem_deliveries] at hmem
    simp at hmem
  · rintro past e rest hsplit lock rfl
    -- the transactions of the iteration were emitted by now
    have hmem : .emitted (.instantLock lock) ∈ c.iterationEvents := by
      rw [hevents, hsplit]
      simp
    rw [← List.append_assoc]
    rcases ho.waiting _ (instantLock_mem_iterationEvents.mp hmem).2 with hcached | hsettled
    · obtain ⟨e, he, hh⟩ := mem_cacheTransactionHashes.mp hcached
      have hemitted := ho.retrieved.emitted_of_cached htxs he
      rw [hh] at hemitted
      exact Or.inl (Or.inl hemitted.append)
    · rw [List.append_assoc]
      exact Or.inl hsettled.append

/-- **A round of the loop keeps the order**: transactions go before locks. -/
theorem Ordered.iteration (ho : Ordered c t) : Ordered c.drained (t ++ c.iterationEvents) := by
  refine ⟨ho.retrieved.iteration, ?_, ?_, always_append.mpr ⟨ho.order, ho.iteration_order⟩⟩
  · intro e he hr
    rw [(Entry.mem_markRetrieved.mp he).1] at hr
    cases hr
  · intro h hw
    rw [cacheTransactionHashes_drained]
    exact (ho.waiting h hw).imp_right Settled.append

/-! ## Every run -/

/-- The listeners keep the order, and once the loop was started an iteration ended. -/
def LiveOrdered (s : Subscription F) : Prop :=
  (s.loop ≠ .notStarted → .iterationEnded ∈ s.trace) ∧ Ordered s.cache s.trace

/-- Every step keeps the order. -/
theorem LiveOrdered.keeps (a : Action) : Keeps env a (LiveOrdered (F := F)) := by
  rintro s₁ s₂ - ⟨hlive, ho⟩ hchange
  -- what is logged stays
  have hkept : ∀ es : List TraceEvent, s₁.loop ≠ .notStarted →
      .iterationEnded ∈ s₁.trace ++ es :=
    fun es hl => List.mem_append_left es (hlive hl)
  have hended : .iterationEnded ∈ s₁.trace ++ s₁.cache.iterationEvents := by
    rw [iterationEvents]
    simp
  cases hchange with
  | logged e ha =>
      have hquiet := ha.quiet
      refine ⟨hkept _, ho.append_of_eq rfl (fun _ hw => hw) ?_ ?_⟩
      · intro hmem
        rw [← List.mem_singleton.mp hmem] at hquiet
        exact hquiet
      · intro lock hmem
        rw [← List.mem_singleton.mp hmem] at hquiet
        exact hquiet trivial
  | tested tx => exact ⟨hkept _, ho.append_of_eq rfl (fun _ hw => hw) (by simp) (by simp)⟩
  | stored tx => exact ⟨hkept _, ho.addTransaction tx⟩
  | blockRemoved blockHash =>
      refine ⟨hkept _, ?_⟩
      show Ordered (s₁.cache.removeDataByBlockHash blockHash)
        (s₁.trace ++ s₁.cache.removeDataByBlockHashEvents blockHash)
      rcases s₁.cache.removeDataByBlockHash_cases blockHash with
        ⟨block, -, -, hf, heq⟩ | ⟨hf, heq⟩
      · rw [heq, removeDataByBlockHashEvents, hf]
        exact ho.remove rfl rfl rfl
      · rw [heq, removeDataByBlockHashEvents, hf]
        exact ho.append_of_eq rfl (fun _ hw => hw) (by simp) (by simp)
  | lockStored lock =>
      have hstored : Ordered (s₁.cache.addInstantLock lock) (s₁.trace ++ []) :=
        ho.append_of_eq rfl (fun _ hw => hw) (by simp) (by simp)
      rw [List.append_nil] at hstored
      exact ⟨hlive, hstored⟩
  | lockSent lock _ _ hl hwait => exact ⟨hkept _, ho.sendInstantLock (hlive hl) hwait⟩
  | loopStarted => exact ⟨fun _ => hended, ho.iteration⟩
  | iterated => exact ⟨fun _ => hended, ho.iteration⟩
  | loopEnded _ _ hl =>
      refine ⟨fun _ => hlive fun hnot => ?_, ho⟩
      rw [hl] at hnot
      cases hnot
  | disconnected => exact ⟨hlive, ho⟩

/-- **Every action keeps the order.** -/
theorem LiveOrdered.step {s : Subscription F} (hw : Wired s) (h : LiveOrdered s) (a : Action) :
    LiveOrdered (step env s a) := by
  refine (LiveOrdered.keeps env a).step id hw ?_ h
  rintro block - s₁ - ⟨hlive, ho⟩
  exact ⟨fun hl => List.mem_append_left _ (hlive hl), ho.addBlock env block⟩

/-- **Locks come in order.**  In every run, `INSTANT_LOCK` is emitted for a transaction only after
the transaction was emitted, or removed from the cache with a block that contains it, or while
the loop runs and the transaction entered the cache after its last iteration. -/
theorem locks_in_order (filter : F) (as : List Action) :
    Always (LockInOrder removedBlock) (run env (start filter) as).trace := by
  have hrun : Wired (run env (start filter) as) ∧ LiveOrdered (run env (start filter) as) := by
    refine Machine.run_invariant (I := fun s : Subscription F => Wired s ∧ LiveOrdered s) ?_ ?_ as
    · rintro s a ⟨hw, h⟩
      exact ⟨hw.step env a, h.step env hw a⟩
    · exact ⟨wired_start filter, fun h => absurd rfl h, ordered_new⟩
  exact hrun.2.2.order

/-- A transaction matches between two iterations and its lock arrives before the next one. -/
def overtakingActions : List Action :=
  [.memPoolDataSent, .matched (bareTransaction [1]), .instantLock (bareTransaction [1]) ⟨[1], [7]⟩,
    .wakeUp]

/-- The hash of the transaction that an event says was emitted. -/
def TraceEvent.emittedHash : TraceEvent → Option Hash
  | .emitted (.transaction tx) => some tx.hash
  | _ => none

/-- A transaction and its block are cached, the transaction leaves the waiting list and enters it
again, its lock is stored, and ten more blocks come before the loop starts. -/
def evictedLockActions : List Action :=
  [.matched (bareTransaction [0]), .block (bareBlock [100] [[0]])] ++
    (List.range 11).map (fun i => Action.block (bareBlock [UInt8.ofNat (200 + i)] [])) ++
    [Action.matched (bareTransaction [0]), .instantLock (bareTransaction [0]) ⟨[0], [7]⟩] ++
    (List.range 10).flatMap (fun i =>
      [Action.matched (bareTransaction [UInt8.ofNat (1 + i)]),
        .block (bareBlock [UInt8.ofNat (101 + i)] [[UInt8.ofNat (1 + i)]])]) ++
    [Action.memPoolDataSent]

/-- A lock is emitted before its transaction, which no historical block took away; and one is
emitted after only the eviction of its transaction. -/
theorem not_locks_in_order_arrival :
    ¬ Always (LockAfterTransaction historicallyRemovedBlock)
        (run acceptAll (start ()) overtakingActions).trace ∧
      ¬ Always (LockInOrder historicallyRemovedBlock)
        (run acceptAll (start ()) evictedLockActions).trace := by
  constructor
  · have htrace : (run acceptAll (start ()) overtakingActions).trace =
        [.emitted .memPoolDataSent, .iterationEnded, .transactionAdded (bareTransaction [1])] ++
          .emitted (.instantLock ⟨[1], [7]⟩) ::
            [.sentLive (.instantSendLockMessages [⟨[1], [7]⟩]),
              .emitted (.transaction (bareTransaction [1])),
              .sentLive (.rawTransactions [bareTransaction [1]]), .iterationEnded] := by
      decide +kernel
    intro h
    rcases h _ _ _ htrace ⟨[1], [7]⟩ rfl with ⟨tx, -, hmem⟩ | ⟨e, he, block, hremoved, -⟩
    · simp at hmem
    · simp only [List.mem_cons, List.not_mem_nil, or_false] at he
      rcases he with rfl | rfl | rfl
      · cases hremoved
      · cases hremoved
      · cases hremoved
  · generalize ht : (run acceptAll (start ()) evictedLockActions).trace = t
    have hsplit : t = t.take 46 ++ .emitted (.instantLock ⟨[0], [7]⟩) :: t.drop 47 := by
      rw [← ht]
      decide +kernel
    intro h
    rcases h _ _ _ hsplit ⟨[0], [7]⟩ rfl with
      (⟨tx, hh, hmem⟩ | ⟨e, he, block, hremoved, -⟩) | ⟨hended, -⟩
    · have hother : ∀ e ∈ t.take 46, e.emittedHash ≠ some [0] := by
        rw [← ht]
        decide +kernel
      exact hother _ hmem (congrArg some hh)
    · have hnone : ∀ e ∈ t.take 46, historicallyRemovedBlock e = none := by
        rw [← ht]
        decide +kernel
      rw [hnone e he] at hremoved
      cases hremoved
    · revert hended
      rw [← ht]
      decide +kernel

end Dapi
