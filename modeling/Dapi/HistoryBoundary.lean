/-
# From history to live data

The handler sends the history block by block while notifications already fill the
cache of the subscription.  After each block it emits `HISTORICAL_BLOCK_SENT`, whose
listener is there for "removing sent transactions and blocks from cache".  It can
only remove a block that is in the cache at that moment; what comes later is sent twice.

* `Ledger` is what the log says was written from the history and settled by
  `HISTORICAL_BLOCK_SENT` since.
* `Timely` says when a step leaves nothing in the cache that was settled: the block of every
  written transaction that is cached is cached too when `HISTORICAL_BLOCK_SENT`
  is emitted, and notifications bring nothing that is settled already.
* `Apart` is the invariant of timely runs: cache and settled data are disjoint,
  and so are emitted and settled data.
* `no_duplicate_across_boundary`: in every run of the system, a call whose steps are
  timely sends nothing twice across the boundary.
-/
import Dapi.CallLifecycle
import Dapi.CacheAlignment

namespace Dapi

open TransactionHashesCache

/-! ## The ledger -/

namespace TraceEvent

/-- The transactions of a historical response. -/
def writtenTransactions : TraceEvent → List Hash
  | sentHistorical (.rawTransactions txs) => txs.map Transaction.hash
  | _ => []

/-- The block of a historical response. -/
def writtenBlocks : TraceEvent → List Hash
  | sentHistorical (.rawMerkleBlock merkleBlock) => [merkleBlock.header.hash]
  | _ => []

/-- The block that `HISTORICAL_BLOCK_SENT` is emitted for. -/
def settledBlocks : TraceEvent → List Hash
  | emitted (.historicalBlockSent blockHash) => [blockHash]
  | _ => []

end TraceEvent

/-- What was sent from the history: the hashes of all transactions and blocks written, the blocks
for which `HISTORICAL_BLOCK_SENT` was emitted, and the transactions written before. -/
structure Ledger where
  written : List Hash
  writtenBlocks : List Hash
  settled : List Hash
  settledBlocks : List Hash

namespace Ledger

/-- An event is entered into the ledger. -/
def record (l : Ledger) (e : TraceEvent) : Ledger where
  written := l.written ++ e.writtenTransactions
  writtenBlocks := l.writtenBlocks ++ e.writtenBlocks
  settled := if e.settledBlocks = [] then l.settled else l.written
  settledBlocks := l.settledBlocks ++ e.settledBlocks

/-- The ledger of a log. -/
def of (t : List TraceEvent) : Ledger := t.foldl record ⟨[], [], [], []⟩

/-- The ledger takes the events one by one. -/
theorem of_snoc (t : List TraceEvent) (e : TraceEvent) : of (t ++ [e]) = (of t).record e :=
  List.foldl_append

/-- What is written is told by the trace. -/
theorem of_written (t : List TraceEvent) :
    (of t).written = t.flatMap TraceEvent.writtenTransactions := by
  induction t using List.reverseRecOn with
  | nil => rfl
  | append_singleton t e ih =>
      rw [of_snoc, record, ih, List.flatMap_append, List.flatMap_singleton]

theorem of_writtenBlocks (t : List TraceEvent) :
    (of t).writtenBlocks = t.flatMap TraceEvent.writtenBlocks := by
  induction t using List.reverseRecOn with
  | nil => rfl
  | append_singleton t e ih =>
      rw [of_snoc, record, ih, List.flatMap_append, List.flatMap_singleton]

end Ledger

/-- The event has nothing to do with the history. -/
def TraceEvent.Unentered (e : TraceEvent) : Prop :=
  e.writtenTransactions = [] ∧ e.writtenBlocks = [] ∧ e.settledBlocks = []

namespace Ledger

theorem record_of_unentered {e : TraceEvent} (h : e.Unentered) (l : Ledger) :
    l.record e = l := by
  obtain ⟨hw, hb, hs⟩ := h
  rw [record, hw, hb, hs, List.append_nil, List.append_nil, List.append_nil, if_pos rfl]

/-- What is written is not settled yet. -/
theorem record_sentHistorical (l : Ledger) (response : Response) :
    l.record (.sentHistorical response) =
      { l with
        written := l.written ++ (TraceEvent.sentHistorical response).writtenTransactions
        writtenBlocks :=
          l.writtenBlocks ++ (TraceEvent.sentHistorical response).writtenBlocks } := by
  have hnone : (TraceEvent.sentHistorical response).settledBlocks = [] := rfl
  rw [record, hnone, if_pos rfl, List.append_nil]

theorem of_append_of_unentered {t es : List TraceEvent} (h : ∀ e ∈ es, e.Unentered) :
    of (t ++ es) = of t := by
  induction es using List.reverseRecOn with
  | nil => rw [List.append_nil]
  | append_singleton es e ih =>
      rw [← List.append_assoc, of_snoc, record_of_unentered (h e (by simp)),
        ih fun e' he' => h e' (by simp [he'])]

end Ledger

/-! ## Cache and settled data apart -/

/-- Nothing that is settled is in the cache or was emitted. -/
structure Apart (settled settledBlocks announced : List Hash) (cache : TransactionHashesCache)
    (t : List TraceEvent) : Prop where
  aligned : Aligned cache
  announced : ∀ h ∈ cache.blockHashes, h ∈ announced
  transactions : ∀ h ∈ cache.cacheTransactionHashes, h ∉ settled
  blocks : ∀ h ∈ cache.blockHashes, h ∉ settledBlocks
  emittedTransactions : ∀ tx, .emitted (.transaction tx) ∈ t → tx.hash ∉ settled
  emittedMerkleBlocks : ∀ merkleBlock, .emitted (.merkleBlock merkleBlock) ∈ t →
    merkleBlock.header.hash ∉ settledBlocks

namespace Apart

variable {settled settledBlocks announced : List Hash} {c c' : TransactionHashesCache}
  {t es : List TraceEvent}

/-- Nothing is written, and nothing cached. -/
theorem new : Apart [] [] [] TransactionHashesCache.new [] where
  aligned := aligned_new
  announced := fun _ h => by cases h
  transactions := fun _ h => by cases h
  blocks := fun _ h => by cases h
  emittedTransactions := fun _ h => by cases h
  emittedMerkleBlocks := fun _ h => by cases h

theorem mono {announced' : List Hash} (h : Apart settled settledBlocks announced c t)
    (hsub : ∀ b ∈ announced, b ∈ announced') : Apart settled settledBlocks announced' c t :=
  { h with announced := fun b hb => hsub b (h.announced b hb) }

/-- A change of the cache that adds no block and no transaction, with events that emit nothing. -/
theorem congr (h : Apart settled settledBlocks announced c t)
    (haligned : Aligned c') (hblocks : ∀ b ∈ c'.blockHashes, b ∈ c.blockHashes)
    (htransactions : ∀ b ∈ c'.cacheTransactionHashes, b ∈ c.cacheTransactionHashes)
    (hes : ∀ e ∈ es, ∀ event, event.IsData → e ≠ .emitted event) :
    Apart settled settledBlocks announced c' (t ++ es) where
  aligned := haligned
  announced b hb := h.announced b (hblocks b hb)
  transactions b hb := h.transactions b (htransactions b hb)
  blocks b hb := h.blocks b (hblocks b hb)
  emittedTransactions tx hmem := by
    rcases List.mem_append.mp hmem with hmem | hmem
    · exact h.emittedTransactions tx hmem
    · exact absurd rfl (hes _ hmem (.transaction tx) trivial)
  emittedMerkleBlocks merkleBlock hmem := by
    rcases List.mem_append.mp hmem with hmem | hmem
    · exact h.emittedMerkleBlocks merkleBlock hmem
    · exact absurd rfl (hes _ hmem (.merkleBlock merkleBlock) trivial)

/-- Events that emit no data leave everything apart. -/
theorem log (h : Apart settled settledBlocks announced c t)
    (hes : ∀ e ∈ es, ∀ event, event.IsData → e ≠ .emitted event) :
    Apart settled settledBlocks announced c (t ++ es) :=
  h.congr h.aligned (fun _ hb => hb) (fun _ hb => hb) hes

/-- An added transaction is cached. -/
theorem cacheTransactionHashes_addTransaction {tx : Transaction} {h : Hash} :
    h ∈ (c.addTransaction tx).2.cacheTransactionHashes ↔
      h ∈ c.cacheTransactionHashes ∨ h = tx.hash := by
  have hself : tx.hash ∈ (c.addTransaction tx).2.cacheTransactionHashes :=
    hash_mem_addTransaction tx
  rw [cacheTransactionHashes, addTransaction_transactions] at hself ⊢
  split_ifs at hself ⊢
  · rw [List.map_append, List.mem_append, List.map_singleton, List.mem_singleton]
    rfl
  · constructor
    · exact Or.inl
    · rintro (hh | rfl)
      · exact hh
      · exact hself

/-- A transaction that is not settled is added. -/
theorem addTransaction (h : Apart settled settledBlocks announced c t) {tx : Transaction}
    (htx : tx.hash ∉ settled) :
    Apart settled settledBlocks announced (c.addTransaction tx).2
      (t ++ c.addTransactionEvents tx) := by
  have hes : ∀ e ∈ c.addTransactionEvents tx, ∀ event : MediatorEvent, event.IsData →
      e ≠ .emitted event := by
    rintro e he event - rfl
    cases eq_of_mem_addTransactionEvents he
  have hlog := h.log hes
  refine { hlog with
    aligned := h.aligned.congr rfl rfl
    transactions := ?_ }
  intro b hb
  rcases cacheTransactionHashes_addTransaction.mp hb with hb | rfl
  · exact h.transactions b hb
  · exact htx

/-- A block that was not announced before is added; if any of its transactions is cached, it is
not settled. -/
theorem addBlock {build : MerkleBlockBuild} (hbuild : KeepsHeader build)
    (h : Apart settled settledBlocks announced c t) {block : Block}
    (hfresh : block.hash ∉ announced)
    (hblock : block.hash ∈ settledBlocks → c.haveMatchingTransactions block = false) :
    Apart settled settledBlocks (announced ++ [block.hash]) (c.addBlock build block)
      (t ++ c.addBlockEvents build block) := by
  have hnew : block.hash ∉ c.blockHashes := fun hmem => hfresh (h.announced _ hmem)
  have hes : ∀ e ∈ c.addBlockEvents build block, ∀ event : MediatorEvent, event.IsData →
      e ≠ .emitted event := by
    rintro e he event - rfl
    rcases cases_of_mem_addBlockEvents he with ⟨_, _, heq⟩ | ⟨_, heq⟩
    · cases heq
    · cases heq
  have hlog : Apart settled settledBlocks (announced ++ [block.hash]) c
      (t ++ c.addBlockEvents build block) :=
    (h.log hes).mono (fun b hb => List.mem_append_left _ hb)
  -- what the cache holds afterwards
  have hsub : (∀ b ∈ (c.addBlock build block).blockHashes, b ∈ c.blockHashes ∨
        (b = block.hash ∧ c.haveMatchingTransactions block = true)) ∧
      ∀ b ∈ (c.addBlock build block).cacheTransactionHashes, b ∈ c.cacheTransactionHashes := by
    refine ⟨fun b hb => ?_, fun b hb => ((c.addBlock_transactions build block).map _).subset hb⟩
    rcases c.addBlock_prunes build block with hprunes | ⟨hm, hprunes⟩
    · exact Or.inl (hprunes.blockHashes.subset hb)
    · have hb' : b ∈ c.blockHashes ++ [block.hash] := by
        rw [blockHashes, ← List.map_singleton, ← List.map_append]
        exact hprunes.blockHashes.subset hb
      rcases List.mem_append.mp hb' with hb' | hb'
      · exact Or.inl hb'
      · exact Or.inr ⟨List.mem_singleton.mp hb', hm⟩
  refine { hlog with
    aligned := h.aligned.addBlock hbuild hnew
    announced := ?_
    transactions := fun b hb => h.transactions b (hsub.2 b hb)
    blocks := ?_ }
  · intro b hb
    rcases hsub.1 b hb with hb | ⟨rfl, -⟩
    · exact List.mem_append_left _ (h.announced b hb)
    · exact List.mem_append_right _ (List.mem_singleton_self _)
  · intro b hb
    rcases hsub.1 b hb with hb | ⟨rfl, hm⟩
    · exact h.blocks b hb
    · intro hsettled
      rw [hblock hsettled] at hm
      cases hm

/-- An iteration of the loop emits what is in the cache. -/
theorem iteration (h : Apart settled settledBlocks announced c t) :
    Apart settled settledBlocks announced c.drained (t ++ c.iterationEvents) := by
  -- an iteration marks the merkle blocks as the getter of the cache does
  have hmarked : Aligned (c.apply fullBuild .getUnretrievedMerkleBlocks) :=
    h.aligned.apply keepsHeader_fullBuild trivial
  have haligned : Aligned c.drained := hmarked.congr rfl rfl
  refine { h with
    aligned := haligned
    transactions := by rw [cacheTransactionHashes_drained]; exact h.transactions
    emittedTransactions := ?_
    emittedMerkleBlocks := ?_ }
  · intro tx hmem
    rcases List.mem_append.mp hmem with hmem | hmem
    · exact h.emittedTransactions tx hmem
    · have hcached : tx ∈ Entry.unretrieved c.transactions := by
        simpa [iterationEmits] using Subscription.emitted_mem_iterationEvents.mp hmem
      have hentry := Entry.mem_unretrieved.mp hcached
      exact h.transactions _ (mem_cacheTransactionHashes.mpr ⟨_, hentry, rfl⟩)
  · intro merkleBlock hmem
    rcases List.mem_append.mp hmem with hmem | hmem
    · exact h.emittedMerkleBlocks merkleBlock hmem
    · have hcached : merkleBlock ∈ Entry.unretrieved c.merkleBlocks := by
        simpa [iterationEmits] using Subscription.emitted_mem_iterationEvents.mp hmem
      have hentry := Entry.mem_unretrieved.mp hcached
      refine h.blocks _ ?_
      rw [← h.aligned.merkleBlocks]
      exact List.mem_map_of_mem (f := fun e : Entry MerkleBlock => e.value.header.hash) hentry

/-- **What every action keeps**, if it adds only transactions that are not settled. -/
theorem preserves {a : Subscription.Action} (hadd : ∀ tx, a.Adds tx → tx.hash ∉ settled) :
    Preserves a (Apart settled settledBlocks announced) where
  logs := by
    intro c t e hlogs h
    refine h.log ?_
    rintro e' he' event hevent rfl
    rw [List.mem_singleton] at he'
    rw [← he'] at hlogs
    exact hlogs.quiet hevent
  addTransaction := fun htx h => h.addTransaction (hadd _ htx)
  removeDataByBlockHash := by
    intro c t blockHash _ h
    have hes : ∀ e ∈ c.removeDataByBlockHashEvents blockHash, ∀ event : MediatorEvent,
        event.IsData → e ≠ .emitted event := by
      rintro e he event - rfl
      obtain ⟨_, heq⟩ := exists_of_mem_removeDataByBlockHashEvents he
      cases heq
    have haligned := h.aligned.removeDataByBlockHash blockHash
    have hprunes := c.removeDataByBlockHash_prunes blockHash
    exact h.congr haligned (fun _ hb => hprunes.blockHashes.subset hb)
      (fun _ hb => hprunes.cacheTransactionHashes.subset hb) hes
  addInstantLock := by
    intro c t lock h
    have hcongr : Apart settled settledBlocks announced (c.addInstantLock lock) (t ++ []) :=
      h.congr (h.aligned.congr rfl rfl) (fun _ hb => hb) (fun _ hb => hb) (fun _ h => by cases h)
    rwa [List.append_nil] at hcongr
  sendInstantLock := by
    intro c t lock _ _ h
    obtain ⟨transactionHashesMap, heq⟩ := c.removeTransactionHash_eq lock.txid
    rw [heq]
    have hlock : ∀ event, .emitted event ∈ deliveryEvents (.instantLock lock) →
        event = .instantLock lock := fun event => Subscription.emitted_mem_deliveryEvents.mp
    refine { h with
      aligned := h.aligned.congr rfl rfl
      emittedTransactions := ?_
      emittedMerkleBlocks := ?_ }
    · intro tx hmem
      rcases List.mem_append.mp hmem with hmem | hmem
      · exact h.emittedTransactions tx hmem
      · cases hlock _ hmem
    · intro merkleBlock hmem
      rcases List.mem_append.mp hmem with hmem | hmem
      · exact h.emittedMerkleBlocks merkleBlock hmem
      · cases hlock _ hmem
  iteration := fun _ h => h.iteration

/-- **Settling a block.**  When nothing was emitted yet and the block of every cached transaction
that is now settled is in the cache, the removal of the block restores the invariant. -/
theorem settle (h : Apart settled settledBlocks announced c t) {settled' : List Hash}
    {blockHash : Hash} (hquiet : ∀ event, event.IsData → .emitted event ∉ t)
    (hcached : ∀ tx ∈ c.cacheTransactionHashes, tx ∈ settled' →
      ∃ block, c.findBlock blockHash = some block ∧ tx ∈ block.transactionHashes) :
    Apart settled' (settledBlocks ++ [blockHash]) announced (c.removeDataByBlockHash blockHash)
      (t ++ [.emitted (.historicalBlockSent blockHash)] ++
        c.removeDataByBlockHashEvents blockHash) := by
  have hquiet' : ∀ event, event.IsData →
      .emitted event ∉ t ++ [.emitted (.historicalBlockSent blockHash)] ++
        c.removeDataByBlockHashEvents blockHash := by
    intro event hevent hmem
    rcases List.mem_append.mp hmem with hmem | hmem
    · rcases List.mem_append.mp hmem with hmem | hmem
      · exact hquiet event hevent hmem
      · rw [List.mem_singleton, TraceEvent.emitted.injEq] at hmem
        rw [hmem] at hevent
        exact hevent
    · obtain ⟨_, heq⟩ := exists_of_mem_removeDataByBlockHashEvents hmem
      cases heq
  have haligned := h.aligned.removeDataByBlockHash blockHash
  -- an aligned cache has no second copy of the block
  have hgone : blockHash ∉ (c.removeDataByBlockHash blockHash).blockHashes := by
    rw [← haligned.merkleBlocks]
    intro hmem
    obtain ⟨e, he, heq⟩ := List.mem_map.mp hmem
    exact h.aligned.merkleBlock_hash_ne blockHash e he heq
  have hsub : (∀ b ∈ (c.removeDataByBlockHash blockHash).blockHashes, b ∈ c.blockHashes) ∧
      ∀ tx ∈ (c.removeDataByBlockHash blockHash).cacheTransactionHashes,
        tx ∈ c.cacheTransactionHashes ∧ tx ∉ settled' := by
    have hprunes := c.removeDataByBlockHash_prunes blockHash
    refine ⟨fun b hb => hprunes.blockHashes.subset hb, fun tx htx => ?_⟩
    have htx' := hprunes.cacheTransactionHashes.subset htx
    refine ⟨htx', fun hsettled => ?_⟩
    obtain ⟨block', hf', hin⟩ := hcached tx htx' hsettled
    rcases c.removeDataByBlockHash_cases blockHash with ⟨block, -, -, hf, heq⟩ | ⟨hf, -⟩
    · obtain rfl : block = block' := Option.some.inj (hf.symm.trans hf')
      rw [heq] at htx
      obtain ⟨e, he, rfl⟩ := mem_cacheTransactionHashes.mp htx
      exact (mem_removeDataByBlock_transactions.mp he).2 hin
    · -- no block was found, so none of the cached transactions was written
      rw [hf] at hf'
      cases hf'
  exact
    { aligned := haligned
      announced := fun b hb => h.announced b (hsub.1 b hb)
      transactions := fun tx htx => (hsub.2 tx htx).2
      blocks := by
        intro b hb hmem
        rcases List.mem_append.mp hmem with hmem | hmem
        · exact h.blocks b (hsub.1 b hb) hmem
        · rw [List.mem_singleton.mp hmem] at hb
          exact hgone hb
      emittedTransactions := fun tx hmem => absurd hmem (hquiet' _ trivial)
      emittedMerkleBlocks := fun mb hmem => absurd hmem (hquiet' _ trivial) }

end Apart

/-! ## Timely steps -/

namespace Subscription

variable {F : Type} (env : Environment F) {s : Subscription F}

/-- The outcome of testing transactions one after the other, and those that match. -/
def testAll (filter : F) : List Transaction → Except ScriptError Unit × List Transaction
  | [] => (.ok (), [])
  | tx :: txs =>
    match env.testFunction filter tx with
    | (.ok true, filter) => ((testAll filter txs).1, tx :: (testAll filter txs).2)
    | (.ok false, filter) => testAll filter txs
    | (.error e, _) => (.error e, [])

/-- The tests that the `block` listener makes. -/
def blockTests (s : Subscription F) (block : Block) : Except ScriptError Unit × List Transaction :=
  if s.cache.getBlockCount = 0 then testAll env s.filter block.transactions else (.ok (), [])

/-- The step comes in time for the removal of historical data, if the client is connected.

* A transaction that matches is not settled, and neither are those that a block brings.
* A block that is settled is not stored.
* When `HISTORICAL_BLOCK_SENT` is emitted, every cached transaction that was written from the
  history is a transaction of the cached block with this hash. -/
def Timely (s : Subscription F) : Action → Prop
  | .test tx =>
    s.isClientConnected = true → (env.testFunction s.filter tx).1 = .ok true →
      tx.hash ∉ (Ledger.of s.trace).settled
  | .block block =>
    s.isClientConnected = true →
      (∀ tx ∈ (s.blockTests env block).2, tx.hash ∉ (Ledger.of s.trace).settled) ∧
        ((s.blockTests env block).1 = .ok () → block.hash ∈ (Ledger.of s.trace).settledBlocks →
          ∀ h ∈ block.transactionHashes, h ∉ s.cache.cacheTransactionHashes ∧
            h ∉ (s.blockTests env block).2.map Transaction.hash)
  | .historicalBlockSent blockHash =>
    s.isClientConnected = true →
      ∀ h ∈ s.cache.cacheTransactionHashes, h ∈ (Ledger.of s.trace).written →
        ∃ block ∈ s.cache.findBlock blockHash, h ∈ block.transactionHashes
  | _ => True

instance (s : Subscription F) : (a : Action) → Decidable (Timely env s a)
  | .test tx => inferInstanceAs (Decidable (s.isClientConnected = true →
      (env.testFunction s.filter tx).1 = .ok true → tx.hash ∉ (Ledger.of s.trace).settled))
  | .block block => inferInstanceAs (Decidable (s.isClientConnected = true →
      (∀ tx ∈ (s.blockTests env block).2, tx.hash ∉ (Ledger.of s.trace).settled) ∧
        ((s.blockTests env block).1 = .ok () → block.hash ∈ (Ledger.of s.trace).settledBlocks →
          ∀ h ∈ block.transactionHashes, h ∉ s.cache.cacheTransactionHashes ∧
            h ∉ (s.blockTests env block).2.map Transaction.hash)))
  | .historicalBlockSent blockHash => inferInstanceAs (Decidable (s.isClientConnected = true →
      ∀ h ∈ s.cache.cacheTransactionHashes, h ∈ (Ledger.of s.trace).written →
        ∃ block ∈ s.cache.findBlock blockHash, h ∈ block.transactionHashes))
  | .matched _ | .instantLock _ _ | .historicalDataSent | .memPoolDataSent
  | .clientDisconnected | .wakeUp | .sendHistorical _ => .isTrue trivial

/-- The subscription after the filter was asked about a transaction. -/
def tested (s : Subscription F) (filter : F) (tx : Transaction)
    (verdict : Except ScriptError Bool) : Subscription F :=
  { s with filter }.log [.tested tx verdict]

/-- A test that raises stops the listener. -/
theorem testBody_of_error {tx : Transaction} {e : ScriptError} {filter : F}
    (hr : env.testFunction s.filter tx = (.error e, filter)) :
    s.testBody env tx = (.error e, s.tested filter tx (.error e)) := by
  rw [testBody, test, testTransaction, hr]
  rfl

/-- A transaction that does not match is only tested. -/
theorem testBody_of_false {tx : Transaction} {filter : F}
    (hr : env.testFunction s.filter tx = (.ok false, filter)) :
    s.testBody env tx = (.ok (), s.tested filter tx (.ok false)) := by
  rw [testBody, test, testTransaction, hr]
  rfl

/-- A transaction that matches is stored. -/
theorem testBody_of_true (hw : Wired s) (hc : s.isClientConnected = true) {tx : Transaction}
    {filter : F} (hr : env.testFunction s.filter tx = (.ok true, filter)) :
    s.testBody env tx = (.ok (), (s.tested filter tx (.ok true)).storeTransaction tx) := by
  have hw' : Wired (s.tested filter tx (.ok true)) := hw.congr rfl
  have hc' : (s.tested filter tx (.ok true)).isClientConnected = true := hc
  have hmatched := emitMatched_eq hw' tx
  rw [if_pos hc'] at hmatched
  rw [testBody, test, testTransaction, hr, ← hmatched]
  rfl

/-- The loop over the transactions of a block adds those that match. -/
theorem forEach_testBody {I : TransactionHashesCache → List TraceEvent → Prop} (hw : Wired s)
    (hc : s.isClientConnected = true) (txs : List Transaction)
    (hlogs : ∀ c t tx verdict, I c t → I c (t ++ [.tested tx verdict]))
    (hadd : ∀ c t, ∀ tx ∈ (testAll env s.filter txs).2, I c t →
      I (c.addTransaction tx).2 (t ++ c.addTransactionEvents tx))
    (h : I s.cache s.trace) :
    I (forEach (testBody env) txs s).2.cache (forEach (testBody env) txs s).2.trace ∧
      (forEach (testBody env) txs s).1 = (testAll env s.filter txs).1 ∧
      ∀ hash ∈ (forEach (testBody env) txs s).2.cache.cacheTransactionHashes,
        hash ∈ s.cache.cacheTransactionHashes ∨
          hash ∈ (testAll env s.filter txs).2.map Transaction.hash := by
  -- each test starts from the filter that the one before it left
  induction txs generalizing s with
  | nil => exact ⟨h, rfl, fun _ hmem => Or.inl hmem⟩
  | cons tx txs ih =>
      rcases hr : env.testFunction s.filter tx with ⟨e | verdict, filter⟩
      · rw [forEach_cons_error (testBody_of_error env hr)]
        have hall : testAll env s.filter (tx :: txs) = (.error e, []) := by rw [testAll, hr]
        rw [hall]
        exact ⟨hlogs _ _ _ _ h, rfl, fun _ hmem => Or.inl hmem⟩
      · cases verdict with
        | false =>
            have hall : testAll env s.filter (tx :: txs) = testAll env filter txs := by
              rw [testAll, hr]
            rw [hall] at hadd ⊢
            rw [forEach_cons_ok (testBody_of_false env hr)]
            let s₁ : Subscription F := s.tested filter tx (.ok false)
            have hw₁ : Wired s₁ := hw.congr rfl
            exact ih (s := s₁) hw₁ hc hadd (hlogs _ _ _ _ h)
        | true =>
            have hall : testAll env s.filter (tx :: txs) =
                ((testAll env filter txs).1, tx :: (testAll env filter txs).2) := by
              rw [testAll, hr]
            rw [hall] at hadd ⊢
            rw [forEach_cons_ok (testBody_of_true env hw hc hr)]
            let s₁ : Subscription F := (s.tested filter tx (.ok true)).storeTransaction tx
            have hw₁ : Wired s₁ := hw.congr rfl
            have h₁ : I s₁.cache s₁.trace :=
              hadd _ _ tx List.mem_cons_self (hlogs _ _ _ _ h)
            obtain ⟨hI, hok, hhashes⟩ := ih (s := s₁) hw₁ hc
              (fun c t tx' htx' => hadd c t tx' (List.mem_cons_of_mem tx htx')) h₁
            refine ⟨hI, hok, fun hash hmem => ?_⟩
            rw [List.map_cons, List.mem_cons]
            rcases hhashes hash hmem with hcached | hlater
            · rcases Apart.cacheTransactionHashes_addTransaction.mp hcached with hold | hnew
              · exact Or.inl hold
              · exact Or.inr (Or.inl hnew)
            · exact Or.inr (Or.inr hlater)

/-- The tests before a block is stored. -/
theorem testBlock_blockTests {I : TransactionHashesCache → List TraceEvent → Prop} (hw : Wired s)
    (hc : s.isClientConnected = true) (block : Block)
    (hlogs : ∀ c t tx verdict, I c t → I c (t ++ [.tested tx verdict]))
    (hadd : ∀ c t, ∀ tx ∈ (s.blockTests env block).2, I c t →
      I (c.addTransaction tx).2 (t ++ c.addTransactionEvents tx))
    (h : I s.cache s.trace) :
    I (s.testBlock env block).2.cache (s.testBlock env block).2.trace ∧
      (s.testBlock env block).1 = (s.blockTests env block).1 ∧
      ∀ hash ∈ (s.testBlock env block).2.cache.cacheTransactionHashes,
        hash ∈ s.cache.cacheTransactionHashes ∨
          hash ∈ (s.blockTests env block).2.map Transaction.hash := by
  rw [testBlock, blockTests] at *
  split_ifs at *
  · exact forEach_testBody env hw hc block.transactions hlogs hadd h
  · exact ⟨h, rfl, fun _ hmem => Or.inl hmem⟩

end Subscription

/-! ## The boundary -/

/-- The hash of the block that an action announces. -/
def Subscription.Action.announces : Subscription.Action → Option Hash
  | .block b => some b.hash
  | _ => none

/-- The blocks that were announced to the subscription. -/
def announcedBlocks (as : List Subscription.Action) : List Hash :=
  as.filterMap Subscription.Action.announces

/-- Everything that was written is settled. -/
def Stage.IsSettled : Stage → Prop
  | transactionsSent | merkleBlockSent _ => False
  | _ => True

/-- The invariant of timely runs. -/
structure Boundary {F : Type} (announced : List Hash) (stage : Stage) (s : Subscription F) :
    Prop where
  wired : s.Wired
  connected : stage ≠ .live → s.isClientConnected = true
  loop : stage ≠ .live → s.loop = .notStarted
  quiet : stage ≠ .live → ∀ event, event.IsData → .emitted event ∉ s.trace
  apart : Apart (Ledger.of s.trace).settled (Ledger.of s.trace).settledBlocks announced s.cache
    s.trace
  written : stage.IsSettled → ∀ h ∈ (Ledger.of s.trace).written, h ∈ (Ledger.of s.trace).settled
  writtenBlocks : ∀ h ∈ (Ledger.of s.trace).writtenBlocks,
    h ∈ (Ledger.of s.trace).settledBlocks ∨ stage = .merkleBlockSent h

namespace Stage

/-- Before the live stage the loop has not started and the client is connected. -/
theorem next_ne_live {stage stage' : Stage} {a : Subscription.Action}
    (h : stage.next a = some stage') (hlive : stage' ≠ live) :
    stage ≠ live ∧ a ≠ .memPoolDataSent ∧ a ≠ .clientDisconnected := by
  refine ⟨?_, ?_, ?_⟩
  · rintro rfl
    cases a <;> simp [next] at h <;> exact hlive h.symm
  · rintro rfl
    cases stage <;> simp [next] at h
    exact hlive h.symm
  · rintro rfl
    cases stage <;> simp [next] at h
    exact hlive h.symm

/-- The actions that write nothing from the history keep what is settled. -/
theorem next_of_unentered {stage stage' : Stage} {a : Subscription.Action}
    (h : stage.next a = some stage') (hsend : ∀ response, a ≠ .sendHistorical response)
    (hblock : ∀ blockHash, a ≠ .historicalBlockSent blockHash) :
    stage' = stage ∨ (stage.IsSettled ∧ stage'.IsSettled) := by
  by_cases hn : a.IsNotification
  · rw [next_of_isNotification stage hn] at h
    exact Or.inl (Option.some.inj h).symm
  cases a with
  | sendHistorical response => exact absurd rfl (hsend response)
  | historicalBlockSent blockHash => exact absurd rfl (hblock blockHash)
  | historicalDataSent =>
      cases stage <;> simp [next] at h
      exact Or.inr ⟨trivial, h ▸ trivial⟩
  | memPoolDataSent =>
      cases stage <;> simp [next] at h
      exact Or.inr ⟨trivial, h ▸ trivial⟩
  | clientDisconnected =>
      cases stage <;> simp [next] at h
      exact Or.inl h.symm
  | matched tx => cases stage <;> simp [next] at h
  | _ => exact absurd trivial hn

end Stage

namespace Subscription

variable {F : Type} (env : Environment F) {s : Subscription F}

/-- The emission of data is not entered. -/
theorem unentered_emitted {event : MediatorEvent} (hd : event.IsData) :
    (TraceEvent.emitted event).Unentered := by
  cases event with
  | historicalBlockSent blockHash => exact hd.elim
  | _ => exact ⟨rfl, rfl, rfl⟩

theorem unentered_deliveryEvents {event : MediatorEvent} (hd : event.IsData) :
    ∀ e ∈ deliveryEvents event, e.Unentered := by
  intro e he
  rcases cases_of_mem_deliveryEvents he with rfl | ⟨_, rfl⟩
  · exact unentered_emitted hd
  · exact ⟨rfl, rfl, rfl⟩

theorem unentered_iterationEvents (c : TransactionHashesCache) :
    ∀ e ∈ c.iterationEvents, e.Unentered := by
  intro e he
  rcases cases_of_mem_iterationEvents he with ⟨event, hevent, rfl⟩ | ⟨_, rfl⟩ | rfl
  · exact unentered_emitted (isData_of_mem_iterationEmits hevent)
  · exact ⟨rfl, rfl, rfl⟩
  · exact ⟨rfl, rfl, rfl⟩

theorem unentered_addBlockEvents (c : TransactionHashesCache) (block : Block) :
    ∀ e ∈ c.addBlockEvents env.build block, e.Unentered := by
  intro e he
  rcases cases_of_mem_addBlockEvents he with ⟨_, _, rfl⟩ | ⟨_, rfl⟩
  · exact ⟨rfl, rfl, rfl⟩
  · exact ⟨rfl, rfl, rfl⟩

/-- What a step tells besides is not entered, either. -/
theorem unentered_logs {a : Action} {e : TraceEvent} (h : a.Logs e)
    (hsend : ∀ response, a ≠ .sendHistorical response)
    (hblock : ∀ blockHash, a ≠ .historicalBlockSent blockHash) : e.Unentered := by
  cases a with
  | sendHistorical response => exact absurd rfl (hsend response)
  | historicalBlockSent blockHash => exact absurd rfl (hblock blockHash)
  | test tx =>
      obtain ⟨verdict, rfl⟩ := h
      exact ⟨rfl, rfl, rfl⟩
  | block block =>
      obtain ⟨tx, -, verdict, rfl⟩ := h
      exact ⟨rfl, rfl, rfl⟩
  | instantLock tx lock =>
      obtain ⟨verdict, rfl⟩ := h
      exact ⟨rfl, rfl, rfl⟩
  | matched tx => exact h.elim
  | wakeUp => exact h.elim
  | _ =>
      obtain rfl : e = _ := h
      exact ⟨rfl, rfl, rfl⟩

/-- **Only the handler enters into the ledger.** -/
theorem ledger_step (hw : Wired s) {a : Action} (hsend : ∀ response, a ≠ .sendHistorical response)
    (hblock : ∀ blockHash, a ≠ .historicalBlockSent blockHash) :
    Ledger.of (step env s a).trace = Ledger.of s.trace := by
  have hI : Preserves a (fun _ t => Ledger.of t = Ledger.of s.trace) :=
    { logs := by
        intro c t e hlogs h
        rw [Ledger.of_snoc, Ledger.record_of_unentered (unentered_logs hlogs hsend hblock), h]
      addTransaction := by
        intro c t tx _ h
        rw [Ledger.of_append_of_unentered, h]
        intro e he
        rw [eq_of_mem_addTransactionEvents he]
        exact ⟨rfl, rfl, rfl⟩
      removeDataByBlockHash := fun heq => absurd heq (hblock _)
      addInstantLock := fun _ h => h
      sendInstantLock := by
        intro c t lock _ _ h
        have hdata : (MediatorEvent.instantLock lock).IsData := trivial
        rw [Ledger.of_append_of_unentered (unentered_deliveryEvents hdata), h]
      iteration := by
        intro c t _ h
        rw [Ledger.of_append_of_unentered (unentered_iterationEvents c), h] }
  refine hI.step id hw ?_ rfl
  intro block _ c t h
  rw [Ledger.of_append_of_unentered (unentered_addBlockEvents env c block), h]

/-- Before the loop starts nothing is emitted. -/
theorem quiet_step (hw : Wired s) (hc : s.isClientConnected = true) (hl : s.loop = .notStarted)
    {a : Action} (ha : a ≠ .memPoolDataSent) {event : MediatorEvent} (hd : event.IsData)
    (hquiet : .emitted event ∉ s.trace) : .emitted event ∉ (step env s a).trace := by
  by_cases hlock : ∃ tx lock, a = .instantLock tx lock
  · -- the lock is stored
    obtain ⟨tx, lock, rfl⟩ := hlock
    have htrace : (step env s (.instantLock tx lock)).trace =
        (s.testTransaction env tx).2.trace := by
      show (s.emitInstantLock env tx lock).2.trace = _
      rw [emitInstantLock_eq env hw, if_pos hc, if_pos hl, preMempoolSentInstantLockListener]
      rcases s.testTransaction env tx with ⟨_ | _ | _, s₁⟩ <;> rfl
    rw [htrace]
    show .emitted event ∉ s.trace ++ [.tested tx _]
    simpa using hquiet
  · by_cases hwake : a = .wakeUp
    · subst hwake
      have hstep : step env s .wakeUp = s := by
        show (if s.loop = .waiting then s.continueLoop else s) = s
        rw [if_neg (by rw [hl]; exact Loop.noConfusion)]
      rw [hstep]
      exact hquiet
    · rw [emitted_step_iff hw ?_ ?_ hd]
      · exact hquiet
      · rintro lock hsends
        cases a with
        | instantLock tx lock' => exact hlock ⟨tx, lock', rfl⟩
        | _ => exact hsends
      · intro hiter
        cases a with
        | memPoolDataSent => exact ha rfl
        | wakeUp => exact hwake rfl
        | _ => exact hiter

/-- Only the end of the mempool starts the loop, and only the disconnect ends it. -/
theorem loop_step (hw : Wired s) (hl : s.loop = .notStarted) {a : Action}
    (ha : a ≠ .memPoolDataSent) (hdisc : a ≠ .clientDisconnected) :
    (step env s a).loop = .notStarted := by
  by_cases hwake : a = .wakeUp
  · subst hwake
    show (if s.loop = .waiting then s.continueLoop else s).loop = _
    rw [if_neg (by rw [hl]; exact Loop.noConfusion), hl]
  · exact (congrArg Wiring.loop (step_wiring env hw ha hdisc hwake)).trans hl

end Subscription

namespace Boundary

open Subscription

variable {F : Type} {env : Environment F} {s : Subscription F} {stage stage' : Stage}
  {announced : List Hash} {a : Action}

/-- Before the subscription is used. -/
theorem start (filter : F) : Boundary [] .scanning (Subscription.start filter) where
  wired := wired_start filter
  connected _ := rfl
  loop _ := rfl
  quiet _ _ _ := List.not_mem_nil
  apart := Apart.new
  written _ _ h := h
  writtenBlocks _ h := absurd h List.not_mem_nil

/-- The test of a transaction. -/
theorem apart_test (h : Boundary announced stage s) {tx : Transaction}
    (htimely : Timely env s (.test tx)) :
    Apart (Ledger.of s.trace).settled (Ledger.of s.trace).settledBlocks announced
      (s.step env (.test tx)).cache (s.step env (.test tx)).trace := by
  by_cases hm : (env.testFunction s.filter tx).1 = .ok true ∧ s.isClientConnected = true
  · have hadd : ∀ tx', (Action.test tx).Adds tx' → tx'.hash ∉ (Ledger.of s.trace).settled := by
      rintro tx' rfl
      exact htimely hm.2 hm.1
    exact (Apart.preserves hadd).step id h.wired (fun _ hb => by cases hb) h.apart
  · show Apart _ _ _ (s.testBody env tx).2.cache (s.testBody env tx).2.trace
    rw [testBody_snd env h.wired tx, if_neg hm]
    exact h.apart.log (by simp)

/-- The announcement of a block. -/
theorem apart_block (hbuild : KeepsHeader env.build) (h : Boundary announced stage s)
    {block : Block} (htimely : Timely env s (.block block)) (hfresh : block.hash ∉ announced) :
    Apart (Ledger.of s.trace).settled (Ledger.of s.trace).settledBlocks
      (announced ++ [block.hash]) (s.step env (.block block)).cache
      (s.step env (.block block)).trace := by
  show Apart _ _ _ (s.emitBlock env block).2.cache (s.emitBlock env block).2.trace
  have hmore : ∀ b ∈ announced, b ∈ announced ++ [block.hash] :=
    fun b hb => List.mem_append_left _ hb
  rw [emitBlock_eq env h.wired]
  split_ifs with hc
  · -- the tests add to the cache first, then the block is stored
    obtain ⟨htests, hstored⟩ := htimely hc
    obtain ⟨hapart, hok, hhashes⟩ := testBlock_blockTests env h.wired hc block
      (fun c t tx verdict h => h.log (by simp))
      (fun c t tx htx h => h.addTransaction (htests tx htx)) h.apart
    rw [storeBlock]
    rcases hr : s.testBlock env block with ⟨_ | _, s₁⟩ <;> rw [hr] at hapart hok hhashes
    · exact hapart.mono hmore
    · refine hapart.addBlock hbuild hfresh fun hsettled => ?_
      rw [← Bool.not_eq_true, haveMatchingTransactions_iff]
      rintro ⟨hash, hin, hcached⟩
      obtain ⟨hold, hnew⟩ := hstored hok.symm hsettled hash hin
      rcases hhashes hash hcached with hmem | hmem
      · exact hold hmem
      · exact hnew hmem
  · exact h.apart.mono hmore

/-- `HISTORICAL_BLOCK_SENT` -/
theorem apart_historicalBlockSent (h : Boundary announced stage s) (hlive : stage ≠ .live)
    {blockHash : Hash} (htimely : Timely env s (.historicalBlockSent blockHash)) :
    Apart (Ledger.of s.trace).written ((Ledger.of s.trace).settledBlocks ++ [blockHash]) announced
        (s.step env (.historicalBlockSent blockHash)).cache
        (s.step env (.historicalBlockSent blockHash)).trace ∧
      Ledger.of (s.step env (.historicalBlockSent blockHash)).trace =
        (Ledger.of s.trace).record (.emitted (.historicalBlockSent blockHash)) := by
  have hc := h.connected hlive
  have hstep : s.step env (.historicalBlockSent blockHash) =
      (s.log [.emitted (.historicalBlockSent blockHash)]).removeHistoricalBlock blockHash := by
    show s.emit (.historicalBlockSent blockHash) = _
    rw [emit_historicalBlockSent h.wired, if_pos hc]
  rw [hstep]
  constructor
  · refine h.apart.settle (h.quiet hlive) fun hash hcached hwritten => ?_
    obtain ⟨block, hf, hin⟩ := htimely hc hash hcached hwritten
    exact ⟨block, hf, hin⟩
  · show Ledger.of (s.trace ++ [_] ++ s.cache.removeDataByBlockHashEvents blockHash) = _
    rw [Ledger.of_append_of_unentered, Ledger.of_snoc]
    intro e he
    obtain ⟨b, rfl⟩ := exists_of_mem_removeDataByBlockHashEvents he
    exact ⟨rfl, rfl, rfl⟩

variable (env) in
/-- The stage and the loop after an action. -/
theorem step_stage (h : Boundary announced stage s) (hnext : stage.next a = some stage')
    (hlive' : stage' ≠ .live) :
    (s.step env a).isClientConnected = true ∧ (s.step env a).loop = .notStarted ∧
      ∀ event, event.IsData → .emitted event ∉ (s.step env a).trace := by
  obtain ⟨hlive, hmem, hdisc⟩ := Stage.next_ne_live hnext hlive'
  have hc := h.connected hlive
  have hl := h.loop hlive
  refine ⟨(step_isClientConnected env h.wired a).mpr ⟨hc, hdisc⟩, ?_, ?_⟩
  · exact loop_step env h.wired hl hmem hdisc
  · exact fun event hd => quiet_step env h.wired hc hl hmem hd (h.quiet hlive event hd)

/-- The ledger after the historical data of a block was written. -/
theorem step_sendHistorical (h : Boundary announced stage s) {response : Response}
    (hnext : stage.next (.sendHistorical response) = some stage') :
    Boundary announced stage' (s.step env (.sendHistorical response)) := by
  have hstage := fun hlive' => h.step_stage env hnext hlive'
  have hledger : Ledger.of (s.step env (.sendHistorical response)).trace =
      (Ledger.of s.trace).record (.sentHistorical response) := Ledger.of_snoc _ _
  rw [Ledger.record_sentHistorical] at hledger
  have hapart : Apart (Ledger.of s.trace).settled (Ledger.of s.trace).settledBlocks announced
      (s.step env (.sendHistorical response)).cache
      (s.step env (.sendHistorical response)).trace := h.apart.log (by simp)
  have hblocks : ∀ h' ∈ (Ledger.of s.trace).writtenBlocks,
      stage = .scanning ∨ stage = .transactionsSent → h' ∈ (Ledger.of s.trace).settledBlocks := by
    rintro h' hmem (rfl | rfl)
    · exact (h.writtenBlocks h' hmem).resolve_right (fun h => by cases h)
    · exact (h.writtenBlocks h' hmem).resolve_right (fun h => by cases h)
  cases stage <;> cases response <;> simp [Stage.next] at hnext
  · -- the transactions of the block
    subst hnext
    refine ⟨h.wired.step env _, fun hl => (hstage hl).1, fun hl => (hstage hl).2.1,
      fun hl => (hstage hl).2.2, ?_, fun h => h.elim, ?_⟩
    · rw [hledger]
      exact hapart
    · rw [hledger]
      intro h' hmem
      rcases List.mem_append.mp hmem with hmem | hmem
      · exact Or.inl (hblocks h' hmem (Or.inl rfl))
      · cases hmem
  · -- its merkle block
    subst hnext
    refine ⟨h.wired.step env _, fun hl => (hstage hl).1, fun hl => (hstage hl).2.1,
      fun hl => (hstage hl).2.2, ?_, fun h => h.elim, ?_⟩
    · rw [hledger]
      exact hapart
    · rw [hledger]
      intro h' hmem
      rcases List.mem_append.mp hmem with hmem | hmem
      · exact Or.inl (hblocks h' hmem (Or.inr rfl))
      · rw [List.mem_singleton.mp hmem]
        exact Or.inr rfl

/-- `HISTORICAL_BLOCK_SENT` settles what was written. -/
theorem step_historicalBlockSent (h : Boundary announced stage s) {blockHash : Hash}
    (hnext : stage.next (.historicalBlockSent blockHash) = some stage')
    (htimely : Timely env s (.historicalBlockSent blockHash)) :
    Boundary announced stage' (s.step env (.historicalBlockSent blockHash)) := by
  have hstage := fun hlive' => h.step_stage env hnext hlive'
  obtain ⟨rfl, rfl⟩ : stage = .merkleBlockSent blockHash ∧ stage' = .scanning := by
    cases stage <;> simp [Stage.next] at hnext
    exact ⟨by rw [hnext.1], hnext.2.symm⟩
  obtain ⟨hapart, hledger⟩ := h.apart_historicalBlockSent (fun h => by cases h) htimely
  refine ⟨h.wired.step env _, fun hl => (hstage hl).1, fun hl => (hstage hl).2.1,
    fun hl => (hstage hl).2.2, ?_, ?_, ?_⟩
  · rw [hledger]
    exact hapart
  · rw [hledger]
    intro _ h' hmem
    simpa [Ledger.record, TraceEvent.writtenTransactions, TraceEvent.settledBlocks] using hmem
  · rw [hledger]
    intro h' hmem
    left
    -- the block of the last merkle block is settled now, the others were before
    have hmem' : h' ∈ (Ledger.of s.trace).writtenBlocks := by
      simpa [Ledger.record, TraceEvent.writtenBlocks] using hmem
    show h' ∈ (Ledger.of s.trace).settledBlocks ++ [blockHash]
    rcases h.writtenBlocks h' hmem' with hsettled | heq
    · exact List.mem_append_left _ hsettled
    · rw [Stage.merkleBlockSent.injEq] at heq
      exact List.mem_append_right _ (List.mem_singleton.mpr heq.symm)

/-- An action that does not enter into the ledger. -/
theorem step_unentered (h : Boundary announced stage s) {announced' : List Hash}
    (hnext : stage.next a = some stage') (hsend : ∀ response, a ≠ .sendHistorical response)
    (hblock : ∀ blockHash, a ≠ .historicalBlockSent blockHash)
    (hapart : Apart (Ledger.of s.trace).settled (Ledger.of s.trace).settledBlocks announced'
      (s.step env a).cache (s.step env a).trace) :
    Boundary announced' stage' (s.step env a) := by
  have hstage := fun hlive' => h.step_stage env hnext hlive'
  have hledger := ledger_step env h.wired hsend hblock
  have hsettled := Stage.next_of_unentered hnext hsend hblock
  refine ⟨h.wired.step env a, fun hl => (hstage hl).1, fun hl => (hstage hl).2.1,
    fun hl => (hstage hl).2.2, ?_, ?_, ?_⟩
  · rw [hledger]
    exact hapart
  · rw [hledger]
    intro hs'
    rcases hsettled with rfl | ⟨hs, -⟩
    · exact h.written hs'
    · exact h.written hs
  · rw [hledger]
    intro h' hmem
    rcases h.writtenBlocks h' hmem with hin | rfl
    · exact Or.inl hin
    · rcases hsettled with rfl | ⟨hs, -⟩
      · exact Or.inr rfl
      · exact hs.elim

/-- Only a block is announced. -/
theorem announces_eq_nil (hblock : ∀ b, a ≠ .block b) : a.announces.toList = [] := by
  cases a with
  | block b => exact absurd rfl (hblock b)
  | _ => rfl

/-- **A timely step keeps the invariant.** -/
theorem step (hbuild : KeepsHeader env.build) (h : Boundary announced stage s)
    (hnext : stage.next a = some stage') (htimely : Timely env s a)
    (hfresh : ∀ b ∈ a.announces, b ∉ announced) :
    Boundary (announced ++ a.announces.toList) stage' (s.step env a) := by
  cases a with
  | block b =>
      exact h.step_unentered hnext (fun _ h => by cases h) (fun _ h => by cases h)
        (h.apart_block hbuild htimely (hfresh _ rfl))
  | test tx =>
      rw [announces_eq_nil (fun _ h => by cases h), List.append_nil]
      exact h.step_unentered hnext (fun _ h => by cases h) (fun _ h => by cases h)
        (h.apart_test htimely)
  | sendHistorical response =>
      rw [announces_eq_nil (fun _ h => by cases h), List.append_nil]
      exact h.step_sendHistorical hnext
  | historicalBlockSent blockHash =>
      rw [announces_eq_nil (fun _ h => by cases h), List.append_nil]
      exact h.step_historicalBlockSent hnext htimely
  | matched tx =>
      -- no stage has a match without a test
      cases stage <;> cases hnext
  | _ =>
      rw [announces_eq_nil (fun _ h => by cases h), List.append_nil]
      refine h.step_unentered hnext (fun _ h => by cases h) (fun _ h => by cases h) ?_
      refine (Apart.preserves fun _ htx => ?_).step id h.wired (fun _ hb => by cases hb) h.apart
      exact False.elim htx

/-- **Every timely run** in which each block is announced once. -/
theorem run (hbuild : KeepsHeader env.build) (filter : F) {as : List Action}
    (hstage : Stage.after as = some stage) (honce : (announcedBlocks as).Nodup)
    (htimely : Machine.Admissible (Subscription.step env) (Timely env) (.start filter) as) :
    Boundary (announcedBlocks as) stage (Subscription.run env (.start filter) as) := by
  induction as using List.reverseRecOn generalizing stage with
  | nil =>
      obtain rfl := Option.some.inj hstage
      exact Boundary.start filter
  | append_singleton as a ih =>
      obtain ⟨stage₀, hstage₀, hnext⟩ := Stage.after_snoc_inv hstage
      obtain ⟨htimely₀, hlast, -⟩ := Machine.admissible_append.mp htimely
      have hsplit : announcedBlocks (as ++ [a]) = announcedBlocks as ++ a.announces.toList := by
        rw [announcedBlocks, List.filterMap_append]
        cases a <;> rfl
      rw [hsplit] at honce ⊢
      obtain ⟨honce₀, -, hdisjoint⟩ := List.nodup_append.mp honce
      rw [run_snoc]
      -- the new block, if the action announces one, is not among the blocks before it
      refine (ih hstage₀ honce₀ htimely₀).step hbuild hnext hlast ?_
      intro b hb hmem
      exact hdisjoint b hmem b (Option.mem_toList.mpr hb) rfl

end Boundary

/-! ## Nothing is sent twice -/

/-- No block and no transaction of the history is emitted again. -/
structure NoDuplicate (t : List TraceEvent) : Prop where
  merkleBlocks : ∀ merkleBlock merkleBlock', .sentHistorical (.rawMerkleBlock merkleBlock) ∈ t →
    .emitted (.merkleBlock merkleBlock') ∈ t → merkleBlock'.header.hash ≠ merkleBlock.header.hash
  transactions : ∀ txs, ∀ tx ∈ txs, ∀ tx', .sentHistorical (.rawTransactions txs) ∈ t →
    .emitted (.transaction tx') ∈ t → tx'.hash ≠ tx.hash

/-- **Within the boundary nothing is sent twice.** -/
theorem Boundary.noDuplicate {F : Type} {s : Subscription F} {stage : Stage}
    {announced : List Hash} (h : Boundary announced stage s) : NoDuplicate s.trace := by
  by_cases hlive : stage = .live
  · subst hlive
    constructor
    · intro merkleBlock merkleBlock' hwritten hemitted heq
      have hmem : merkleBlock.header.hash ∈ (Ledger.of s.trace).writtenBlocks := by
        rw [Ledger.of_writtenBlocks]
        exact List.mem_flatMap.mpr ⟨_, hwritten, List.mem_singleton_self _⟩
      have hsettled := (h.writtenBlocks _ hmem).resolve_right (fun h => by cases h)
      rw [← heq] at hsettled
      exact h.apart.emittedMerkleBlocks merkleBlock' hemitted hsettled
    · intro txs tx htx tx' hwritten hemitted heq
      have hmem : tx.hash ∈ (Ledger.of s.trace).written := by
        rw [Ledger.of_written]
        exact List.mem_flatMap.mpr ⟨_, hwritten, List.mem_map_of_mem htx⟩
      have hsettled := h.written trivial _ hmem
      rw [← heq] at hsettled
      exact h.apart.emittedTransactions tx' hemitted hsettled
  · exact ⟨fun _ merkleBlock' _ hmem =>
        absurd hmem (h.quiet hlive (.merkleBlock merkleBlock') trivial),
      fun _ _ _ tx' _ hmem => absurd hmem (h.quiet hlive (.transaction tx') trivial)⟩

/-- **No duplicate across the boundary.**  In every run of the system, whatever the order of
notifications and answers: a call for new transactions to which each block is announced once
and whose steps are timely sends nothing of the history again. -/
theorem no_duplicate_across_boundary {F : Type} [BloomFilter F] {env : Environment F}
    {lib : DashcoreLib F} (hbuild : KeepsHeader env.build) (as : List StreamSystem.Action) {i : ℕ}
    {request : StreamRequest} {filter : F}
    (hrequest : ((StreamSystem.run env lib .initial as).calls i).request = some request)
    (hcount : request.count = 0)
    (hfilter : lib.newBloomFilter request.bloomFilter = .ok filter)
    (honce : (announcedBlocks ((StreamSystem.run env lib .initial as).calls i).history).Nodup)
    (htimely : Machine.Admissible (Subscription.step env) (Subscription.Timely env) (.start filter)
      ((StreamSystem.run env lib .initial as).calls i).history) :
    NoDuplicate ((StreamSystem.run env lib .initial as).trace i) := by
  obtain ⟨phase, -, hphase⟩ := (StreamSystem.run_isInPhase env lib as hrequest hcount).handler
  rw [StreamSystem.trace]
  cases hs : ((StreamSystem.run env lib .initial as).calls i).subscription with
  | none =>
      exact ⟨fun _ _ h => absurd h List.not_mem_nil, fun _ _ _ _ h => absurd h List.not_mem_nil⟩
  | some s =>
      obtain ⟨stage, hsub⟩ := hphase.isSubscribed (by rw [hs]; exact Option.some_ne_none _)
      show NoDuplicate s.trace
      rw [hsub.eq_run hfilter hs]
      exact (Boundary.run hbuild filter hsub.stage honce htimely).noDuplicate

/-- The block of the small server. -/
def paymentBlock : Block := ⟨⟨[5]⟩, [payment [9] [[1]]]⟩

/-- A run in which the block is announced before it is sent from the history ... -/
def earlyActions : List StreamSystem.Action :=
  [.call 0 paymentRequest, .block paymentBlock] ++ paymentAnswers ++ [.wakeUp 0]

/-- ... and what happens to the subscription in it. -/
def earlyHistory : List Subscription.Action :=
  [.block paymentBlock, .sendHistorical (.rawTransactions [payment [9] [[1]]]),
    .sendHistorical (.rawMerkleBlock ⟨⟨[5]⟩, some [[9]]⟩), .historicalBlockSent [5],
    .historicalDataSent, .memPoolDataSent, .wakeUp]

/-- The steps of the subscription, computed. -/
theorem early_history : ((paymentRun earlyActions).calls 0).history = earlyHistory := rfl

/-- The block and its transaction are sent once. -/
theorem no_duplicate_across_boundary_early : NoDuplicate ((paymentRun earlyActions).trace 0) := by
  have hrequest : ((paymentRun earlyActions).calls 0).request = some paymentRequest := rfl
  have hfilter : paymentLib.newBloomFilter paymentRequest.bloomFilter = .ok ⟨[[1]], 1⟩ := rfl
  refine no_duplicate_across_boundary (fun _ _ _ => rfl) earlyActions hrequest rfl hfilter ?_ ?_
  · rw [early_history]
    decide
  · rw [early_history]
    decide

/-- The block is announced after it was sent from the history: it is sent again, and so is its
transaction. -/
theorem not_no_duplicate_late :
    announcedBlocks ((paymentRun ([.call 0 paymentRequest] ++ paymentAnswers ++
        [.block paymentBlock, .wakeUp 0])).calls 0).history = [paymentBlock.hash] ∧
      ¬ NoDuplicate ((paymentRun ([.call 0 paymentRequest] ++ paymentAnswers ++
        [.block paymentBlock, .wakeUp 0])).trace 0) := by
  refine ⟨by decide, fun h => ?_⟩
  exact h.merkleBlocks ⟨⟨[5]⟩, some [[9]]⟩ ⟨⟨[5]⟩, some [[9]]⟩ (by decide) (by decide) rfl

end Dapi
