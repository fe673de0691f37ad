/-
# The block listener, with and without a scan

The `block` listener tests the transactions of a block only when no block is
cached, "in case we've missed some or all transactions and got a block"; otherwise
it relies on what was announced.  Here it is compared with the listener that
always tests them, for a filter that is not updated.

* `storeBlockScanning` is the listener that always scans.
* `Known`: the cached blocks and the blocks of the log are among the delivered ones.
* `block_scan`: when the listener comes to know of every matching transaction of a
  new block, it leaves the lists of the cache as the scanning one does; a matching
  transaction is stored and flagged exactly when the listener comes to know of it.
-/
import Dapi.FilterHandover

namespace Dapi

open BloomFilter TransactionHashesCache Subscription

/-! ## A filter that is not updated -/

section Filter

variable {F : Type} [BloomFilter F] {filter : F}

/-- The test leaves the filter as it is, also when it raises. -/
theorem testTransactionAgainstFilter_snd_of_none (hnone : nFlags filter = BLOOM_UPDATE_NONE)
    (tx : Transaction) : (testTransactionAgainstFilter filter tx).2 = filter :=
  testTransactionAgainstFilter_snd_of_flags (by rw [hnone]; decide) (by rw [hnone]; decide) tx

/-- A filter that is not updated stays as it is. -/
theorem filterAfter_of_none (hnone : nFlags filter = BLOOM_UPDATE_NONE)
    (txs : List Transaction) : filterAfter filter txs = filter :=
  filterAfter_of_flags (by rw [hnone]; decide) (by rw [hnone]; decide) txs

/-- The transaction matches the filter. -/
def Matches (filter : F) (tx : Transaction) : Prop :=
  (testTransactionAgainstFilter filter tx).1 = .ok true

end Filter

/-! ## The listener that always scans -/

namespace TransactionHashesCache

variable {build : MerkleBlockBuild} {c c' : TransactionHashesCache}

/-- The transactions, the blocks and the merkle blocks agree. -/
structure SameLists (c c' : TransactionHashesCache) : Prop where
  transactions : c.transactions = c'.transactions
  merkleBlocks : c.merkleBlocks = c'.merkleBlocks
  blocks : c.blocks = c'.blocks
  cacheSize : c.cacheSize = c'.cacheSize

theorem SameLists.refl (c : TransactionHashesCache) : SameLists c c := ⟨rfl, rfl, rfl, rfl⟩

/-- The removal of a block keeps equal lists equal. -/
theorem SameLists.removeDataByBlock (h : SameLists c c') (block : Block) :
    SameLists (c.removeDataByBlock block) (c'.removeDataByBlock block) := by
  unfold TransactionHashesCache.removeDataByBlock
  constructor
  · simp only [h.transactions]
  · simp only [h.merkleBlocks]
  · simp only [h.blocks]
  · exact h.cacheSize

theorem SameLists.shiftBlocks (h : SameLists c c') : SameLists c.shiftBlocks c'.shiftBlocks := by
  unfold TransactionHashesCache.shiftBlocks
  rw [← h.blocks, ← h.cacheSize]
  split_ifs
  · cases hblocks : c.blocks with
    | nil => exact h
    | cons firstBlock blocks =>
        apply SameLists.removeDataByBlock
        exact ⟨h.transactions, h.merkleBlocks, rfl, rfl⟩
  · exact h

/-- What `addBlock` does to the lists depends on the lists only. -/
theorem SameLists.addBlock (h : SameLists c c') (block : Block) :
    SameLists (c.addBlock build block) (c'.addBlock build block) := by
  have hflags : c.processBlock.matchedTransactionFlags block =
      c'.processBlock.matchedTransactionFlags block := by
    show block.transactionHashes.map _ = block.transactionHashes.map _
    apply List.map_congr_left
    intro hash _
    show (c.transactions.map _).contains hash = (c'.transactions.map _).contains hash
    rw [h.transactions]
  unfold TransactionHashesCache.addBlock haveMatchingTransactions
  simp only [hflags]
  split_ifs
  · apply SameLists.shiftBlocks
    constructor
    · exact h.transactions
    · exact congrArg (· ++ _) h.merkleBlocks
    · exact congrArg (· ++ _) h.blocks
    · exact h.cacheSize
  · exact ⟨h.transactions, h.merkleBlocks, h.blocks, h.cacheSize⟩

/-- The flags mark exactly the transactions that are in the cache. -/
theorem flagged_matchedTransactionFlags_iff {block : Block} {tx : Transaction}
    (htx : tx ∈ block.transactions) :
    Flagged block (c.matchedTransactionFlags block) tx ↔ tx.hash ∈ c.cacheTransactionHashes := by
  constructor
  · exact Flagged.mem_cache
  · intro hcached
    have hflags : c.matchedTransactionFlags block =
        block.transactions.map (fun tx => c.cacheTransactionHashes.contains tx.hash) := by
      rw [matchedTransactionFlags, Block.transactionHashes, List.map_map]
      rfl
    rw [Flagged, hflags, ← List.map_prod_left_eq_zip, List.mem_map]
    refine ⟨tx, htx, ?_⟩
    simpa using hcached

/-- The only block that `addBlock` logs as added is its argument, with the flags it computes. -/
theorem eq_of_blockAdded_mem_addBlockEvents {block b : Block} {flags : List Bool}
    {merkleBlock : MerkleBlock}
    (h : .blockAdded b flags merkleBlock ∈ c.addBlockEvents build block) :
    b = block ∧ flags = c.matchedTransactionFlags block := by
  unfold addBlockEvents at h
  split_ifs at h
  · rcases List.mem_cons.mp h with heq | h
    · cases heq
      exact ⟨rfl, rfl⟩
    · obtain ⟨_, -, heq⟩ := Option.map_eq_some_iff.mp (Option.mem_toList.mp h)
      cases heq
  · cases h

end TransactionHashesCache

namespace Subscription

variable {F : Type} (env : Environment F) {s s' : Subscription F}

/-- The `block` listener as it would be if it always tested the transactions. -/
def storeBlockScanning (block : Block) (s : Subscription F) :
    Except ScriptError Unit × Subscription F :=
  match forEach (testBody env) block.transactions s with
  | (.ok (), s) => (.ok (), s.addBlock env block)
  | (.error e, s) => (.error e, s)

/-- The transaction is flagged in a cached merkle block of the block. -/
def FlaggedInCache (s : Subscription F) (block : Block) (tx : Transaction) : Prop :=
  ∃ flags merkleBlock, .blockAdded block flags merkleBlock ∈ s.trace ∧
    merkleBlock ∈ s.cache.merkleBlocks.map Entry.value ∧ Flagged block flags tx

/-- The `block` listener comes to know of a matching transaction: it scans, or the transaction was
announced and is in the cache. -/
def Noticed (s : Subscription F) (tx : Transaction) : Prop :=
  s.cache.getBlockCount = 0 ∨ tx.hash ∈ s.cache.cacheTransactionHashes

/-! ## The blocks that the cache knows -/

/-- The blocks of the cache and of the log are among `blocks`. -/
structure Known (blocks : List Block) (c : TransactionHashesCache) (t : List TraceEvent) :
    Prop where
  cached : ∀ b ∈ c.blocks, b ∈ blocks
  logged : ∀ b flags merkleBlock, .blockAdded b flags merkleBlock ∈ t → b ∈ blocks
  cacheSize : c.cacheSize = 10

variable {blocks : List Block} {c c' : TransactionHashesCache} {t es : List TraceEvent}

theorem Known.append (h : Known blocks c t) (hcached : ∀ b ∈ c'.blocks, b ∈ blocks)
    (hlogged : ∀ b flags merkleBlock, .blockAdded b flags merkleBlock ∈ es → b ∈ blocks)
    (hsize : c'.cacheSize = c.cacheSize) : Known blocks c' (t ++ es) := by
  refine ⟨hcached, ?_, hsize.trans h.cacheSize⟩
  intro b flags merkleBlock hmem
  rcases List.mem_append.mp hmem with hmem | hmem
  · exact h.logged b flags merkleBlock hmem
  · exact hlogged b flags merkleBlock hmem

theorem Known.mono {blocks' : List Block} (h : Known blocks c t)
    (hsub : ∀ b ∈ blocks, b ∈ blocks') : Known blocks' c t where
  cached := fun b hb => hsub b (h.cached b hb)
  logged := fun b flags merkleBlock hmem => hsub b (h.logged b flags merkleBlock hmem)
  cacheSize := h.cacheSize

/-- A step knows no block that was not delivered. -/
theorem preserves_known (a : Action) : Preserves a (Known blocks) where
  logs := fun {c t e} he h => by
    refine h.append h.cached ?_ rfl
    intro b flags merkleBlock hmem
    -- what is logged beside the cache is about no block
    have hquiet := he.quiet
    rw [← List.mem_singleton.mp hmem] at hquiet
    exact hquiet.elim
  addTransaction := fun {c t tx} _ h => by
    refine h.append h.cached ?_ rfl
    intro b flags merkleBlock hmem
    cases eq_of_mem_addTransactionEvents hmem
  removeDataByBlockHash := fun {c t blockHash} _ h => by
    refine h.append ?_ ?_ ?_
    · exact fun b hb =>
        h.cached b ((c.removeDataByBlockHash_prunes blockHash).blocks.subset hb)
    · intro b flags merkleBlock hmem
      obtain ⟨_, heq⟩ := exists_of_mem_removeDataByBlockHashEvents hmem
      cases heq
    · exact (c.removeDataByBlockHash_prunes blockHash).cacheSize
  addInstantLock := fun _ h => ⟨h.cached, h.logged, h.cacheSize⟩
  sendInstantLock := fun {c t lock} _ _ h => by
    obtain ⟨transactionHashesMap, heq⟩ := c.removeTransactionHash_eq lock.txid
    rw [heq]
    exact h.append h.cached (fun _ _ _ hmem => absurd hmem blockAdded_not_mem_deliveryEvents) rfl
  iteration := fun {c t} _ h =>
    h.append h.cached (fun _ _ _ hmem => absurd hmem blockAdded_not_mem_iterationEvents) rfl

/-- A delivered block is known then. -/
theorem Known.addBlock (h : Known blocks c t) (block : Block) :
    Known (blocks ++ [block]) (c.addBlock env.build block)
      (t ++ c.addBlockEvents env.build block) := by
  have hpushed : ∀ b ∈ c.blocks ++ [block], b ∈ blocks ++ [block] := by
    intro b hb
    rcases List.mem_append.mp hb with hb | hb
    · exact List.mem_append_left _ (h.cached b hb)
    · exact List.mem_append_right _ hb
  refine (h.mono fun b hb => List.mem_append_left _ hb).append ?_ ?_ ?_
  · exact fun b hb => hpushed b ((c.addBlock_blocks env.build block).subset hb)
  · intro b flags merkleBlock hmem
    have hblock := eq_of_blockAdded_mem_addBlockEvents hmem
    rw [hblock.1]
    simp
  · exact c.addBlock_cacheSize env.build block

/-- **Blocks come from outside**: what is cached or told of was delivered. -/
theorem run_known (filter : F) (as : List Action) :
    Known (deliveredBlocks as) (run env (start filter) as).cache
      (run env (start filter) as).trace := by
  refine Machine.run_induction (s := start filter)
    (P := fun as s => Known (deliveredBlocks as) s.cache s.trace) ?_ ?_ as
  · refine ⟨fun b hb => ?_, fun b flags merkleBlock hmem => ?_, rfl⟩
    · cases hb
    · cases hmem
  · intro as a ih
    have happ : deliveredBlocks (as ++ [a]) = deliveredBlocks as ++ deliveredBlocks [a] :=
      List.filterMap_append
    rw [happ]
    refine (preserves_known a).step ?_ (run_wired env filter as) ?_ ih
    · exact fun h => h.mono fun b hb => List.mem_append_left _ hb
    · rintro block rfl c t h
      exact h.addBlock env block

/-! ## The addition of a new block -/

/-- A cached transaction of a new block is flagged in a cached merkle block, others are not. -/
theorem flaggedInCache_addBlock_iff (hbuild : KeepsHeader env.build)
    (hk : Known blocks s.cache s.trace) {block : Block}
    (hfresh : ∀ b ∈ blocks, b.hash ≠ block.hash) {tx : Transaction}
    (htx : tx ∈ block.transactions) :
    (s.addBlock env block).FlaggedInCache block tx ↔
      tx.hash ∈ s.cache.cacheTransactionHashes := by
  constructor
  · rintro ⟨flags, merkleBlock, hadded, -, hflagged⟩
    rcases List.mem_append.mp hadded with hadded | hadded
    · -- an older merkle block is one of another block
      exact absurd rfl (hfresh block (hk.logged block flags merkleBlock hadded))
    · rw [(eq_of_blockAdded_mem_addBlockEvents hadded).2] at hflagged
      exact hflagged.mem_cache
  · intro hcached
    have hm : s.cache.haveMatchingTransactions block = true :=
      (haveMatchingTransactions_iff block).mpr ⟨tx.hash, List.mem_map_of_mem htx, hcached⟩
    set merkleBlock := buildMerkleBlock env.build block (s.cache.matchedTransactionFlags block)
      with hmerkle
    have hheader : merkleBlock.header.hash = block.hash := by
      rw [hmerkle, buildMerkleBlock_header, hbuild]
      rfl
    have hlogged : .blockAdded block (s.cache.matchedTransactionFlags block) merkleBlock ∈
        (s.addBlock env block).trace := by
      apply List.mem_append_right
      unfold addBlockEvents
      rw [if_pos hm]
      exact List.mem_cons_self
    refine ⟨_, merkleBlock, hlogged, ?_, (flagged_matchedTransactionFlags_iff htx).mpr hcached⟩
    have hpushed : ⟨merkleBlock, false⟩ ∈ (s.cache.withBlock env.build block).merkleBlocks :=
      List.mem_append_right _ (List.mem_singleton_self _)
    apply List.mem_map_of_mem (a := (⟨merkleBlock, false⟩ : Entry MerkleBlock))
    show _ ∈ (s.cache.addBlock env.build block).merkleBlocks
    rcases s.cache.addBlock_cases env.build block with
      ⟨hno, -⟩ | ⟨-, -, heq⟩ | ⟨-, hle, firstBlock, rest, hcons, heq⟩
    · rw [hm] at hno
      cases hno
    · rw [heq]
      exact hpushed
    · -- the evicted block is an older one
      have hold : firstBlock ∈ s.cache.blocks := by
        rw [hk.cacheSize] at hle
        have hpos : 0 < s.cache.blocks.length := by omega
        obtain ⟨b, bs, hblocks⟩ := List.exists_cons_of_length_pos hpos
        rw [hblocks, List.cons_append] at hcons
        rw [hblocks, ← (List.cons.inj hcons).1]
        exact List.mem_cons_self
      rw [heq, removeDataByBlock_merkleBlocks]
      refine (Splice.mem_removeLast_of_neg ?_).mpr hpushed
      have hne := hfresh firstBlock (hk.cached firstBlock hold)
      rw [hheader]
      simpa using hne.symm

/-- A transaction of a block stays in the cache, unless it is in the block that is evicted. -/
theorem hash_mem_addBlock_iff {build : MerkleBlockBuild} {c : TransactionHashesCache}
    {block : Block} {h : Hash} (hmem : h ∈ block.transactionHashes) :
    h ∈ (c.addBlock build block).cacheTransactionHashes ↔
      h ∈ c.cacheTransactionHashes ∧
        ∀ firstBlock, c.evictedBlock block = some firstBlock →
          h ∉ firstBlock.transactionHashes := by
  unfold evictedBlock
  rcases c.addBlock_cases build block with
    ⟨hno, heq⟩ | ⟨hm, hlt, heq⟩ | ⟨hm, hle, firstBlock, rest, hcons, heq⟩
  · rw [heq]
    -- without a match there is no transaction of the block in the cache
    have hout : h ∉ c.cacheTransactionHashes := by
      intro hcached
      rw [(haveMatchingTransactions_iff block).mpr ⟨h, hmem, hcached⟩] at hno
      cases hno
    exact iff_of_false hout fun hboth => hout hboth.1
  · rw [heq, if_neg (Nat.not_le.mpr hlt)]
    exact ⟨fun hcached => ⟨hcached, fun _ hb => by cases hb⟩, fun hboth => hboth.1⟩
  · rw [heq, if_pos hle, hcons]
    constructor
    · intro hcached
      obtain ⟨e, he, rfl⟩ := mem_cacheTransactionHashes.mp hcached
      rw [mem_removeDataByBlock_transactions] at he
      refine ⟨mem_cacheTransactionHashes.mpr ⟨e, he.1, rfl⟩, ?_⟩
      rintro b hb
      cases hb
      exact he.2
    · rintro ⟨hcached, hout⟩
      obtain ⟨e, he, rfl⟩ := mem_cacheTransactionHashes.mp hcached
      refine mem_cacheTransactionHashes.mpr ⟨e, ?_, rfl⟩
      rw [mem_removeDataByBlock_transactions]
      exact ⟨he, hout firstBlock rfl⟩

/-! ## What a scan does -/

/-- What the scan of a block keeps, and what of the cache it may change. -/
structure Scanned (s s' : Subscription F) : Prop where
  wiring : s'.wiring = s.wiring
  filter : s'.filter = s.filter
  merkleBlocks : s'.cache.merkleBlocks = s.cache.merkleBlocks
  blocks : s'.cache.blocks = s.cache.blocks
  cacheSize : s'.cache.cacheSize = s.cache.cacheSize
  cached : ∀ h ∈ s.cache.cacheTransactionHashes, h ∈ s'.cache.cacheTransactionHashes

theorem Scanned.refl (s : Subscription F) : Scanned s s :=
  ⟨rfl, rfl, rfl, rfl, rfl, fun _ h => h⟩

/-- One scan after the other. -/
theorem Scanned.trans {s'' : Subscription F} (h : Scanned s s') (h' : Scanned s' s'') :
    Scanned s s'' where
  wiring := h'.wiring.trans h.wiring
  filter := h'.filter.trans h.filter
  merkleBlocks := h'.merkleBlocks.trans h.merkleBlocks
  blocks := h'.blocks.trans h.blocks
  cacheSize := h'.cacheSize.trans h.cacheSize
  cached := fun hash hmem => h'.cached hash (h.cached hash hmem)

variable [BloomFilter F] {build : MerkleBlockBuild}

/-- One test, with a filter that is not updated. -/
theorem testBody_scanned (hw : Wired s) (hnone : nFlags s.filter = BLOOM_UPDATE_NONE)
    (tx : Transaction) : Scanned s (s.testBody (standardEnvironment build) tx).2 := by
  have hfilter : (testTransactionAgainstFilter s.filter tx).2 = s.filter :=
    testTransactionAgainstFilter_snd_of_none hnone tx
  rw [testBody_snd _ hw tx]
  split_ifs
  · refine ⟨rfl, hfilter, rfl, rfl, rfl, fun h hcached => ?_⟩
    obtain ⟨e, he, rfl⟩ := mem_cacheTransactionHashes.mp hcached
    exact mem_cacheTransactionHashes.mpr ⟨e, mem_addTransaction_of_mem he, rfl⟩
  · exact ⟨rfl, hfilter, rfl, rfl, rfl, fun _ hcached => hcached⟩

/-- A matching transaction is in the cache once it was tested. -/
theorem hash_mem_testBody (hw : Wired s) (hc : s.isClientConnected = true) {tx : Transaction}
    (hm : Matches s.filter tx) :
    tx.hash ∈ (s.testBody (standardEnvironment build) tx).2.cache.cacheTransactionHashes := by
  rw [testBody_snd _ hw tx, if_pos ⟨hm, hc⟩]
  exact hash_mem_addTransaction tx

/-- A test of a transaction that is no news leaves the list of transactions. -/
theorem testBody_transactions (hw : Wired s) {tx : Transaction}
    (hm : Matches s.filter tx → tx.hash ∈ s.cache.cacheTransactionHashes) :
    (s.testBody (standardEnvironment build) tx).2.cache.transactions = s.cache.transactions := by
  rw [testBody_snd _ hw tx]
  split_ifs with h
  · have hold : (s.cache.addTransaction tx).1 = false := by
      rw [addTransaction_fst, List.contains_eq_mem, decide_eq_true (hm h.1)]
      rfl
    show (s.cache.addTransaction tx).2.transactions = s.cache.transactions
    rw [addTransaction_transactions, hold]
    rfl
  · rfl

/-- **A scan finds every matching transaction.** -/
theorem forEach_testBody_scanned (hw : Wired s) (hc : s.isClientConnected = true)
    (hnone : nFlags s.filter = BLOOM_UPDATE_NONE) (txs : List Transaction)
    (hok : (forEach (testBody (standardEnvironment build)) txs s).1 = .ok ()) :
    Scanned s (forEach (testBody (standardEnvironment build)) txs s).2 ∧
      ∀ tx ∈ txs, Matches s.filter tx → tx.hash ∈
        (forEach (testBody (standardEnvironment build)) txs
          s).2.cache.cacheTransactionHashes := by
  have hstep : ∀ (x : Transaction) (s₁ s₂ : Subscription F), Scanned s s₁ →
      s₁.testBody (standardEnvironment build) x = (.ok (), s₂) → Scanned s₁ s₂ := by
    intro x s₁ s₂ h₁ heq
    have htested : Scanned s₁ (s₁.testBody (standardEnvironment build) x).2 :=
      testBody_scanned (hw.congr h₁.wiring) (by rwa [h₁.filter]) x
    rwa [heq] at htested
  -- after its test a matching transaction is cached, and no later test takes it out
  have hfinds : ∀ x ∈ txs, ∀ s₁ s₂ : Subscription F, Scanned s s₁ →
      s₁.testBody (standardEnvironment build) x = (.ok (), s₂) →
        Scanned s s₂ ∧ (Matches s.filter x → x.hash ∈ s₂.cache.cacheTransactionHashes) := by
    intro x _ s₁ s₂ h₁ heq
    refine ⟨h₁.trans (hstep x s₁ s₂ h₁ heq), fun hm => ?_⟩
    rw [← h₁.filter] at hm
    have hc₁ : s₁.isClientConnected = true :=
      (congrArg Wiring.isClientConnected h₁.wiring).trans hc
    have hmem : x.hash ∈
        (s₁.testBody (standardEnvironment build) x).2.cache.cacheTransactionHashes :=
      hash_mem_testBody (hw.congr h₁.wiring) hc₁ hm
    rwa [heq] at hmem
  have hkeeps : ∀ (x y : Transaction) (s₁ s₂ : Subscription F), Scanned s s₁ →
      (Matches s.filter x → x.hash ∈ s₁.cache.cacheTransactionHashes) →
        s₁.testBody (standardEnvironment build) y = (.ok (), s₂) →
          Matches s.filter x → x.hash ∈ s₂.cache.cacheTransactionHashes :=
    fun x y s₁ s₂ h₁ hx heq hm => (hstep y s₁ s₂ h₁ heq).cached _ (hx hm)
  obtain ⟨hend, hall⟩ := forEach_ok hfinds hkeeps (Scanned.refl s) hok
  exact ⟨hend, fun tx htx => hall tx (Or.inl htx)⟩

/-- A scan that finds nothing new leaves the lists of the cache. -/
theorem forEach_testBody_sameLists (hw : Wired s) (hnone : nFlags s.filter = BLOOM_UPDATE_NONE)
    {txs : List Transaction}
    (hall : ∀ tx ∈ txs, Matches s.filter tx → tx.hash ∈ s.cache.cacheTransactionHashes) :
    SameLists s.cache (forEach (testBody (standardEnvironment build)) txs s).2.cache := by
  have hinv : Scanned s (forEach (testBody (standardEnvironment build)) txs s).2 ∧
      (forEach (testBody (standardEnvironment build)) txs s).2.cache.transactions =
        s.cache.transactions := by
    refine forEach_invariant (I := fun s₁ : Subscription F => Scanned s s₁ ∧
      s₁.cache.transactions = s.cache.transactions) ?_ ⟨Scanned.refl s, rfl⟩
    rintro x hx s₁ ⟨h₁, htxs⟩
    have hw₁ : Wired s₁ := hw.congr h₁.wiring
    refine ⟨h₁.trans (testBody_scanned hw₁ (by rwa [h₁.filter]) x), ?_⟩
    refine (testBody_transactions hw₁ fun hm => ?_).trans htxs
    rw [h₁.filter] at hm
    exact h₁.cached _ (hall x hx hm)
  exact ⟨hinv.2.symm, hinv.1.merkleBlocks.symm, hinv.1.blocks.symm, hinv.1.cacheSize.symm⟩

/-- What the tests of the `block` listener leave. -/
theorem testBlock_scanned (hw : Wired s) (hc : s.isClientConnected = true)
    (hnone : nFlags s.filter = BLOOM_UPDATE_NONE) (block : Block)
    (hok : (s.testBlock (standardEnvironment build) block).1 = .ok ()) :
    Scanned s (s.testBlock (standardEnvironment build) block).2 ∧
      ∀ tx ∈ block.transactions, Matches s.filter tx →
        (tx.hash ∈ (s.testBlock (standardEnvironment build)
          block).2.cache.cacheTransactionHashes ↔ s.Noticed tx) := by
  unfold testBlock at hok ⊢
  unfold Noticed
  split_ifs at hok ⊢ with hcount
  · obtain ⟨hscanned, hall⟩ := forEach_testBody_scanned hw hc hnone block.transactions hok
    exact ⟨hscanned, fun tx htx hm => iff_of_true (hall tx htx hm) (Or.inl hcount)⟩
  · refine ⟨Scanned.refl s, fun tx htx hm => ?_⟩
    exact ⟨Or.inr, fun h => h.resolve_left hcount⟩

/-! ## Every run -/

/-- **What the `block` listener stores of a new block.**  After any run with a filter that is not
updated, a new block reaches a connected client and no test raises.  Then a matching
transaction of the block is flagged in a cached merkle block of it exactly when the listener
noticed it, and it is in the list exactly when besides it is not in the evicted block.  When the
listener noticed every matching transaction, it leaves the lists as the scanning one does, unless
a test of that one raises. -/
theorem block_scan (hbuild : KeepsHeader build) (filter : F)
    (hnone : nFlags filter = BLOOM_UPDATE_NONE) (as : List Action) (block : Block)
    (hfresh : ∀ b ∈ deliveredBlocks as, b.hash ≠ block.hash) {s s' : Subscription F}
    (hs : run (standardEnvironment build) (start filter) as = s)
    (hc : s.isClientConnected = true)
    (hok : s.handle (standardEnvironment build) (.block block) = (.ok (), s')) :
    (∀ tx ∈ block.transactions, Matches filter tx →
      (s'.FlaggedInCache block tx ↔ s.Noticed tx) ∧
        (tx.hash ∈ s'.cache.cacheTransactionHashes ↔
          s.Noticed tx ∧ ∀ firstBlock, s.cache.evictedBlock block = some firstBlock →
            tx.hash ∉ firstBlock.transactionHashes)) ∧
      ((∀ tx ∈ block.transactions, Matches filter tx → s.Noticed tx) →
        (s.storeBlockScanning (standardEnvironment build) block).1 = .ok () →
          SameLists s'.cache
            (s.storeBlockScanning (standardEnvironment build) block).2.cache) := by
  have hw : Wired s := hs ▸ run_wired _ filter as
  have hk : Known (deliveredBlocks as) s.cache s.trace := hs ▸ run_known _ filter as
  have hfilter : s.filter = filter := by
    rw [← hs, run_filter build filter as, filterAfter_of_none hnone]
  rw [← hfilter] at hnone ⊢
  have hstored : s.storeBlock (standardEnvironment build) block = (.ok (), s') := by
    have hemit : s.emitBlock (standardEnvironment build) block = (.ok (), s') := hok
    rwa [emitBlock_eq _ hw, if_pos hc] at hemit
  unfold storeBlock at hstored
  rcases hr : s.testBlock (standardEnvironment build) block with ⟨_ | _, s₁⟩
  · rw [hr] at hstored
    cases hstored
  · rw [hr] at hstored
    obtain rfl : s₁.addBlock (standardEnvironment build) block = s' := by cases hstored; rfl
    obtain ⟨hscan, hnoticed⟩ := testBlock_scanned hw hc hnone block (by rw [hr])
    rw [hr] at hscan hnoticed
    have hk₁ : Known (deliveredBlocks as) s₁.cache s₁.trace := by
      have hkept : Known (deliveredBlocks as)
          (s.testBlock (standardEnvironment build) block).2.cache
          (s.testBlock (standardEnvironment build) block).2.trace :=
        (preserves_known (.block block)).testBlock hw hk
      rwa [hr] at hkept
    refine ⟨fun tx htx hm => ⟨?_, ?_⟩, fun hall hscanok => ?_⟩
    · rw [flaggedInCache_addBlock_iff _ hbuild hk₁ hfresh htx]
      exact hnoticed tx htx hm
    · -- the tests do not change which block is evicted
      have hevicted : s.cache.evictedBlock block = s₁.cache.evictedBlock block := by
        unfold evictedBlock
        rw [hscan.blocks, hscan.cacheSize]
      rw [← hnoticed tx htx hm, hevicted]
      exact hash_mem_addBlock_iff (List.mem_map_of_mem htx)
    · unfold storeBlockScanning at hscanok ⊢
      unfold testBlock at hr
      split_ifs at hr with hcount
      · rw [hr]
        exact SameLists.refl _
      · -- nothing was scanned, and the scan would have found nothing new
        cases hr
        have hcached : ∀ tx ∈ block.transactions, Matches s.filter tx →
            tx.hash ∈ s.cache.cacheTransactionHashes :=
          fun tx htx hm => (hall tx htx hm).resolve_left hcount
        have hsame : SameLists s.cache
            (forEach (testBody (standardEnvironment build)) block.transactions s).2.cache :=
          forEach_testBody_sameLists hw hnone hcached
        rcases hf : forEach (testBody (standardEnvironment build)) block.transactions s with
          ⟨_ | _, s₂⟩
        · rw [hf] at hscanok
          cases hscanok
        · rw [hf] at hsame
          exact hsame.addBlock block

/-- A filter that matches the transactions `[1]` and `[2]` by their hashes. -/
def twoHashes : ExactFilter := ⟨[[1], [2]], BLOOM_UPDATE_NONE⟩

/-- The run of a new subscription with this filter. -/
abbrev twoHashesRun (as : List Action) : Subscription ExactFilter :=
  run (standardEnvironment fullBuild) (start twoHashes) as

/-- A transaction that was announced is flagged, though its block is not scanned. -/
theorem block_scan_announced :
    ((twoHashesRun [.block (bareBlock [11] [[1]]), .matched (bareTransaction [2])]).step
        (standardEnvironment fullBuild) (.block (bareBlock [12] [[2]]))).FlaggedInCache
      (bareBlock [12] [[2]]) (bareTransaction [2]) := by
  have hstored := block_scan keepsHeader_fullBuild twoHashes rfl
    [.block (bareBlock [11] [[1]]), .matched (bareTransaction [2])] (bareBlock [12] [[2]])
    (by decide) rfl (by decide) rfl
  exact (hstored.1 (bareTransaction [2]) (by decide) rfl).1.mpr (Or.inr (by decide))

/-- A matching transaction of a new block is lost when it was not announced and a block is cached;
and one that was announced leaves the list with the evicted block. -/
theorem not_block_scan_unannounced :
    (Matches twoHashes (bareTransaction [2]) ∧
      (bareTransaction [2]).hash ∉ ((twoHashesRun [.block (bareBlock [11] [[1]])]).step
        (standardEnvironment fullBuild)
          (.block (bareBlock [12] [[2]]))).cache.cacheTransactionHashes ∧
      ¬ ((twoHashesRun [.block (bareBlock [11] [[1]])]).step (standardEnvironment fullBuild)
          (.block (bareBlock [12] [[2]]))).FlaggedInCache
        (bareBlock [12] [[2]]) (bareTransaction [2])) ∧
      Matches twoHashes (bareTransaction [1]) ∧
      (bareTransaction [1]).hash ∉ ((twoHashesRun
        ((List.range 10).map fun i => .block (bareBlock [UInt8.ofNat (10 + i)] [[1]]))).step
          (standardEnvironment fullBuild)
          (.block (bareBlock [20] [[1]]))).cache.cacheTransactionHashes := by
  refine ⟨⟨rfl, by decide, ?_⟩, rfl, by decide +kernel⟩
  rintro ⟨flags, merkleBlock, hadded, -, -⟩
  have htrace : ((twoHashesRun [.block (bareBlock [11] [[1]])]).step
      (standardEnvironment fullBuild) (.block (bareBlock [12] [[2]]))).trace =
        [.tested (bareTransaction [1]) (.ok true), .transactionAdded (bareTransaction [1]),
          .blockAdded (bareBlock [11] [[1]]) [true] ⟨⟨[11]⟩, some [[1]]⟩] := by
    decide
  rw [htrace] at hadded
  simp [bareBlock] at hadded

end Subscription

end Dapi
