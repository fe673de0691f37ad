/-
# `TransactionHashesCache`: what one subscription remembers

`src/lib/transactionsFilter/TransactionHashesCache.js`.  The cache holds the
matched transactions, the blocks that contain some of them with the merkle
blocks built for them, the waiting list for instant locks and the locks that
came too early to be sent.

* The code comes first, one definition for each method.  `MerkleBlock.build` of
  dashcore-lib is the parameter `build`.
* Each method that loops has a lemma that says what the loop computes.
* `addBlock_cases` gives the three ways in which `addBlock` ends: nothing matched,
  the block was pushed, or it was pushed and the oldest one evicted.
* `CacheOp` lists the operations, so that a run of the cache is a list of them.
-/
import Dapi.Splice
import Dapi.OrderedMap
import Dapi.Trace
import Dapi.CoreTypes

namespace Dapi

/-! ## Entries with a mark -/

/-- An element of a list of the cache, with the mark that it was handed out. -/
structure Entry (α : Type) where
  value : α
  isRetrieved : Bool
  deriving DecidableEq

namespace Entry

variable {α : Type}

/-- The elements that were not handed out yet. -/
def unretrieved (l : List (Entry α)) : List α :=
  (l.filter (fun e => !e.isRetrieved)).map value

/-- Mark every element that was not handed out yet; the others carry the mark already. -/
def markRetrieved (l : List (Entry α)) : List (Entry α) :=
  l.map (fun e => if e.isRetrieved then e else { e with isRetrieved := true })

/-- What is not retrieved. -/
theorem mem_unretrieved {l : List (Entry α)} {a : α} : a ∈ unretrieved l ↔ ⟨a, false⟩ ∈ l := by
  constructor
  · intro h
    obtain ⟨⟨v, r⟩, he, rfl⟩ := List.mem_map.mp h
    obtain ⟨hmem, hr⟩ := List.mem_filter.mp he
    obtain rfl : r = false := by simpa using hr
    exact hmem
  · intro h
    exact List.mem_map.mpr ⟨⟨a, false⟩, List.mem_filter.mpr ⟨h, rfl⟩, rfl⟩

@[simp] theorem unretrieved_append (l l' : List (Entry α)) :
    unretrieved (l ++ l') = unretrieved l ++ unretrieved l' := by
  rw [unretrieved, List.filter_append, List.map_append]
  rfl

@[simp] theorem unretrieved_new (a : α) : unretrieved [⟨a, false⟩] = [a] := rfl

/-- The order of the entries does not matter. -/
theorem unretrieved_perm {l l' : List (Entry α)} (h : l.Perm l') :
    (unretrieved l).Perm (unretrieved l') :=
  (h.filter _).map value

/-- Fewer entries, fewer that are not retrieved. -/
theorem unretrieved_sublist {l l' : List (Entry α)} (h : l.Sublist l') :
    (unretrieved l).Sublist (unretrieved l') :=
  (h.filter _).map value

/-- Nothing is left to hand out. -/
@[simp] theorem unretrieved_markRetrieved (l : List (Entry α)) :
    unretrieved (markRetrieved l) = [] := by
  have hnone : ∀ e ∈ markRetrieved l, ¬ (!e.isRetrieved) = true := by
    intro e he
    obtain ⟨e', -, rfl⟩ := List.mem_map.mp he
    split_ifs with hr
    · simp [hr]
    · simp
  rw [unretrieved, List.filter_eq_nil_iff.mpr hnone, List.map_nil]

/-- All entries are retrieved then. -/
theorem mem_markRetrieved {l : List (Entry α)} {e : Entry α} :
    e ∈ markRetrieved l ↔ e.isRetrieved = true ∧ ∃ e' ∈ l, e'.value = e.value := by
  constructor
  · intro h
    obtain ⟨e', he', rfl⟩ := List.mem_map.mp h
    split_ifs with hr
    · exact ⟨hr, e', he', rfl⟩
    · exact ⟨rfl, e', he', rfl⟩
  · rintro ⟨hr, e', he', hv⟩
    refine List.mem_map.mpr ⟨e', he', ?_⟩
    obtain ⟨v, r⟩ := e
    obtain ⟨v', r'⟩ := e'
    obtain rfl : v' = v := hv
    obtain rfl : r = true := hr
    cases r' <;> rfl

/-- What is cached stays cached when it is retrieved. -/
@[simp] theorem map_value_markRetrieved (l : List (Entry α)) :
    (markRetrieved l).map value = l.map value := by
  rw [markRetrieved, List.map_map]
  apply List.map_congr_left
  intro e _
  show (if e.isRetrieved then e else { e with isRetrieved := true }).value = e.value
  split_ifs <;> rfl

/-- Marking leaves what is computed from the elements alone. -/
theorem map_markRetrieved {β : Type} (f : α → β) (l : List (Entry α)) :
    (markRetrieved l).map (fun e => f e.value) = l.map (fun e => f e.value) := by
  have hvalues := congrArg (List.map f) (map_value_markRetrieved l)
  rw [List.map_map, List.map_map] at hvalues
  exact hvalues

end Entry

/-! ## The code -/

/-- How many blocks a hash waits for its instant lock. -/
def BLOCKS_TO_STAY_IN_INSTANT_LOCK_CACHE : ℕ := 10

/-- The cache of one subscription. -/
structure TransactionHashesCache where
  transactions : List (Entry Transaction)
  merkleBlocks : List (Entry MerkleBlock)
  blocks : List Block
  cacheSize : ℕ
  transactionHashesMap : OrderedMap Hash ℕ
  blocksProcessed : ℕ
  unretrievedInstantLocks : OrderedMap Hash InstantLock

namespace TransactionHashesCache

/-- `new TransactionHashesCache()` -/
def new : TransactionHashesCache where
  transactions := []
  merkleBlocks := []
  blocks := []
  cacheSize := 10
  transactionHashesMap := OrderedMap.empty
  blocksProcessed := 0
  unretrievedInstantLocks := OrderedMap.empty

/-- Whether a transaction waits for its instant lock. -/
def isInInstantLockCache (cache : TransactionHashesCache) (transactionHash : Hash) : Bool :=
  cache.transactionHashesMap.has transactionHash

/-- The hashes of the cached transactions. -/
def cacheTransactionHashes (cache : TransactionHashesCache) : List Hash :=
  cache.transactions.map (fun e => e.value.hash)

/-- The body of `addTransaction`: a transaction is stored when no entry has its hash, and its
hash put on the waiting list when it is not there. -/
def addTransaction (cache : TransactionHashesCache) (transaction : Transaction) :
    Bool × TransactionHashesCache :=
  let isAdded := decide
    (0 < (cache.transactions.filter (fun e => decide (e.value.hash = transaction.hash))).length)
  let transactions :=
    if !isAdded then cache.transactions ++ [⟨transaction, false⟩] else cache.transactions
  let transactionHashesMap :=
    if !cache.isInInstantLockCache transaction.hash then
      cache.transactionHashesMap.set transaction.hash cache.blocksProcessed
    else cache.transactionHashesMap
  -- a transaction that was there already may still enter the waiting list
  (!isAdded, { cache with transactions, transactionHashesMap })

/-- The hash leaves the waiting list, if it is on it. -/
def removeTransactionHashFromInstantSendLockWaitingList (cache : TransactionHashesCache)
    (transactionHash : Hash) : TransactionHashesCache :=
  if cache.isInInstantLockCache transactionHash then
    { cache with transactionHashesMap := cache.transactionHashesMap.delete transactionHash }
  else cache

/-- The part of `addBlock` that is about instant locks: the block is counted, and the hashes
that have waited for more than ten blocks leave the waiting list. -/
def processBlock (cache : TransactionHashesCache) : TransactionHashesCache :=
  let blocksProcessed := cache.blocksProcessed + 1
  let removeAfterHeight : ℤ := (blocksProcessed : ℤ) - BLOCKS_TO_STAY_IN_INSTANT_LOCK_CACHE
  { cache with
    blocksProcessed
    transactionHashesMap := cache.transactionHashesMap.deleteWhere
      (fun _ value => decide ((value : ℤ) < removeAfterHeight)) }

/-- Which transactions of the block are in the cache. -/
def matchedTransactionFlags (cache : TransactionHashesCache) (block : Block) : List Bool :=
  block.transactionHashes.map (fun hash => cache.cacheTransactionHashes.contains hash)

/-- Whether a block has a cached transaction. -/
def haveMatchingTransactions (cache : TransactionHashesCache) (block : Block) : Bool :=
  (cache.matchedTransactionFlags block).any id

/-- The merkle block of a block, its hashes reversed back. -/
def buildMerkleBlock (build : MerkleBlockBuild) (block : Block) (flags : List Bool) :
    MerkleBlock :=
  let merkleBlock := build block.header block.transactionHashes flags
  { merkleBlock with hashes := merkleBlock.hashes.map (List.map List.reverse) }

/-- `removeDataByBlock`: the transactions of the block, the last merkle block and the last
cached block with its hash go. -/
def removeDataByBlock (cache : TransactionHashesCache) (block : Block) :
    TransactionHashesCache :=
  { cache with
    transactions := Splice.spliceAll
      (fun e => block.transactionHashes.contains e.value.hash)
      cache.transactions.length cache.transactions
    merkleBlocks := Splice.spliceLast
      (fun e => decide (e.value.header.hash = block.hash))
      cache.merkleBlocks.length cache.merkleBlocks
    blocks := Splice.spliceLast
      (fun b => decide (b.hash = block.hash)) cache.blocks.length cache.blocks }

/-- Keep the cache within its size: the oldest block goes, with its data. -/
def shiftBlocks (cache : TransactionHashesCache) : TransactionHashesCache :=
  if cache.blocks.length > cache.cacheSize then
    match cache.blocks with
    | [] => cache
    | firstBlock :: blocks => { cache with blocks }.removeDataByBlock firstBlock
  else cache

/-- Store a block and its merkle block. -/
def pushBlock (cache : TransactionHashesCache) (block : Block) (merkleBlock : MerkleBlock) :
    TransactionHashesCache :=
  { cache with
    merkleBlocks := cache.merkleBlocks ++ [⟨merkleBlock, false⟩]
    blocks := cache.blocks ++ [block] }

/-- A new block: it ages the waiting list, and is kept with its merkle block when it has a cached
transaction; the oldest block then makes room. -/
def addBlock (build : MerkleBlockBuild) (cache : TransactionHashesCache) (block : Block) :
    TransactionHashesCache :=
  let cache := cache.processBlock
  if cache.haveMatchingTransactions block then
    let merkleBlock := buildMerkleBlock build block (cache.matchedTransactionFlags block)
    (cache.pushBlock block merkleBlock).shiftBlocks
  else cache

/-- `this.blocks.filter(b => b.hash === blockHash)[0]` -/
def findBlock (cache : TransactionHashesCache) (blockHash : Hash) : Option Block :=
  (cache.blocks.filter (fun b => decide (b.hash = blockHash))).head?

/-- The first block with the hash leaves with all that belongs to it. -/
def removeDataByBlockHash (cache : TransactionHashesCache) (blockHash : Hash) :
    TransactionHashesCache :=
  match cache.findBlock blockHash with
  | some block => cache.removeDataByBlock block
  | none => cache

/-- How many blocks are cached. -/
def getBlockCount (cache : TransactionHashesCache) : ℕ := cache.blocks.length

/-- The transactions that were not retrieved yet, which are retrieved now. -/
def getUnretrievedTransactions (cache : TransactionHashesCache) :
    List Transaction × TransactionHashesCache :=
  (Entry.unretrieved cache.transactions,
    { cache with transactions := Entry.markRetrieved cache.transactions })

/-- The merkle blocks that were not retrieved yet, which are retrieved now. -/
def getUnretrievedMerkleBlocks (cache : TransactionHashesCache) :
    List MerkleBlock × TransactionHashesCache :=
  (Entry.unretrieved cache.merkleBlocks,
    { cache with merkleBlocks := Entry.markRetrieved cache.merkleBlocks })

/-- The lock is kept under the identifier of its transaction. -/
def addInstantLock (cache : TransactionHashesCache) (instantLock : InstantLock) :
    TransactionHashesCache :=
  { cache with
    unretrievedInstantLocks := cache.unretrievedInstantLocks.set instantLock.txid instantLock }

/-- The kept locks, which are dropped. -/
def getUnretrievedInstantLocks (cache : TransactionHashesCache) :
    List InstantLock × TransactionHashesCache :=
  (cache.unretrievedInstantLocks.values,
    { cache with unretrievedInstantLocks := OrderedMap.empty })

/-! ## `addTransaction` -/

variable {cache : TransactionHashesCache}

/-- A transaction is added when no entry has its hash. -/
theorem addTransaction_fst (tx : Transaction) :
    (cache.addTransaction tx).1 = !cache.cacheTransactionHashes.contains tx.hash := by
  have hiff : 0 < (cache.transactions.filter
      (fun e => decide (e.value.hash = tx.hash))).length ↔
        tx.hash ∈ cache.cacheTransactionHashes := by
    rw [List.length_pos_iff_exists_mem, cacheTransactionHashes]
    simp [List.mem_filter]
  rw [List.contains_eq_mem, ← decide_eq_decide.mpr hiff]
  rfl

/-- A transaction is put at the end when it is new. -/
theorem addTransaction_transactions (tx : Transaction) :
    (cache.addTransaction tx).2.transactions =
      if (cache.addTransaction tx).1 then cache.transactions ++ [⟨tx, false⟩]
      else cache.transactions := rfl

/-- After the call an entry has the hash of the transaction. -/
theorem hash_mem_addTransaction (tx : Transaction) :
    tx.hash ∈ (cache.addTransaction tx).2.cacheTransactionHashes := by
  rw [cacheTransactionHashes, addTransaction_transactions, addTransaction_fst]
  by_cases h : cache.cacheTransactionHashes.contains tx.hash = true
  · rw [h]
    simpa [cacheTransactionHashes] using h
  · rw [Bool.not_eq_true] at h
    rw [h]
    simp

/-- What is cached stays. -/
theorem mem_addTransaction_of_mem {tx : Transaction} {e : Entry Transaction}
    (h : e ∈ cache.transactions) : e ∈ (cache.addTransaction tx).2.transactions := by
  rw [addTransaction_transactions]
  split_ifs
  · exact List.mem_append_left _ h
  · exact h

/-- A new entry carries no mark. -/
theorem of_mem_addTransaction {tx : Transaction} {e : Entry Transaction}
    (h : e ∈ (cache.addTransaction tx).2.transactions) :
    e ∈ cache.transactions ∨ e.isRetrieved = false := by
  rw [addTransaction_transactions] at h
  split_ifs at h
  · rcases List.mem_append.mp h with h | h
    · exact Or.inl h
    · rw [List.mem_singleton.mp h]
      exact Or.inr rfl
  · exact Or.inl h

/-- A hash that waits keeps the number it has; the hash of the call gets the current one. -/
theorem addTransaction_waiting (tx : Transaction) (h : Hash) :
    (cache.addTransaction tx).2.transactionHashesMap.get? h =
      if h = tx.hash ∧ cache.isInInstantLockCache h = false then some cache.blocksProcessed
      else cache.transactionHashesMap.get? h := by
  have hdef : (cache.addTransaction tx).2.transactionHashesMap =
      if !cache.isInInstantLockCache tx.hash then
        cache.transactionHashesMap.set tx.hash cache.blocksProcessed
      else cache.transactionHashesMap := rfl
  rw [hdef]
  by_cases hh : h = tx.hash
  · subst hh
    cases hw : cache.isInInstantLockCache tx.hash <;> simp
  · have hcond : ¬ (h = tx.hash ∧ cache.isInInstantLockCache h = false) := fun hc => hh hc.1
    rw [if_neg hcond]
    split_ifs
    · exact OrderedMap.get?_set_of_ne _ hh _
    · rfl

/-! ## The waiting list -/

/-- A transaction waits when its hash is a key of the waiting list. -/
theorem isInInstantLockCache_iff {h : Hash} :
    cache.isInInstantLockCache h = true ↔ ∃ v, cache.transactionHashesMap.get? h = some v := by
  rw [isInInstantLockCache, OrderedMap.has, Option.isSome_iff_exists]

/-- One hash leaves the waiting list. -/
theorem removeTransactionHash_waiting (hash h : Hash) :
    (cache.removeTransactionHashFromInstantSendLockWaitingList
        hash).transactionHashesMap.get? h =
      if h = hash then none else cache.transactionHashesMap.get? h := by
  unfold removeTransactionHashFromInstantSendLockWaitingList
  by_cases hin : cache.isInInstantLockCache hash = true
  · rw [if_pos hin]
    by_cases hh : h = hash
    · rw [if_pos hh, hh]
      exact OrderedMap.get?_delete_self _ _
    · rw [if_neg hh]
      exact OrderedMap.get?_delete_of_ne _ hh
  · rw [if_neg hin]
    split_ifs with hh
    · subst hh
      rw [isInInstantLockCache, OrderedMap.has, Bool.not_eq_true,
        Option.isSome_eq_false_iff, Option.isNone_iff_eq_none] at hin
      exact hin
    · rfl

/-- Nothing but the waiting list changes. -/
theorem removeTransactionHash_eq (hash : Hash) :
    ∃ transactionHashesMap, cache.removeTransactionHashFromInstantSendLockWaitingList hash =
      { cache with transactionHashesMap } := by
  unfold removeTransactionHashFromInstantSendLockWaitingList
  split_ifs
  · exact ⟨_, rfl⟩
  · exact ⟨cache.transactionHashesMap, rfl⟩

/-- A hash stays through ten blocks after the one it was stored at. -/
theorem processBlock_waiting (h : Hash) :
    cache.processBlock.transactionHashesMap.get? h =
      (cache.transactionHashesMap.get? h).filter
        (fun v =>
          decide (cache.blocksProcessed + 1 ≤ v + BLOCKS_TO_STAY_IN_INSTANT_LOCK_CACHE)) := by
  show (cache.transactionHashesMap.deleteWhere _).get? h = _
  rw [OrderedMap.get?_deleteWhere]
  congr 1
  funext v
  rw [← decide_not]
  apply decide_eq_decide.mpr
  push_cast
  omega

/-! ## Removing a block -/

/-- The transactions of a block are removed, wherever they stand. -/
theorem removeDataByBlock_transactions (block : Block) :
    (cache.removeDataByBlock block).transactions =
      cache.transactions.filter (fun e => !block.transactionHashes.contains e.value.hash) :=
  Splice.spliceAll_eq_filter _ _

/-- The last merkle block of the block is removed. -/
theorem removeDataByBlock_merkleBlocks (block : Block) :
    (cache.removeDataByBlock block).merkleBlocks =
      Splice.removeLast (fun e => decide (e.value.header.hash = block.hash))
        cache.merkleBlocks :=
  Splice.spliceLast_eq_removeLast _ _

/-- The last block with its hash is removed. -/
theorem removeDataByBlock_blocks (block : Block) :
    (cache.removeDataByBlock block).blocks =
      Splice.removeLast (fun b => decide (b.hash = block.hash)) cache.blocks :=
  Splice.spliceLast_eq_removeLast _ _

/-- Which entries are left: those of transactions outside the block. -/
theorem mem_removeDataByBlock_transactions {block : Block} {e : Entry Transaction} :
    e ∈ (cache.removeDataByBlock block).transactions ↔
      e ∈ cache.transactions ∧ e.value.hash ∉ block.transactionHashes := by
  rw [removeDataByBlock_transactions, List.mem_filter]
  simp

/-- A block that is found is cached and has the hash. -/
theorem findBlock_some {blockHash : Hash} {block : Block}
    (h : cache.findBlock blockHash = some block) :
    block ∈ cache.blocks ∧ block.hash = blockHash := by
  have hmem := List.mem_of_mem_head? (Option.mem_def.mpr h)
  simpa [List.mem_filter] using hmem

/-- No block is found when none has the hash. -/
theorem findBlock_none {blockHash : Hash} :
    cache.findBlock blockHash = none ↔ ∀ block ∈ cache.blocks, block.hash ≠ blockHash := by
  rw [findBlock, List.head?_eq_none_iff, List.filter_eq_nil_iff]
  simp

/-- A removal by hash either finds a cached block with this hash and removes its data, or does
nothing. -/
theorem removeDataByBlockHash_cases (blockHash : Hash) :
    (∃ block ∈ cache.blocks, block.hash = blockHash ∧ cache.findBlock blockHash = some block ∧
        cache.removeDataByBlockHash blockHash = cache.removeDataByBlock block) ∨
      (cache.findBlock blockHash = none ∧ cache.removeDataByBlockHash blockHash = cache) := by
  rw [removeDataByBlockHash]
  cases hf : cache.findBlock blockHash with
  | none => exact Or.inr ⟨rfl, rfl⟩
  | some block =>
      obtain ⟨hmem, hhash⟩ := findBlock_some hf
      exact Or.inl ⟨block, hmem, hhash, rfl, rfl⟩

/-! ## `addBlock` -/

/-- The hashes of the cached transactions. -/
theorem mem_cacheTransactionHashes {h : Hash} :
    h ∈ cache.cacheTransactionHashes ↔ ∃ e ∈ cache.transactions, e.value.hash = h := by
  rw [cacheTransactionHashes, List.mem_map]

/-- A block is pushed when one of its transactions is in the cache. -/
theorem haveMatchingTransactions_iff (block : Block) :
    cache.haveMatchingTransactions block = true ↔
      ∃ h ∈ block.transactionHashes, h ∈ cache.cacheTransactionHashes := by
  rw [haveMatchingTransactions, matchedTransactionFlags, List.any_map, List.any_eq_true]
  simp

/-- The header of the merkle block is the one `build` gives it. -/
theorem buildMerkleBlock_header (build : MerkleBlockBuild) (block : Block) (flags : List Bool) :
    (buildMerkleBlock build block flags).header =
      (build block.header block.transactionHashes flags).header := rfl

/-- The state right after a block was counted and stored, before the cache is kept within its
size. -/
def withBlock (build : MerkleBlockBuild) (cache : TransactionHashesCache) (block : Block) :
    TransactionHashesCache :=
  cache.processBlock.pushBlock block
    (buildMerkleBlock build block (cache.matchedTransactionFlags block))

/-- **The three ways in which `addBlock` ends.** -/
theorem addBlock_cases (build : MerkleBlockBuild) (block : Block) :
    (cache.haveMatchingTransactions block = false ∧
        cache.addBlock build block = cache.processBlock) ∨
      (cache.haveMatchingTransactions block = true ∧ cache.blocks.length < cache.cacheSize ∧
        cache.addBlock build block = cache.withBlock build block) ∨
      (cache.haveMatchingTransactions block = true ∧ cache.cacheSize ≤ cache.blocks.length ∧
        ∃ firstBlock blocks, cache.blocks ++ [block] = firstBlock :: blocks ∧
          cache.addBlock build block =
            { cache.withBlock build block with blocks }.removeDataByBlock firstBlock) := by
  have hdef : cache.addBlock build block =
      if cache.haveMatchingTransactions block then (cache.withBlock build block).shiftBlocks
      else cache.processBlock := rfl
  cases hm : cache.haveMatchingTransactions block with
  | false => exact Or.inl ⟨rfl, by rw [hdef, hm]; rfl⟩
  | true =>
      right
      rw [hdef, hm, if_pos rfl, shiftBlocks]
      have hblocks : (cache.withBlock build block).blocks = cache.blocks ++ [block] := rfl
      have hsize : (cache.withBlock build block).cacheSize = cache.cacheSize := rfl
      rw [hblocks, hsize, List.length_append, List.length_singleton]
      by_cases hlt : cache.blocks.length < cache.cacheSize
      · rw [if_neg (by omega)]
        exact Or.inl ⟨rfl, hlt, rfl⟩
      · rw [if_pos (by omega)]
        obtain ⟨firstBlock, blocks, hcons⟩ :=
          List.exists_cons_of_ne_nil (l := cache.blocks ++ [block]) (by simp)
        refine Or.inr ⟨rfl, by omega, firstBlock, blocks, hcons, ?_⟩
        rw [hcons]
        rfl

/-! ## What a removal leaves alone -/

/-- The lists of the cache lose entries at most, and the rest of it stays. -/
structure Prunes (cache cache' : TransactionHashesCache) : Prop where
  transactions : cache'.transactions.Sublist cache.transactions
  merkleBlocks : cache'.merkleBlocks.Sublist cache.merkleBlocks
  blocks : cache'.blocks.Sublist cache.blocks
  cacheSize : cache'.cacheSize = cache.cacheSize
  transactionHashesMap : cache'.transactionHashesMap = cache.transactionHashesMap
  blocksProcessed : cache'.blocksProcessed = cache.blocksProcessed
  unretrievedInstantLocks : cache'.unretrievedInstantLocks = cache.unretrievedInstantLocks

theorem Prunes.refl (cache : TransactionHashesCache) : Prunes cache cache :=
  ⟨.refl _, .refl _, .refl _, rfl, rfl, rfl, rfl⟩

/-- A pruned cache has fewer hashes. -/
theorem Prunes.cacheTransactionHashes {cache' : TransactionHashesCache}
    (h : Prunes cache cache') :
    cache'.cacheTransactionHashes.Sublist cache.cacheTransactionHashes :=
  h.transactions.map _

/-- A removal after the blocks were cut down. -/
theorem prunes_removeDataByBlock {blocks : List Block} (hblocks : blocks.Sublist cache.blocks)
    (block : Block) : Prunes cache ({ cache with blocks }.removeDataByBlock block) where
  transactions := by
    rw [removeDataByBlock_transactions]
    exact List.filter_sublist
  merkleBlocks := by
    rw [removeDataByBlock_merkleBlocks]
    exact Splice.removeLast_sublist _ _
  blocks := by
    rw [removeDataByBlock_blocks]
    exact (Splice.removeLast_sublist _ _).trans hblocks
  cacheSize := rfl
  transactionHashesMap := rfl
  blocksProcessed := rfl
  unretrievedInstantLocks := rfl

/-- The removal of a block prunes. -/
theorem removeDataByBlock_prunes (block : Block) : Prunes cache (cache.removeDataByBlock block) :=
  prunes_removeDataByBlock (.refl _) block

theorem removeDataByBlockHash_prunes (blockHash : Hash) :
    Prunes cache (cache.removeDataByBlockHash blockHash) := by
  rcases cache.removeDataByBlockHash_cases blockHash with ⟨block, -, -, -, heq⟩ | ⟨-, heq⟩
  · rw [heq]
    exact cache.removeDataByBlock_prunes block
  · rw [heq]
    exact .refl cache

/-- Once the block was counted, and pushed when it matches, `addBlock` only removes. -/
theorem addBlock_prunes (build : MerkleBlockBuild) (block : Block) :
    Prunes cache.processBlock (cache.addBlock build block) ∨
      (cache.haveMatchingTransactions block = true ∧
        Prunes (cache.withBlock build block) (cache.addBlock build block)) := by
  rcases cache.addBlock_cases build block with
    ⟨-, heq⟩ | ⟨hm, -, heq⟩ | ⟨hm, -, firstBlock, blocks, hcons, heq⟩
  · rw [heq]
    exact Or.inl (.refl _)
  · rw [heq]
    exact Or.inr ⟨hm, .refl _⟩
  · have hblocks : blocks.Sublist (cache.withBlock build block).blocks := by
      show blocks.Sublist (cache.blocks ++ [block])
      rw [hcons]
      exact List.sublist_cons_self firstBlock blocks
    rw [heq]
    exact Or.inr ⟨hm, prunes_removeDataByBlock hblocks firstBlock⟩

/-- A block brings no transactions. -/
theorem addBlock_transactions (build : MerkleBlockBuild) (block : Block) :
    (cache.addBlock build block).transactions.Sublist cache.transactions := by
  rcases cache.addBlock_prunes build block with h | ⟨-, h⟩
  · exact h.transactions
  · exact h.transactions

/-- A block is put at the end, and others may make room. -/
theorem addBlock_blocks (build : MerkleBlockBuild) (block : Block) :
    (cache.addBlock build block).blocks.Sublist (cache.blocks ++ [block]) := by
  rcases cache.addBlock_prunes build block with h | ⟨-, h⟩
  · exact h.blocks.trans (List.sublist_append_left _ _)
  · exact h.blocks

theorem addBlock_cacheSize (build : MerkleBlockBuild) (block : Block) :
    (cache.addBlock build block).cacheSize = cache.cacheSize := by
  rcases cache.addBlock_prunes build block with h | ⟨-, h⟩
  · exact h.cacheSize
  · exact h.cacheSize

/-- Beyond counting the block, `addBlock` leaves the waiting list alone. -/
theorem addBlock_transactionHashesMap (build : MerkleBlockBuild) (block : Block) :
    (cache.addBlock build block).transactionHashesMap =
      cache.processBlock.transactionHashesMap := by
  rcases cache.addBlock_prunes build block with h | ⟨-, h⟩
  · exact h.transactionHashesMap
  · exact h.transactionHashesMap

/-- Every block is counted. -/
theorem addBlock_blocksProcessed (build : MerkleBlockBuild) (block : Block) :
    (cache.addBlock build block).blocksProcessed = cache.blocksProcessed + 1 := by
  rcases cache.addBlock_prunes build block with h | ⟨-, h⟩
  · exact h.blocksProcessed
  · exact h.blocksProcessed

/-- A block leaves the locks. -/
theorem addBlock_unretrievedInstantLocks (build : MerkleBlockBuild) (block : Block) :
    (cache.addBlock build block).unretrievedInstantLocks = cache.unretrievedInstantLocks := by
  rcases cache.addBlock_prunes build block with h | ⟨-, h⟩
  · exact h.unretrievedInstantLocks
  · exact h.unretrievedInstantLocks

/-! ## Runs of the cache -/

/-- One operation of the cache. -/
inductive CacheOp
  | addTransaction (transaction : Transaction)
  | addBlock (block : Block)
  | removeTransactionHashFromInstantSendLockWaitingList (transactionHash : Hash)
  | removeDataByBlockHash (blockHash : Hash)
  | getUnretrievedTransactions
  | getUnretrievedMerkleBlocks
  | addInstantLock (instantLock : InstantLock)
  | getUnretrievedInstantLocks

/-- The cache after an operation. -/
def apply (build : MerkleBlockBuild) (cache : TransactionHashesCache) :
    CacheOp → TransactionHashesCache
  | .addTransaction transaction => (cache.addTransaction transaction).2
  | .addBlock block => cache.addBlock build block
  | .removeTransactionHashFromInstantSendLockWaitingList transactionHash =>
    cache.removeTransactionHashFromInstantSendLockWaitingList transactionHash
  | .removeDataByBlockHash blockHash => cache.removeDataByBlockHash blockHash
  | .getUnretrievedTransactions => cache.getUnretrievedTransactions.2
  | .getUnretrievedMerkleBlocks => cache.getUnretrievedMerkleBlocks.2
  | .addInstantLock instantLock => cache.addInstantLock instantLock
  | .getUnretrievedInstantLocks => cache.getUnretrievedInstantLocks.2

/-- A run of the cache. -/
abbrev run (build : MerkleBlockBuild) : TransactionHashesCache → List CacheOp →
    TransactionHashesCache :=
  Machine.run (apply build)

end TransactionHashesCache

end Dapi
