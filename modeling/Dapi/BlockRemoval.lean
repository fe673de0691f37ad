/-
# What the removal of a block removes

`src/lib/transactionsFilter/TransactionHashesCache.js`: `removeDataByBlock` prunes three
lists in place, one loop for all matches and two for the last one, for a block that was
named by its hash or that is evicted.

* `RemovesExactly` is the effect: the transactions of the block, the block and its merkle
  block go, and nothing else changes.
* `run_aligned`: when no block is delivered twice, the block hashes in the cache are
  distinct and the merkle blocks are in step.
* `removal_exact`: the removal by hash has this effect, or none, and so has the eviction.
-/
import Dapi.CacheAlignment

namespace Dapi

namespace TransactionHashesCache

variable {build : MerkleBlockBuild} {cache : TransactionHashesCache}

/-! ## Blocks that are delivered once -/

/-- The blocks that a run adds. -/
def addedBlocks (ops : List CacheOp) : List Block :=
  ops.filterMap fun op =>
    match op with
    | .addBlock block => some block
    | _ => none

theorem addedBlocks_snoc (ops : List CacheOp) (op : CacheOp) :
    addedBlocks (ops ++ [op]) = addedBlocks ops ++ addedBlocks [op] :=
  List.filterMap_append

/-- A block that is cached was so before, or was added just now. -/
theorem mem_blocks_apply {op : CacheOp} {b : Block} (hb : b ∈ (cache.apply build op).blocks) :
    b ∈ cache.blocks ∨ b ∈ addedBlocks [op] := by
  cases op with
  | addBlock block =>
      exact List.mem_append.mp ((cache.addBlock_blocks build block).subset hb)
  | removeTransactionHashFromInstantSendLockWaitingList hash =>
      obtain ⟨transactionHashesMap, heq⟩ := cache.removeTransactionHash_eq hash
      have hb' : b ∈ (cache.removeTransactionHashFromInstantSendLockWaitingList hash).blocks := hb
      rw [heq] at hb'
      exact Or.inl hb'
  | removeDataByBlockHash hash =>
      exact Or.inl ((cache.removeDataByBlockHash_prunes hash).blocks.subset hb)
  | _ => exact Or.inl hb

/-- Every cached block was added. -/
theorem mem_addedBlocks_of_mem_run (ops : List CacheOp) :
    ∀ b ∈ (run build new ops).blocks, b ∈ addedBlocks ops := by
  refine Machine.run_induction (s := new)
    (P := fun ops cache => ∀ b ∈ cache.blocks, b ∈ addedBlocks ops) ?_
    (fun ops op ih b hb => ?_) ops
  · intro b hb
    cases hb
  · rw [addedBlocks_snoc]
    exact List.mem_append.mpr ((mem_blocks_apply hb).imp_left (ih b))

/-- A block that is delivered once is not cached when it is added. -/
theorem admissible_of_nodup (ops : List CacheOp)
    (hops : ((addedBlocks ops).map Block.hash).Nodup) :
    Machine.Admissible (apply build) FreshBlock new ops := by
  induction ops using List.reverseRecOn with
  | nil => trivial
  | append_singleton ops op ih =>
      rw [addedBlocks_snoc, List.map_append, List.nodup_append] at hops
      obtain ⟨hinit, -, hdisj⟩ := hops
      refine Machine.admissible_append.mpr ⟨ih hinit, ?_, trivial⟩
      cases op with
      | addBlock block =>
          intro hmem
          obtain ⟨b, hb, hhash⟩ := List.mem_map.mp hmem
          -- a cached block with this hash would have been delivered before
          refine hdisj b.hash ?_ block.hash ?_ hhash
          · exact List.mem_map_of_mem (mem_addedBlocks_of_mem_run ops b hb)
          · simp [addedBlocks]
      | _ => trivial

/-- The lists stay aligned when no block comes twice. -/
theorem run_aligned (hbuild : KeepsHeader build) (ops : List CacheOp)
    (hops : ((addedBlocks ops).map Block.hash).Nodup) : Aligned (run build new ops) :=
  (admissible_of_nodup ops hops).invariant (fun _ _ h hop => h.apply hbuild hop) aligned_new

/-! ## The effect of a removal -/

/-- The transactions of the block go, the one cached block with its hash and the one merkle block
with its hash; everything else stays. -/
structure RemovesExactly (b : Block) (cache cache' : TransactionHashesCache) : Prop where
  transactions : cache'.transactions =
    cache.transactions.filter (fun e => decide (e.value.hash ∉ b.transactionHashes))
  blocks : Splice.DropsOnly (fun b' => b'.hash = b.hash) cache.blocks cache'.blocks
  merkleBlocks : Splice.DropsOnly (fun e => e.value.header.hash = b.hash) cache.merkleBlocks
    cache'.merkleBlocks
  transactionHashesMap : cache'.transactionHashesMap = cache.transactionHashesMap
  blocksProcessed : cache'.blocksProcessed = cache.blocksProcessed
  unretrievedInstantLocks : cache'.unretrievedInstantLocks = cache.unretrievedInstantLocks

/-- In an aligned cache, a removal takes what belongs to the block, and nothing else. -/
theorem Aligned.removesExactly (h : Aligned cache) {b : Block} (hb : b ∈ cache.blocks) :
    RemovesExactly b cache (cache.removeDataByBlock b) where
  transactions := by
    rw [removeDataByBlock_transactions]
    simp
  blocks := by
    rw [removeDataByBlock_blocks]
    exact Splice.dropsOnly_removeLast h.nodup (List.mem_map_of_mem hb)
  merkleBlocks := by
    rw [removeDataByBlock_merkleBlocks]
    have hnd : cache.merkleBlockHashes.Nodup := by
      rw [h.merkleBlocks]
      exact h.nodup
    refine Splice.dropsOnly_removeLast (f := fun e : Entry MerkleBlock => e.value.header.hash)
      hnd ?_
    show b.hash ∈ cache.merkleBlockHashes
    rw [h.merkleBlocks]
    exact List.mem_map_of_mem hb
  transactionHashesMap := rfl
  blocksProcessed := rfl
  unretrievedInstantLocks := rfl

/-- The hash finds the block, the only one that it can. -/
theorem Aligned.removeDataByBlockHash_eq (h : Aligned cache) {b : Block} (hb : b ∈ cache.blocks) :
    cache.removeDataByBlockHash b.hash = cache.removeDataByBlock b := by
  rcases cache.removeDataByBlockHash_cases b.hash with ⟨b', hb', hhash, -, heq⟩ | ⟨hnone, -⟩
  · rw [heq, List.inj_on_of_nodup_map h.nodup hb' hb hhash]
  · exact absurd rfl (findBlock_none.mp hnone b hb)

/-- What was removed is not found again. -/
theorem Aligned.removeDataByBlockHash_twice (h : Aligned cache) (blockHash : Hash) :
    (cache.removeDataByBlockHash blockHash).removeDataByBlockHash blockHash =
      cache.removeDataByBlockHash blockHash := by
  rcases cache.removeDataByBlockHash_cases blockHash with ⟨b, hb, rfl, -, heq⟩ | ⟨-, heq⟩
  · -- no block that is left has the hash
    obtain ⟨before, _, after, -, -, hothers, hblocks⟩ := (h.removesExactly hb).blocks
    rcases (cache.removeDataByBlockHash b.hash).removeDataByBlockHash_cases b.hash with
      ⟨b', hb', hhash, -, -⟩ | ⟨-, heq'⟩
    · rw [heq, hblocks] at hb'
      exact absurd hhash (hothers b' hb')
    · exact heq'
  · rw [heq, heq]

/-- **The removal of a block removes exactly its data.**  When no block is delivered twice, after
any run: the removal by the hash of a cached block takes away the transactions of the block,
the block and its merkle block, and nothing else; by any other hash it does nothing; a second
removal does nothing; and the eviction that a new block makes has this effect for the oldest
cached block. -/
theorem removal_exact (hbuild : KeepsHeader build) (ops : List CacheOp)
    (hops : ((addedBlocks ops).map Block.hash).Nodup) :
    (∀ b ∈ (run build new ops).blocks, RemovesExactly b (run build new ops)
        ((run build new ops).removeDataByBlockHash b.hash)) ∧
      (∀ blockHash, (∀ b ∈ (run build new ops).blocks, b.hash ≠ blockHash) →
        (run build new ops).removeDataByBlockHash blockHash = run build new ops) ∧
      (∀ blockHash, ((run build new ops).removeDataByBlockHash blockHash).removeDataByBlockHash
        blockHash = (run build new ops).removeDataByBlockHash blockHash) ∧
      ∀ block, block.hash ∉ (addedBlocks ops).map Block.hash →
        (run build new ops).haveMatchingTransactions block = true →
        (run build new ops).cacheSize ≤ (run build new ops).blocks.length →
          ∃ oldest rest, ((run build new ops).withBlock build block).blocks = oldest :: rest ∧
            RemovesExactly oldest ((run build new ops).withBlock build block)
              ((run build new ops).addBlock build block) := by
  have h : Aligned (run build new ops) := run_aligned hbuild ops hops
  refine ⟨fun b hb => ?_, fun blockHash hnone => ?_, h.removeDataByBlockHash_twice,
    fun block hfresh hm hfull => ?_⟩
  · rw [h.removeDataByBlockHash_eq hb]
    exact h.removesExactly hb
  · rcases (run build new ops).removeDataByBlockHash_cases blockHash with
      ⟨b, hb, hhash, -, -⟩ | ⟨-, heq⟩
    · exact absurd hhash (hnone b hb)
    · exact heq
  · have hwith : Aligned ((run build new ops).withBlock build block) := by
      refine h.withBlock hbuild fun hmem => hfresh ?_
      obtain ⟨b, hb, hhash⟩ := List.mem_map.mp hmem
      rw [← hhash]
      exact List.mem_map_of_mem (mem_addedBlocks_of_mem_run ops b hb)
    rcases (run build new ops).addBlock_cases build block with
      ⟨hnot, -⟩ | ⟨-, hlt, -⟩ | ⟨-, -, oldest, rest, hcons, heq⟩
    · rw [hm] at hnot
      cases hnot
    · exact absurd hfull (Nat.not_le.mpr hlt)
    · -- the eviction is a removal of the first block, once the new one is in the list
      refine ⟨oldest, rest, hcons, ?_⟩
      rw [heq, evict_eq hcons hwith.nodup]
      refine hwith.removesExactly ?_
      show oldest ∈ (run build new ops).blocks ++ [block]
      rw [hcons]
      exact List.mem_cons_self

/-- Two blocks are cached, and the removal of the first one leaves the second one. -/
theorem removal_exact_twoBlocks :
    RemovesExactly (bareBlock [11] [[1]])
      (run fullBuild new [.addTransaction (bareTransaction [1]),
        .addTransaction (bareTransaction [2]), .addBlock (bareBlock [11] [[1]]),
        .addBlock (bareBlock [12] [[2]])])
      ((run fullBuild new [.addTransaction (bareTransaction [1]),
        .addTransaction (bareTransaction [2]), .addBlock (bareBlock [11] [[1]]),
        .addBlock (bareBlock [12] [[2]])]).removeDataByBlockHash [11]) :=
  (removal_exact keepsHeader_fullBuild _ (by decide)).1 _ (by decide)

end TransactionHashesCache

end Dapi
