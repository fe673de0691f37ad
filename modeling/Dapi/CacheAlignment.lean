/-
# Cached blocks and merkle blocks in step

`TransactionHashesCache` keeps two lists for the blocks it knows, `blocks` and
`merkleBlocks`, and maintains them by different loops: a push at the end, a shift
from the front, and two backward loops that remove the last equal hash.

* `blocks_length_le`: no run caches more than `cacheSize` blocks.
* `Aligned`: the hashes of `blocks` are pairwise distinct and the merkle blocks
  have the same header hashes, in the same order.  Every operation keeps it, as
  long as `addBlock` is not given a block that is cached at that moment
  (`FreshBlock`): a block that left the cache may come back, one that is still
  there is stored a second time.
* `evict_eq`: on an aligned cache the eviction of the oldest block is the removal
  of its data.
-/
import Dapi.TransactionHashesCache

namespace Dapi

/-- `MerkleBlock.build` keeps the header it is given. -/
def KeepsHeader (build : MerkleBlockBuild) : Prop :=
  ∀ header hashes flags, (build header hashes flags).header = header

/-- The merkle block that lists all hashes, as it is built when every transaction matched. -/
def fullBuild : MerkleBlockBuild := fun header hashes _ => ⟨header, some hashes⟩

/-- The merkle block of the whole block has its header. -/
theorem keepsHeader_fullBuild : KeepsHeader fullBuild := fun _ _ _ => rfl

namespace TransactionHashesCache

variable {build : MerkleBlockBuild} {cache : TransactionHashesCache}

/-- The header hashes of the cached merkle blocks. -/
def merkleBlockHashes (cache : TransactionHashesCache) : List Hash :=
  cache.merkleBlocks.map (fun e => e.value.header.hash)

/-- The hashes of the cached blocks. -/
def blockHashes (cache : TransactionHashesCache) : List Hash := cache.blocks.map Block.hash

/-- A pruned cache has fewer blocks. -/
theorem Prunes.blockHashes {cache cache' : TransactionHashesCache} (h : Prunes cache cache') :
    cache'.blockHashes.Sublist cache.blockHashes :=
  h.blocks.map _

/-! ## The size of the cache -/

/-- No operation changes the bound. -/
theorem apply_cacheSize (op : CacheOp) : (cache.apply build op).cacheSize = cache.cacheSize := by
  cases op with
  | addBlock block => exact cache.addBlock_cacheSize build block
  | removeTransactionHashFromInstantSendLockWaitingList hash =>
      obtain ⟨transactionHashesMap, heq⟩ := cache.removeTransactionHash_eq hash
      show (cache.removeTransactionHashFromInstantSendLockWaitingList hash).cacheSize = _
      rw [heq]
  | removeDataByBlockHash hash => exact (cache.removeDataByBlockHash_prunes hash).cacheSize
  | _ => rfl

/-- Adding a block keeps the cache within its size. -/
theorem length_addBlock_le (block : Block) (h : cache.blocks.length ≤ cache.cacheSize) :
    (cache.addBlock build block).blocks.length ≤ cache.cacheSize := by
  rcases cache.addBlock_cases build block with
    ⟨-, heq⟩ | ⟨-, hlt, heq⟩ | ⟨-, -, firstBlock, blocks, hcons, heq⟩
  · rw [heq]
    exact h
  · rw [heq]
    have hlen : (cache.withBlock build block).blocks.length = cache.blocks.length + 1 :=
      List.length_append
    omega
  · rw [heq]
    have hlen := congrArg List.length hcons
    rw [List.length_append, List.length_singleton, List.length_cons] at hlen
    have hle : ({ cache.withBlock build block with blocks }.removeDataByBlock
        firstBlock).blocks.length ≤ blocks.length :=
      (removeDataByBlock_prunes firstBlock).blocks.length_le
    omega

/-- No other operation adds a block. -/
theorem length_blocks_apply_le (op : CacheOp) (h : cache.blocks.length ≤ cache.cacheSize) :
    (cache.apply build op).blocks.length ≤ (cache.apply build op).cacheSize := by
  rw [apply_cacheSize]
  cases op with
  | addBlock block => exact length_addBlock_le block h
  | removeTransactionHashFromInstantSendLockWaitingList hash =>
      obtain ⟨transactionHashesMap, heq⟩ := cache.removeTransactionHash_eq hash
      show (cache.removeTransactionHashFromInstantSendLockWaitingList hash).blocks.length ≤ _
      rw [heq]
      exact h
  | removeDataByBlockHash hash =>
      exact (cache.removeDataByBlockHash_prunes hash).blocks.length_le.trans h
  | _ => exact h

/-- **Every run stays within the size of the cache.** -/
theorem blocks_length_le (ops : List CacheOp) :
    (run build new ops).blocks.length ≤ (run build new ops).cacheSize :=
  Machine.run_invariant
    (I := fun cache : TransactionHashesCache => cache.blocks.length ≤ cache.cacheSize)
    (fun _ op h => length_blocks_apply_le op h) (Nat.zero_le _) ops

/-! ## Alignment -/

/-- The blocks are pairwise distinct and the merkle blocks are theirs, in the same order. -/
structure Aligned (cache : TransactionHashesCache) : Prop where
  nodup : cache.blockHashes.Nodup
  merkleBlocks : cache.merkleBlockHashes = cache.blockHashes

theorem aligned_new : Aligned new := ⟨List.nodup_nil, rfl⟩

/-- Every cached block has its merkle block. -/
theorem Aligned.length_eq (h : Aligned cache) :
    cache.merkleBlocks.length = cache.blocks.length := by
  have hlen := congrArg List.length h.merkleBlocks
  rwa [merkleBlockHashes, blockHashes, List.length_map, List.length_map] at hlen

/-- Alignment is about two of the lists of the cache. -/
theorem Aligned.congr {cache' : TransactionHashesCache} (h : Aligned cache)
    (hb : cache'.blocks = cache.blocks) (hm : cache'.merkleBlockHashes = cache.merkleBlockHashes) :
    Aligned cache' := by
  have hb' : cache'.blockHashes = cache.blockHashes := by rw [blockHashes, hb, blockHashes]
  exact ⟨by rw [hb']; exact h.nodup, by rw [hm, hb', h.merkleBlocks]⟩

/-- The last occurrence of the hash is removed from the blocks. -/
theorem blockHashes_removeDataByBlock (block : Block) :
    (cache.removeDataByBlock block).blockHashes =
      Splice.removeLast (fun h => decide (h = block.hash)) cache.blockHashes := by
  rw [blockHashes, removeDataByBlock_blocks]
  exact Splice.map_removeLast Block.hash (fun h => decide (h = block.hash)) cache.blocks

/-- The last occurrence of the hash is removed from the merkle blocks. -/
theorem merkleBlockHashes_removeDataByBlock (block : Block) :
    (cache.removeDataByBlock block).merkleBlockHashes =
      Splice.removeLast (fun h => decide (h = block.hash)) cache.merkleBlockHashes := by
  rw [merkleBlockHashes, removeDataByBlock_merkleBlocks]
  exact Splice.map_removeLast (fun e : Entry MerkleBlock => e.value.header.hash)
    (fun h => decide (h = block.hash)) cache.merkleBlocks

/-- The two backward loops go for the same hash, so they stop at the same place. -/
theorem Aligned.removeDataByBlock (h : Aligned cache) (block : Block) :
    Aligned (cache.removeDataByBlock block) where
  nodup := by
    rw [blockHashes_removeDataByBlock]
    exact h.nodup.sublist (Splice.removeLast_sublist _ _)
  merkleBlocks := by
    rw [merkleBlockHashes_removeDataByBlock, blockHashes_removeDataByBlock, h.merkleBlocks]

/-- A removal keeps the lists aligned. -/
theorem Aligned.removeDataByBlockHash (h : Aligned cache) (blockHash : Hash) :
    Aligned (cache.removeDataByBlockHash blockHash) := by
  rcases cache.removeDataByBlockHash_cases blockHash with ⟨block, -, -, -, heq⟩ | ⟨-, heq⟩
  · rw [heq]
    exact h.removeDataByBlock block
  · rw [heq]
    exact h

/-- When no other cached block has the hash of the oldest one, shifting it and then removing its
data is the removal of its data. -/
theorem evict_eq {firstBlock : Block} {blocks : List Block}
    (hblocks : cache.blocks = firstBlock :: blocks) (hnd : cache.blockHashes.Nodup) :
    { cache with blocks }.removeDataByBlock firstBlock =
      cache.removeDataByBlock firstBlock := by
  have hfresh : ∀ b ∈ blocks, b.hash ≠ firstBlock.hash := by
    rw [blockHashes, hblocks, List.map_cons, List.nodup_cons] at hnd
    intro b hb heq
    exact hnd.1 (heq ▸ List.mem_map_of_mem hb)
  have hleft : ({ cache with blocks }.removeDataByBlock firstBlock).blocks = blocks := by
    rw [removeDataByBlock_blocks]
    exact Splice.removeLast_eq_self (by simpa using hfresh)
  have hright : (cache.removeDataByBlock firstBlock).blocks = blocks := by
    rw [removeDataByBlock_blocks, hblocks]
    exact Splice.removeLast_cons_of_pos (by simp) (by simpa using hfresh)
  have hsame := hleft.trans hright.symm
  unfold TransactionHashesCache.removeDataByBlock at hsame ⊢
  simp only at hsame ⊢
  rw [hsame]

/-- The block of an `addBlock` is not cached at that moment. -/
def FreshBlock (cache : TransactionHashesCache) : CacheOp → Prop
  | .addBlock block => block.hash ∉ cache.blockHashes
  | _ => True

/-- A new block and its merkle block are put at the same place. -/
theorem Aligned.withBlock (hbuild : KeepsHeader build) (h : Aligned cache) {block : Block}
    (hfresh : block.hash ∉ cache.blockHashes) : Aligned (cache.withBlock build block) := by
  have hb : (cache.withBlock build block).blockHashes = cache.blockHashes ++ [block.hash] :=
    List.map_append
  have hm : (cache.withBlock build block).merkleBlockHashes =
      cache.merkleBlockHashes ++ [block.hash] := by
    show (cache.merkleBlocks ++ [_]).map _ = _
    rw [List.map_append, List.map_singleton, buildMerkleBlock_header, hbuild]
    rfl
  refine ⟨?_, by rw [hm, hb, h.merkleBlocks]⟩
  rw [hb]
  exact h.nodup.append (List.nodup_singleton _) (by simpa using hfresh)

/-- A new block keeps the lists aligned, and so does the eviction. -/
theorem Aligned.addBlock (hbuild : KeepsHeader build) (h : Aligned cache) {block : Block}
    (hfresh : block.hash ∉ cache.blockHashes) : Aligned (cache.addBlock build block) := by
  rcases cache.addBlock_cases build block with
    ⟨-, heq⟩ | ⟨-, -, heq⟩ | ⟨-, -, firstBlock, blocks, hcons, heq⟩
  · rw [heq]
    exact h.congr rfl rfl
  · rw [heq]
    exact h.withBlock hbuild hfresh
  · have hwith := h.withBlock hbuild hfresh
    rw [heq, evict_eq hcons hwith.nodup]
    exact hwith.removeDataByBlock firstBlock

/-- **One operation keeps the two lists in step**, unless it adds a block that is cached. -/
theorem Aligned.apply (hbuild : KeepsHeader build) {op : CacheOp} (h : Aligned cache)
    (hop : FreshBlock cache op) : Aligned (cache.apply build op) := by
  cases op with
  | addTransaction tx => exact h.congr rfl rfl
  | addBlock block => exact h.addBlock hbuild hop
  | removeTransactionHashFromInstantSendLockWaitingList hash =>
      obtain ⟨transactionHashesMap, heq⟩ := cache.removeTransactionHash_eq hash
      show Aligned (cache.removeTransactionHashFromInstantSendLockWaitingList hash)
      rw [heq]
      exact h.congr rfl rfl
  | removeDataByBlockHash hash => exact h.removeDataByBlockHash hash
  | getUnretrievedTransactions => exact h.congr rfl rfl
  | getUnretrievedMerkleBlocks =>
      have hmarked := Entry.map_markRetrieved (fun merkleBlock : MerkleBlock =>
        merkleBlock.header.hash) cache.merkleBlocks
      exact h.congr rfl hmarked
  | addInstantLock lock => exact h.congr rfl rfl
  | getUnretrievedInstantLocks => exact h.congr rfl rfl

/-- **An aligned cache forgets a block completely.** -/
theorem Aligned.merkleBlock_hash_ne (h : Aligned cache) (blockHash : Hash) :
    ∀ e ∈ (cache.removeDataByBlockHash blockHash).merkleBlocks,
      e.value.header.hash ≠ blockHash := by
  intro e he
  rcases cache.removeDataByBlockHash_cases blockHash with
    ⟨block, -, hhash, -, heq⟩ | ⟨hnone, heq⟩
  · rw [heq, removeDataByBlock_merkleBlocks] at he
    rw [← hhash]
    refine Splice.key_ne_of_mem_removeLast (f := fun e : Entry MerkleBlock => e.value.header.hash)
      ?_ he
    have hnd := h.nodup
    rwa [← h.merkleBlocks] at hnd
  · rw [heq] at he
    intro hbad
    have hmem : blockHash ∈ cache.blockHashes := by
      rw [← h.merkleBlocks, ← hbad]
      exact List.mem_map_of_mem he
    obtain ⟨block, hblock, hb⟩ := List.mem_map.mp hmem
    exact findBlock_none.mp hnone block hblock hb

/-- **Blocks and merkle blocks stay in step.**  Every run stays within the size of the cache; and
as long as no block is added while it is cached, the block hashes are distinct, the merkle
blocks are theirs in the same order, and a removed block leaves no merkle block behind. -/
theorem blocks_in_step (hbuild : KeepsHeader build) (ops : List CacheOp) :
    (run build new ops).blocks.length ≤ (run build new ops).cacheSize ∧
      (Machine.Admissible (TransactionHashesCache.apply build) FreshBlock new ops →
        (run build new ops).blockHashes.Nodup ∧
          (run build new ops).merkleBlockHashes = (run build new ops).blockHashes ∧
          (run build new ops).merkleBlocks.length ≤ (run build new ops).cacheSize ∧
          ∀ blockHash, ∀ e ∈ ((run build new ops).removeDataByBlockHash blockHash).merkleBlocks,
            e.value.header.hash ≠ blockHash) := by
  have hsize : (run build new ops).blocks.length ≤ (run build new ops).cacheSize :=
    blocks_length_le ops
  refine ⟨hsize, fun hops => ?_⟩
  have h : Aligned (run build new ops) :=
    hops.invariant (fun _ _ h hop => h.apply hbuild hop) aligned_new
  exact ⟨h.nodup, h.merkleBlocks, by rw [h.length_eq]; exact hsize, h.merkleBlock_hash_ne⟩

/-- A transaction without inputs and outputs. -/
def bareTransaction (hash : Hash) : Transaction := ⟨hash, some [], some []⟩

/-- A block of such transactions. -/
def bareBlock (hash : Hash) (transactionHashes : List Hash) : Block :=
  ⟨⟨hash⟩, transactionHashes.map bareTransaction⟩

/-- Two blocks are added, the first one removed and added again. -/
def returningBlockOps : List CacheOp :=
  [.addTransaction (bareTransaction [1]), .addTransaction (bareTransaction [2]),
    .addBlock (bareBlock [11] [[1]]), .addBlock (bareBlock [12] [[2]]),
    .removeDataByBlockHash [11], .addTransaction (bareTransaction [1]),
    .addBlock (bareBlock [11] [[1]])]

/-- A block that was removed may come back. -/
theorem blocks_in_step_returning :
    (run fullBuild new returningBlockOps).merkleBlockHashes = [[12], [11]] ∧
      (run fullBuild new returningBlockOps).merkleBlockHashes =
        (run fullBuild new returningBlockOps).blockHashes := by
  refine ⟨by decide, ?_⟩
  refine ((blocks_in_step keepsHeader_fullBuild returningBlockOps).2 ?_).2.1
  simp only [returningBlockOps, Machine.Admissible, FreshBlock]
  decide

/-- A block that is added twice is stored twice, and its removal leaves a merkle block of it. -/
theorem not_blocks_in_step_repeated :
    KeepsHeader fullBuild ∧
      ¬ (∀ ops : List CacheOp, (run fullBuild new ops).blockHashes.Nodup) ∧
      ¬ (∀ (ops : List CacheOp) (blockHash : Hash),
          ∀ e ∈ ((run fullBuild new ops).removeDataByBlockHash blockHash).merkleBlocks,
            e.value.header.hash ≠ blockHash) := by
  refine ⟨keepsHeader_fullBuild, fun h => ?_, fun h => ?_⟩
  · have hnd := h [.addTransaction (bareTransaction [1]), .addBlock (bareBlock [11] [[1]]),
      .addBlock (bareBlock [11] [[1]])]
    exact absurd hnd (by decide)
  · have hne := h [.addTransaction (bareTransaction [1]), .addBlock (bareBlock [11] [[1]]),
      .addBlock (bareBlock [11] [[1]])] [11]
    exact absurd hne (by decide)

end TransactionHashesCache

end Dapi
