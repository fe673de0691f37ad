/-
# The books of the cache

`src/lib/transactionsFilter/TransactionHashesCache.js` keeps two queues, the matched
transactions and the merkle blocks: what is added is handed out once by the next
`getUnretrieved...`, unless the removal of a block takes it away before.

* What an operation adds, hands out and loses is defined here, from the calls that it
  makes: `removal` is the call of `removeDataByBlock`.
* `balanced_apply_transactions` and `balanced_apply_merkleBlocks`: every operation keeps the
  books of a queue in order.
* `items_conserved`: they are in order after every run.
-/
import Dapi.Ledger
import Dapi.CacheAlignment
import Dapi.Subscription

namespace Dapi

open Ledger

namespace TransactionHashesCache

/-! ## What an operation adds, hands out and loses -/

section Books

variable (build : MerkleBlockBuild) (cache : TransactionHashesCache)

/-- The call of `removeDataByBlock` that an operation makes: the block, and the lists that its
data is removed from. -/
def removal : CacheOp → Option (Block × TransactionHashesCache)
  | .addBlock block =>
    if cache.haveMatchingTransactions block then
      (cache.evictedBlock block).map fun firstBlock => (firstBlock, cache.withBlock build block)
    else none
  | .removeDataByBlockHash blockHash =>
    (cache.findBlock blockHash).map fun block => (block, cache)
  | _ => none

/-- The transaction of an `addTransaction` that returns `true`. -/
def addedTransactions : CacheOp → List Transaction
  | .addTransaction tx => if (cache.addTransaction tx).1 then [tx] else []
  | _ => []

/-- The transactions that an operation hands out. -/
def retrievedTransactions : CacheOp → List Transaction
  | .getUnretrievedTransactions => cache.getUnretrievedTransactions.1
  | _ => []

/-- The entries that the loop of `removeDataByBlock` splices out, as far as they were not handed
out. -/
def unretrievedTransactionsOf (block : Block) : List Transaction :=
  Entry.unretrieved
    (cache.transactions.filter (fun e => block.transactionHashes.contains e.value.hash))

/-- The transactions that an operation removes before they were handed out. -/
def lostTransactions (op : CacheOp) : List Transaction :=
  match cache.removal build op with
  | some (block, cache) => cache.unretrievedTransactionsOf block
  | none => []

/-- The merkle block of an `addBlock` that pushes one. -/
def addedMerkleBlocks : CacheOp → List MerkleBlock
  | .addBlock block =>
    if cache.haveMatchingTransactions block then
      [buildMerkleBlock build block (cache.matchedTransactionFlags block)]
    else []
  | _ => []

/-- The merkle blocks that an operation hands out. -/
def retrievedMerkleBlocks : CacheOp → List MerkleBlock
  | .getUnretrievedMerkleBlocks => cache.getUnretrievedMerkleBlocks.1
  | _ => []

/-- The entry at which the loop of `removeDataByBlock` breaks, unless it was handed out. -/
def unretrievedMerkleBlockOf (block : Block) : List MerkleBlock :=
  Entry.unretrieved (cache.merkleBlocks.reverse.find?
    (fun e => decide (e.value.header.hash = block.hash))).toList

/-- The merkle block that an operation removes before it was handed out. -/
def lostMerkleBlocks (op : CacheOp) : List MerkleBlock :=
  match cache.removal build op with
  | some (block, cache) => cache.unretrievedMerkleBlockOf block
  | none => []

end Books

/-! ## Every operation keeps the books -/

variable {build : MerkleBlockBuild} {cache : TransactionHashesCache}

/-- A removal is a loss of the transactions that were not handed out. -/
theorem balanced_removeDataByBlock_transactions {added given lost : List Transaction}
    (h : Balanced added given (Entry.unretrieved cache.transactions) lost) (block : Block) :
    Balanced added given (Entry.unretrieved (cache.removeDataByBlock block).transactions)
      (lost ++ cache.unretrievedTransactionsOf block) := by
  rw [removeDataByBlock_transactions, unretrievedTransactionsOf]
  refine h.lose ?_ (Entry.unretrieved_sublist List.filter_sublist)
  rw [← Entry.unretrieved_append]
  refine Entry.unretrieved_perm ?_
  exact ((List.filter_append_perm _ cache.transactions).symm.trans List.perm_append_comm)

/-- A removal is a loss of the merkle block that was not handed out. -/
theorem balanced_removeDataByBlock_merkleBlocks {added given lost : List MerkleBlock}
    (h : Balanced added given (Entry.unretrieved cache.merkleBlocks) lost) (block : Block) :
    Balanced added given (Entry.unretrieved (cache.removeDataByBlock block).merkleBlocks)
      (lost ++ cache.unretrievedMerkleBlockOf block) := by
  rw [removeDataByBlock_merkleBlocks, unretrievedMerkleBlockOf]
  refine h.lose ?_ (Entry.unretrieved_sublist (Splice.removeLast_sublist _ _))
  rw [← Entry.unretrieved_append]
  exact Entry.unretrieved_perm (Splice.perm_removeLast _ _)

/-- How `addBlock` ends, and the call of `removeDataByBlock` that it makes. -/
theorem addBlock_removal_cases (build : MerkleBlockBuild) (cache : TransactionHashesCache)
    (block : Block) :
    (cache.haveMatchingTransactions block = false ∧ cache.removal build (.addBlock block) = none ∧
        cache.addBlock build block = cache.processBlock) ∨
      (cache.haveMatchingTransactions block = true ∧ cache.removal build (.addBlock block) = none ∧
        cache.addBlock build block = cache.withBlock build block) ∨
      (cache.haveMatchingTransactions block = true ∧ ∃ firstBlock blocks,
        cache.removal build (.addBlock block) = some (firstBlock, cache.withBlock build block) ∧
          cache.addBlock build block =
            { cache.withBlock build block with blocks }.removeDataByBlock firstBlock) := by
  rcases cache.addBlock_cases build block with
    ⟨hm, heq⟩ | ⟨hm, hlt, heq⟩ | ⟨hm, hle, firstBlock, blocks, hcons, heq⟩
  · exact Or.inl ⟨hm, by simp [removal, hm], heq⟩
  · have hnone : cache.evictedBlock block = none := if_neg (Nat.not_le.mpr hlt)
    exact Or.inr (Or.inl ⟨hm, by simp [removal, hm, hnone], heq⟩)
  · have hsome : cache.evictedBlock block = some firstBlock := by
      rw [evictedBlock, if_pos hle, hcons]
      rfl
    exact Or.inr (Or.inr ⟨hm, firstBlock, blocks, by simp [removal, hm, hsome], heq⟩)

/-- The same of the removal by hash. -/
theorem removeDataByBlockHash_removal_cases (build : MerkleBlockBuild)
    (cache : TransactionHashesCache) (hash : Hash) :
    (∃ block, cache.removal build (.removeDataByBlockHash hash) = some (block, cache) ∧
        cache.removeDataByBlockHash hash = cache.removeDataByBlock block) ∨
      (cache.removal build (.removeDataByBlockHash hash) = none ∧
        cache.removeDataByBlockHash hash = cache) := by
  rcases cache.removeDataByBlockHash_cases hash with ⟨block, -, -, hf, heq⟩ | ⟨hf, heq⟩
  · exact Or.inl ⟨block, by simp [removal, hf], heq⟩
  · exact Or.inr ⟨by simp [removal, hf], heq⟩

/-- **An operation keeps the books of the transactions.** -/
theorem balanced_apply_transactions {added given lost : List Transaction}
    (h : Balanced added given (Entry.unretrieved cache.transactions) lost) (op : CacheOp) :
    Balanced (added ++ cache.addedTransactions op) (given ++ cache.retrievedTransactions op)
      (Entry.unretrieved (cache.apply build op).transactions)
      (lost ++ cache.lostTransactions build op) := by
  have hnone : Balanced (added ++ []) (given ++ []) (Entry.unretrieved cache.transactions)
      (lost ++ []) := by simpa using h
  cases op with
  | addTransaction tx =>
      show Balanced (added ++ if (cache.addTransaction tx).1 then [tx] else []) (given ++ [])
        (Entry.unretrieved (cache.addTransaction tx).2.transactions) (lost ++ [])
      rw [addTransaction_transactions]
      split_ifs
      · rw [Entry.unretrieved_append]
        simpa using h.add [tx]
      · exact hnone
  | addBlock block =>
      show Balanced (added ++ []) (given ++ [])
        (Entry.unretrieved (cache.addBlock build block).transactions) _
      rcases addBlock_removal_cases build cache block with
        ⟨-, hr, heq⟩ | ⟨-, hr, heq⟩ | ⟨-, firstBlock, blocks, hr, heq⟩
      · rw [lostTransactions, hr, heq]
        exact hnone
      · rw [lostTransactions, hr, heq]
        exact hnone
      · rw [lostTransactions, hr, heq, List.append_nil, List.append_nil]
        -- the list of blocks is already one shorter, which the transactions do not depend on
        refine balanced_removeDataByBlock_transactions ?_ firstBlock
        exact h
  | removeTransactionHashFromInstantSendLockWaitingList hash =>
      obtain ⟨transactionHashesMap, heq⟩ := cache.removeTransactionHash_eq hash
      show Balanced _ _ (Entry.unretrieved
        (cache.removeTransactionHashFromInstantSendLockWaitingList hash).transactions) _
      rw [heq]
      exact hnone
  | removeDataByBlockHash hash =>
      show Balanced _ _ (Entry.unretrieved (cache.removeDataByBlockHash hash).transactions) _
      rcases removeDataByBlockHash_removal_cases build cache hash with ⟨block, hr, heq⟩ | ⟨hr, heq⟩
      · rw [lostTransactions, hr, heq]
        simpa [addedTransactions, retrievedTransactions] using
          balanced_removeDataByBlock_transactions h block
      · rw [lostTransactions, hr, heq]
        exact hnone
  | getUnretrievedTransactions =>
      show Balanced (added ++ []) (given ++ Entry.unretrieved cache.transactions)
        (Entry.unretrieved (Entry.markRetrieved cache.transactions)) (lost ++ [])
      rw [Entry.unretrieved_markRetrieved]
      simpa using h.give
  | _ => exact hnone

/-- **An operation keeps the books of the merkle blocks.** -/
theorem balanced_apply_merkleBlocks {added given lost : List MerkleBlock}
    (h : Balanced added given (Entry.unretrieved cache.merkleBlocks) lost) (op : CacheOp) :
    Balanced (added ++ cache.addedMerkleBlocks build op) (given ++ cache.retrievedMerkleBlocks op)
      (Entry.unretrieved (cache.apply build op).merkleBlocks)
      (lost ++ cache.lostMerkleBlocks build op) := by
  have hnone : Balanced (added ++ []) (given ++ []) (Entry.unretrieved cache.merkleBlocks)
      (lost ++ []) := by simpa using h
  cases op with
  | addBlock block =>
      have hpush := h.add [buildMerkleBlock build block (cache.matchedTransactionFlags block)]
      rw [← List.append_nil given] at hpush
      -- the new merkle block is pushed before the oldest block is evicted
      have hwith : Entry.unretrieved (cache.withBlock build block).merkleBlocks =
          Entry.unretrieved cache.merkleBlocks ++
            [buildMerkleBlock build block (cache.matchedTransactionFlags block)] :=
        Entry.unretrieved_append _ _
      rw [← hwith] at hpush
      show Balanced _ (given ++ [])
        (Entry.unretrieved (cache.addBlock build block).merkleBlocks) _
      rw [lostMerkleBlocks, addedMerkleBlocks]
      rcases addBlock_removal_cases build cache block with
        ⟨hm, hr, heq⟩ | ⟨hm, hr, heq⟩ | ⟨hm, firstBlock, blocks, hr, heq⟩
      · rw [hm, hr, heq]
        exact hnone
      · rw [hm, hr, heq, List.append_nil lost]
        exact hpush
      · rw [hm, hr, heq]
        refine balanced_removeDataByBlock_merkleBlocks ?_ firstBlock
        exact hpush
  | removeTransactionHashFromInstantSendLockWaitingList hash =>
      obtain ⟨transactionHashesMap, heq⟩ := cache.removeTransactionHash_eq hash
      show Balanced _ _ (Entry.unretrieved
        (cache.removeTransactionHashFromInstantSendLockWaitingList hash).merkleBlocks) _
      rw [heq]
      exact hnone
  | removeDataByBlockHash hash =>
      show Balanced _ _ (Entry.unretrieved (cache.removeDataByBlockHash hash).merkleBlocks) _
      rcases removeDataByBlockHash_removal_cases build cache hash with ⟨block, hr, heq⟩ | ⟨hr, heq⟩
      · rw [lostMerkleBlocks, hr, heq]
        simpa [addedMerkleBlocks, retrievedMerkleBlocks] using
          balanced_removeDataByBlock_merkleBlocks h block
      · rw [lostMerkleBlocks, hr, heq]
        exact hnone
  | getUnretrievedMerkleBlocks =>
      show Balanced (added ++ []) (given ++ Entry.unretrieved cache.merkleBlocks)
        (Entry.unretrieved (Entry.markRetrieved cache.merkleBlocks)) (lost ++ [])
      rw [Entry.unretrieved_markRetrieved]
      simpa using h.give
  | _ => exact hnone

/-- A hash is added only when no entry has it. -/
theorem nodup_apply (h : cache.cacheTransactionHashes.Nodup) (op : CacheOp) :
    (cache.apply build op).cacheTransactionHashes.Nodup := by
  cases op with
  | addTransaction tx =>
      show (cache.addTransaction tx).2.cacheTransactionHashes.Nodup
      rw [cacheTransactionHashes, addTransaction_transactions, addTransaction_fst]
      split_ifs with hadded
      · rw [List.map_append, List.map_singleton]
        refine h.append (List.nodup_singleton _) ?_
        simpa using hadded
      · exact h
  | addBlock block => exact h.sublist ((cache.addBlock_transactions build block).map _)
  | removeTransactionHashFromInstantSendLockWaitingList hash =>
      obtain ⟨transactionHashesMap, heq⟩ := cache.removeTransactionHash_eq hash
      show (cache.removeTransactionHashFromInstantSendLockWaitingList
        hash).cacheTransactionHashes.Nodup
      rw [heq]
      exact h
  | removeDataByBlockHash hash =>
      exact h.sublist (cache.removeDataByBlockHash_prunes hash).cacheTransactionHashes
  | getUnretrievedTransactions =>
      have hmarked := Entry.map_markRetrieved Transaction.hash cache.transactions
      show ((Entry.markRetrieved cache.transactions).map _).Nodup
      rw [hmarked]
      exact h
  | _ => exact h

/-! ## Every run -/

section Runs

variable (build) (ops : List CacheOp)

/-- The transactions that were added in a run, in the order of the calls; and so on. -/
def allAddedTransactions : List Transaction :=
  Machine.outputs (apply build) addedTransactions new ops

/-- All transactions that are handed out, in order. -/
def allRetrievedTransactions : List Transaction :=
  Machine.outputs (apply build) retrievedTransactions new ops

/-- All transactions that are removed before they were handed out. -/
def allLostTransactions : List Transaction :=
  Machine.outputs (apply build) (lostTransactions build) new ops

/-- All merkle blocks that are pushed, in order. -/
def allAddedMerkleBlocks : List MerkleBlock :=
  Machine.outputs (apply build) (addedMerkleBlocks build) new ops

/-- All merkle blocks that are handed out, in order. -/
def allRetrievedMerkleBlocks : List MerkleBlock :=
  Machine.outputs (apply build) retrievedMerkleBlocks new ops

/-- All merkle blocks that are removed before they were handed out. -/
def allLostMerkleBlocks : List MerkleBlock :=
  Machine.outputs (apply build) (lostMerkleBlocks build) new ops

/-- **The books of the transactions balance** after every run. -/
theorem balanced_transactions : Balanced (allAddedTransactions build ops)
    (allRetrievedTransactions build ops) (Entry.unretrieved (run build new ops).transactions)
    (allLostTransactions build ops) := by
  refine Machine.run_induction (s := new) (P := fun ops cache =>
    Balanced (allAddedTransactions build ops) (allRetrievedTransactions build ops)
      (Entry.unretrieved cache.transactions) (allLostTransactions build ops)) ?_ ?_ ops
  · exact .empty
  · intro ops op h
    simp only [allAddedTransactions, allRetrievedTransactions, allLostTransactions,
      Machine.outputs_snoc]
    exact balanced_apply_transactions h op

/-- **The books of the merkle blocks balance** after every run. -/
theorem balanced_merkleBlocks : Balanced (allAddedMerkleBlocks build ops)
    (allRetrievedMerkleBlocks build ops) (Entry.unretrieved (run build new ops).merkleBlocks)
    (allLostMerkleBlocks build ops) := by
  refine Machine.run_induction (s := new) (P := fun ops cache =>
    Balanced (allAddedMerkleBlocks build ops) (allRetrievedMerkleBlocks build ops)
      (Entry.unretrieved cache.merkleBlocks) (allLostMerkleBlocks build ops)) ?_ ?_ ops
  · exact .empty
  · intro ops op h
    simp only [allAddedMerkleBlocks, allRetrievedMerkleBlocks, allLostMerkleBlocks,
      Machine.outputs_snoc]
    exact balanced_apply_merkleBlocks h op

/-- **Retrieved items are conserved, in order.**  After any run and for any hash: the transactions
with this hash that were added are those that were retrieved, those that wait, and those that
the removal of a block took away before; no two entries have the same hash; and transactions
are retrieved in the order in which they were added.  The same books hold for merkle blocks. -/
theorem items_conserved :
    (∀ h : Hash, (allAddedTransactions build ops).countP (fun tx => decide (tx.hash = h)) =
        (allRetrievedTransactions build ops).countP (fun tx => decide (tx.hash = h)) +
          (Entry.unretrieved (run build new ops).transactions).countP
            (fun tx => decide (tx.hash = h)) +
          (allLostTransactions build ops).countP (fun tx => decide (tx.hash = h))) ∧
      (run build new ops).cacheTransactionHashes.Nodup ∧
      (allRetrievedTransactions build ops).Sublist (allAddedTransactions build ops) ∧
      (∀ h : Hash,
        (allAddedMerkleBlocks build ops).countP (fun mb => decide (mb.header.hash = h)) =
          (allRetrievedMerkleBlocks build ops).countP (fun mb => decide (mb.header.hash = h)) +
            (Entry.unretrieved (run build new ops).merkleBlocks).countP
              (fun mb => decide (mb.header.hash = h)) +
            (allLostMerkleBlocks build ops).countP (fun mb => decide (mb.header.hash = h))) ∧
      (allRetrievedMerkleBlocks build ops).Sublist (allAddedMerkleBlocks build ops) := by
  have htx := balanced_transactions build ops
  have hmb := balanced_merkleBlocks build ops
  have hnd : (run build new ops).cacheTransactionHashes.Nodup := by
    refine Machine.run_invariant (s := new)
      (I := fun cache : TransactionHashesCache => cache.cacheTransactionHashes.Nodup)
      (fun _ op h => nodup_apply h op) ?_ ops
    exact List.nodup_nil
  exact ⟨fun h => htx.count_eq _, hnd, htx.given_sublist, fun h => hmb.count_eq _,
    hmb.given_sublist⟩

end Runs

/-- A transaction is added, retrieved, removed with its block and added again; the merkle block
goes with the block. -/
example : allAddedTransactions fullBuild [.addTransaction (bareTransaction [1]),
      .getUnretrievedTransactions, .addBlock (bareBlock [11] [[1]]), .removeDataByBlockHash [11],
      .addTransaction (bareTransaction [1])] = [bareTransaction [1], bareTransaction [1]] ∧
    allLostMerkleBlocks fullBuild [.addTransaction (bareTransaction [1]),
      .addBlock (bareBlock [11] [[1]]), .removeDataByBlockHash [11]] =
        [⟨⟨[11]⟩, some [[1]]⟩] := by
  decide

end TransactionHashesCache

end Dapi
