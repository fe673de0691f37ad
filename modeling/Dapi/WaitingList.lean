/-
# The waiting list for instant locks

`src/lib/transactionsFilter/TransactionHashesCache.js`.  A hash enters the waiting list
with the number of blocks processed so far, and `addBlock` drops every hash that is more
than ten blocks old, before it looks at the transactions of the block.

* `Enters`, `Takes` and `addsBlock` are what the operations mean to the list.
* `waiting_run_iff`: what the list holds after a run, said of the operations since the
  last time the hash entered it.
* `waiting_window`: the list is a window of ten blocks.
-/
import Dapi.TransactionHashesCache

namespace Dapi

namespace TransactionHashesCache

variable {build : MerkleBlockBuild} {cache : TransactionHashesCache} {op : CacheOp} {x : Hash}

/-! ## What the operations do to the list -/

/-- The operation adds a transaction with this hash while the hash is not on the list. -/
def Enters (x : Hash) (cache : TransactionHashesCache) : CacheOp → Prop
  | .addTransaction tx => tx.hash = x ∧ cache.isInInstantLockCache x = false
  | _ => False

/-- The operation takes the hash off the list. -/
def Takes (x : Hash) : CacheOp → Prop
  | .removeTransactionHashFromInstantSendLockWaitingList hash => hash = x
  | _ => False

/-- The operation is an `addBlock`. -/
def addsBlock : CacheOp → Bool
  | .addBlock _ => true
  | _ => false

/-- Every block is counted. -/
theorem apply_blocksProcessed (op : CacheOp) :
    (cache.apply build op).blocksProcessed =
      cache.blocksProcessed + if addsBlock op then 1 else 0 := by
  cases op with
  | addBlock block => exact addBlock_blocksProcessed build block
  | removeTransactionHashFromInstantSendLockWaitingList hash =>
      obtain ⟨transactionHashesMap, heq⟩ := cache.removeTransactionHash_eq hash
      show (cache.removeTransactionHashFromInstantSendLockWaitingList hash).blocksProcessed = _
      rw [heq]
      rfl
  | removeDataByBlockHash hash =>
      show (cache.removeDataByBlockHash hash).blocksProcessed = _
      rcases cache.removeDataByBlockHash_cases hash with ⟨_, -, -, -, heq⟩ | ⟨-, heq⟩
      · rw [heq]
        rfl
      · rw [heq]
        rfl
  | _ => rfl

/-- A hash that enters waits from then on. -/
theorem waiting_of_enters (h : Enters x cache op) :
    (cache.apply build op).transactionHashesMap.get? x = some cache.blocksProcessed := by
  cases op with
  | addTransaction tx =>
      obtain ⟨rfl, hnot⟩ := h
      exact (addTransaction_waiting tx tx.hash).trans (if_pos ⟨rfl, hnot⟩)
  | _ => exact h.elim

/-- A hash that is taken waits no longer. -/
theorem waiting_of_takes (h : Takes x op) :
    (cache.apply build op).transactionHashesMap.get? x = none := by
  cases op with
  | removeTransactionHashFromInstantSendLockWaitingList hash =>
      exact (removeTransactionHash_waiting hash x).trans (if_pos (Eq.symm h))
  | _ => exact h.elim

/-- A block ages the hash by one. -/
theorem waiting_of_addsBlock (h : addsBlock op = true) :
    (cache.apply build op).transactionHashesMap.get? x =
      (cache.transactionHashesMap.get? x).filter (fun v =>
        decide (cache.blocksProcessed + 1 ≤ v + BLOCKS_TO_STAY_IN_INSTANT_LOCK_CACHE)) := by
  cases op with
  | addBlock block =>
      show (cache.addBlock build block).transactionHashesMap.get? x = _
      rw [addBlock_transactionHashesMap, processBlock_waiting]
  | _ => cases h

/-- Every other operation leaves the hash where it is. -/
theorem waiting_of_other (henters : ¬ Enters x cache op) (htakes : ¬ Takes x op)
    (hblock : addsBlock op = false) :
    (cache.apply build op).transactionHashesMap.get? x = cache.transactionHashesMap.get? x := by
  cases op with
  | addTransaction tx =>
      refine (addTransaction_waiting tx x).trans (if_neg ?_)
      rintro ⟨rfl, hnot⟩
      exact henters ⟨rfl, hnot⟩
  | addBlock block => cases hblock
  | removeTransactionHashFromInstantSendLockWaitingList hash =>
      exact (removeTransactionHash_waiting hash x).trans (if_neg fun heq => htakes heq.symm)
  | removeDataByBlockHash hash =>
      show (cache.removeDataByBlockHash hash).transactionHashesMap.get? x = _
      rw [(cache.removeDataByBlockHash_prunes hash).transactionHashesMap]
  | _ => rfl

/-! ## Runs -/

/-- The run ends with `after`, and the hash entered the list right before it, for the last
time. -/
def LastEntered (build : MerkleBlockBuild) (x : Hash) (ops after : List CacheOp) : Prop :=
  Machine.FollowsLast (apply build) (Enters x) new ops after

/-- Nothing takes the hash off, and at most ten blocks are added. -/
def Stays (x : Hash) (after : List CacheOp) : Prop :=
  (∀ op ∈ after, ¬ Takes x op) ∧
    after.countP addsBlock ≤ BLOCKS_TO_STAY_IN_INSTANT_LOCK_CACHE

/-- A run has processed the blocks that were added. -/
theorem run_blocksProcessed (ops : List CacheOp) :
    (run build new ops).blocksProcessed = ops.countP addsBlock := by
  refine Machine.run_induction (s := new)
    (P := fun ops cache => cache.blocksProcessed = ops.countP addsBlock) rfl
    (fun ops op ih => ?_) ops
  rw [apply_blocksProcessed, ih, List.countP_append, List.countP_singleton]

/-- An operation that does not enter the hash makes the window longer. -/
theorem exists_lastEntered_snoc_iff {ops : List CacheOp}
    (henters : ¬ Enters x (run build new ops) op) (P : List CacheOp → Prop) :
    (∃ after, LastEntered build x (ops ++ [op]) after ∧ P after) ↔
      ∃ after, LastEntered build x ops after ∧ P (after ++ [op]) := by
  simp only [LastEntered, Machine.followsLast_snoc_of_neg henters]
  constructor
  · rintro ⟨_, ⟨after', rfl, hlast⟩, hP⟩
    exact ⟨after', hlast, hP⟩
  · rintro ⟨after', hlast, hP⟩
    exact ⟨_, ⟨after', rfl, hlast⟩, hP⟩

/-- A hash stays while it is not taken and few blocks have come. -/
theorem stays_snoc_iff (htakes : ¬ Takes x op) (after : List CacheOp) :
    Stays x (after ++ [op]) ↔ (∀ op ∈ after, ¬ Takes x op) ∧
      after.countP addsBlock + (if addsBlock op then 1 else 0) ≤
        BLOCKS_TO_STAY_IN_INSTANT_LOCK_CACHE := by
  simp [Stays, htakes, List.countP_append, or_imp, forall_and]

/-- **What the list holds after a run.**  A hash is there with the number `v` when it entered the
list `blocksProcessed - v` blocks ago for the last time, at most ten, and was not taken off. -/
theorem waiting_run_iff (ops : List CacheOp) (x : Hash) (v : ℕ) :
    (run build new ops).transactionHashesMap.get? x = some v ↔
      ∃ after, LastEntered build x ops after ∧ Stays x after ∧
        (run build new ops).blocksProcessed = v + after.countP addsBlock := by
  induction ops using List.reverseRecOn with
  | nil =>
      constructor
      · intro h
        cases h
      · rintro ⟨after, h, -⟩
        exact absurd h (Machine.not_followsLast_nil after)
  | append_singleton ops op ih =>
      have hrun : run build new (ops ++ [op]) = (run build new ops).apply build op :=
        Machine.run_append (apply build) new ops [op]
      rw [hrun, apply_blocksProcessed]
      by_cases henters : Enters x (run build new ops) op
      · -- the window starts here
        have hblock : addsBlock op = false := by
          cases op with
          | addBlock block => exact henters.elim
          | _ => rfl
        simp only [LastEntered, waiting_of_enters henters,
          Machine.followsLast_snoc_of_pos henters, hblock]
        simp [Stays]
      · rw [exists_lastEntered_snoc_iff henters
          fun after => Stays x after ∧ _ = v + after.countP addsBlock]
        by_cases htakes : Takes x op
        · -- the hash is taken off, whatever the window was
          rw [waiting_of_takes htakes]
          constructor
          · intro h
            cases h
          · rintro ⟨after, -, hstays, -⟩
            exact absurd htakes (hstays.1 op (by simp))
        · simp only [stays_snoc_iff htakes, List.countP_append, List.countP_singleton]
          cases hblock : addsBlock op with
          | true =>
              -- an entry that reaches eleven blocks is dropped by the filter of `processBlock`
              rw [waiting_of_addsBlock hblock, Option.filter_eq_some_iff, ih, decide_eq_true_eq]
              constructor
              · rintro ⟨⟨after, hlast, hst, hbp⟩, hle⟩
                refine ⟨after, hlast, ⟨hst.1, ?_⟩, ?_⟩
                · simp only [if_true]
                  omega
                · simp only [if_true]
                  omega
              · rintro ⟨after, hlast, ⟨htk, hle⟩, hbp⟩
                simp only [if_true] at hle hbp
                exact ⟨⟨after, hlast, ⟨htk, by omega⟩, by omega⟩, by omega⟩
          | false =>
              rw [waiting_of_other henters htakes hblock, ih]
              simp [Stays, and_assoc]

/-- **The waiting list is a window of ten blocks.**  After any run a hash is on the list if and
only if the last transaction with this hash that was added while it was not on the list is
followed by no removal of the hash and by at most ten blocks; adding the transaction again
does not prolong this; every entry is at most ten blocks old; and the removal of a block and
the reading of what was not retrieved leave the list as it is. -/
theorem waiting_window (build : MerkleBlockBuild) (ops : List CacheOp) :
    (∀ x, (run build new ops).isInInstantLockCache x = true ↔
        ∃ after, LastEntered build x ops after ∧ (∀ op ∈ after, ¬ Takes x op) ∧
          after.countP addsBlock ≤ 10) ∧
      (∀ tx : Transaction, (run build new ops).isInInstantLockCache tx.hash = true →
        ((run build new ops).addTransaction tx).2.transactionHashesMap =
          (run build new ops).transactionHashesMap) ∧
      (∀ x v, (run build new ops).transactionHashesMap.get? x = some v →
        v ≤ (run build new ops).blocksProcessed ∧
          (run build new ops).blocksProcessed ≤ v + 10) ∧
      ∀ op : CacheOp, (∃ blockHash, op = .removeDataByBlockHash blockHash) ∨
          op = .getUnretrievedTransactions ∨ op = .getUnretrievedMerkleBlocks ∨
          op = .getUnretrievedInstantLocks →
        ((run build new ops).apply build op).transactionHashesMap =
          (run build new ops).transactionHashesMap := by
  refine ⟨fun x => ?_, fun tx htx => ?_, fun x v hv => ?_, fun op hop => ?_⟩
  · rw [isInInstantLockCache_iff]
    constructor
    · rintro ⟨v, hv⟩
      obtain ⟨after, hlast, hstays, -⟩ := (waiting_run_iff ops x v).mp hv
      exact ⟨after, hlast, hstays⟩
    · rintro ⟨after, hlast, hstays⟩
      -- the blocks that came after the entry were processed
      have hle : after.countP addsBlock ≤ (run build new ops).blocksProcessed := by
        obtain ⟨before, op, rfl, -⟩ := hlast
        rw [run_blocksProcessed, List.countP_append, List.countP_cons]
        omega
      exact ⟨_, (waiting_run_iff ops x _).mpr
        ⟨after, hlast, hstays, (Nat.sub_add_cancel hle).symm⟩⟩
  · show (if !(run build new ops).isInInstantLockCache tx.hash then _ else _) = _
    rw [htx]
    rfl
  · obtain ⟨after, -, hstays, hbp⟩ := (waiting_run_iff ops x v).mp hv
    have hle : after.countP addsBlock ≤ 10 := hstays.2
    omega
  · rcases hop with ⟨blockHash, rfl⟩ | rfl | rfl | rfl
    · exact ((run build new ops).removeDataByBlockHash_prunes blockHash).transactionHashesMap
    · rfl
    · rfl
    · rfl

end TransactionHashesCache

end Dapi
