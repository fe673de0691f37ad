/-
# What a subscription delivers

* `items_delivered`: every transaction and every merkle block that enters the
  cache is emitted by the end of the first iteration of the loop that follows,
  unless the data of a cached block it belongs to is removed in between.  The
  removal may be the historical one, or the eviction of the oldest block by
  `addBlock`, which does not ask whether the data was retrieved.
* `transactions_precede_proof`: when a merkle block is emitted, the transactions
  flagged in it were emitted before.  The invariant `Covered` ties the flags of
  every cached merkle block to the cached transactions and to what was emitted.
-/
import Dapi.CacheAlignment
import Dapi.SubscriptionSteps

namespace Dapi

open TransactionHashesCache Subscription Trace

variable {F : Type} (env : Environment F)

/-! ## Duties and answers -/

/-- An item entered the cache: a duty of the loop. -/
def IsItem : TraceEvent → Prop
  | .transactionAdded _ | .blockAdded _ _ _ => True
  | _ => False

/-- The loop has finished a round. -/
def IsIterationEnd : TraceEvent → Prop
  | .iterationEnded => True
  | _ => False

/-- The cached block whose data an event says was removed for `HISTORICAL_BLOCK_SENT`. -/
def historicallyRemovedBlock : TraceEvent → Option Block
  | .blockRemoved block => some block
  | _ => none

/-- The cached block whose data an event says was removed, for whatever reason. -/
def removedBlock : TraceEvent → Option Block
  | .blockRemoved block => some block
  | .blockEvicted block => some block
  | _ => none

/-- The event `a` settles the item that entered with `d`: it is emitted, or the data of a cached
block it belongs to is removed. -/
def Answers (removed : TraceEvent → Option Block) (a d : TraceEvent) : Prop :=
  match d with
  | .transactionAdded tx =>
    a = .emitted (.transaction tx) ∨
      ∃ block, block ∈ removed a ∧ tx.hash ∈ block.transactionHashes
  | .blockAdded _ _ merkleBlock =>
    a = .emitted (.merkleBlock merkleBlock) ∨
      ∃ block, block ∈ removed a ∧ block.hash = merkleBlock.header.hash
  | _ => False

instance (removed : TraceEvent → Option Block) (a d : TraceEvent) :
    Decidable (Answers removed a d) :=
  match d with
  | .transactionAdded tx =>
    inferInstanceAs (Decidable (a = .emitted (.transaction tx) ∨
      ∃ block, block ∈ removed a ∧ tx.hash ∈ block.transactionHashes))
  | .blockAdded _ _ merkleBlock =>
    inferInstanceAs (Decidable (a = .emitted (.merkleBlock merkleBlock) ∨
      ∃ block, block ∈ removed a ∧ block.hash = merkleBlock.header.hash))
  | .tested _ _ | .blockEvicted _ | .blockRemoved _ | .emitted _ | .sentLive _
  | .sentHistorical _ | .iterationEnded => .isFalse id

/-! ## No item is forgotten -/

/-- Every item that waits to be settled is in the cache and not retrieved, and no item waited when
an iteration ended. -/
structure Pending (c : TransactionHashesCache) (t : List TraceEvent) : Prop where
  transaction : ∀ tx, Outstanding (Answers removedBlock) t (.transactionAdded tx) →
    ⟨tx, false⟩ ∈ c.transactions
  merkleBlock : ∀ block flags merkleBlock,
    Outstanding (Answers removedBlock) t (.blockAdded block flags merkleBlock) →
      ⟨merkleBlock, false⟩ ∈ c.merkleBlocks
  deadline : MeetsDeadline IsItem (Answers removedBlock) IsIterationEnd t

variable {c c' : TransactionHashesCache} {t es : List TraceEvent}

/-- Events that add no item and end no iteration, while what they do not settle stays. -/
theorem Pending.append (h : Pending c t) (hitem : ∀ e ∈ es, ¬ IsItem e)
    (hend : ∀ e ∈ es, ¬ IsIterationEnd e)
    (htx : ∀ tx, ⟨tx, false⟩ ∈ c.transactions →
      (∀ a ∈ es, ¬ Answers removedBlock a (.transactionAdded tx)) → ⟨tx, false⟩ ∈ c'.transactions)
    (hmb : ∀ block flags merkleBlock, ⟨merkleBlock, false⟩ ∈ c.merkleBlocks →
      (∀ a ∈ es, ¬ Answers removedBlock a (.blockAdded block flags merkleBlock)) →
        ⟨merkleBlock, false⟩ ∈ c'.merkleBlocks) :
    Pending c' (t ++ es) where
  transaction := fun tx ho => by
    have hnot : TraceEvent.transactionAdded tx ∉ es := fun hmem => hitem _ hmem trivial
    obtain ⟨hold, hun⟩ := (outstanding_append_of_not_mem hnot).mp ho
    exact htx tx (h.transaction tx hold) hun
  merkleBlock := fun block flags merkleBlock ho => by
    have hnot : TraceEvent.blockAdded block flags merkleBlock ∉ es :=
      fun hmem => hitem _ hmem trivial
    obtain ⟨hold, hun⟩ := (outstanding_append_of_not_mem hnot).mp ho
    exact hmb block flags merkleBlock (h.merkleBlock _ _ _ hold) hun
  deadline := (meetsDeadline_append hend).mpr h.deadline

/-- The same when the two lists of the cache stay as they are. -/
theorem Pending.append_of_eq (h : Pending c t) (hitem : ∀ e ∈ es, ¬ IsItem e)
    (hend : ∀ e ∈ es, ¬ IsIterationEnd e) (htx : c'.transactions = c.transactions)
    (hmb : c'.merkleBlocks = c.merkleBlocks) : Pending c' (t ++ es) :=
  h.append hitem hend (fun _ hmem _ => by rwa [htx]) (fun _ _ _ hmem _ => by rwa [hmb])

/-- The removal of a block's data, for whatever reason it is logged. -/
theorem Pending.remove (h : Pending c t) {block : Block} {e : TraceEvent}
    (he : removedBlock e = some block)
    (htx : c'.transactions = (c.removeDataByBlock block).transactions)
    (hmb : c'.merkleBlocks = (c.removeDataByBlock block).merkleBlocks) :
    Pending c' (t ++ [e]) := by
  refine h.append ?_ ?_ ?_ ?_
  · intro e' he'
    obtain rfl := List.mem_singleton.mp he'
    cases e' <;> first | (intro hbad; exact hbad) | cases he
  · intro e' he'
    obtain rfl := List.mem_singleton.mp he'
    cases e' <;> first | (intro hbad; exact hbad) | cases he
  · -- an entry that the removal takes away is answered by it
    intro tx hmem hun
    rw [htx, mem_removeDataByBlock_transactions]
    refine ⟨hmem, fun hin => ?_⟩
    exact hun e (List.mem_singleton_self e) (Or.inr ⟨block, he, hin⟩)
  · intro _ _ merkleBlock hmem hun
    rw [hmb, removeDataByBlock_merkleBlocks]
    refine (Splice.mem_removeLast_of_neg ?_).mpr hmem
    intro heq
    have heq' : merkleBlock.header.hash = block.hash := by simpa using heq
    exact hun e (List.mem_singleton_self e) (Or.inr ⟨block, he, heq'.symm⟩)

/-- Nothing waits any more once everything unretrieved was emitted. -/
theorem Pending.none_outstanding (h : Pending c t) {d : TraceEvent} (hd : IsItem d) :
    ¬ Outstanding (Answers removedBlock) (t ++ c.iterationEmits.flatMap deliveryEvents) d := by
  have hemits : ∀ e ∈ c.iterationEmits.flatMap deliveryEvents, ¬ IsItem e := by
    intro e he
    obtain ⟨event, -, he⟩ := List.mem_flatMap.mp he
    rcases cases_of_mem_deliveryEvents he with rfl | ⟨_, rfl⟩
    · exact id
    · exact id
  rw [outstanding_append_of_not_mem (fun hmem => hemits d hmem hd)]
  rintro ⟨hold, hun⟩
  cases d with
  | transactionAdded tx =>
      have hmem := Entry.mem_unretrieved.mpr (h.transaction tx hold)
      refine hun (.emitted (.transaction tx)) ?_ (Or.inl rfl)
      refine List.mem_flatMap.mpr ⟨.transaction tx, ?_, by simp [deliveryEvents]⟩
      exact List.mem_append_left _ (List.mem_append_left _ (List.mem_map_of_mem hmem))
  | blockAdded block flags merkleBlock =>
      have hmem := Entry.mem_unretrieved.mpr (h.merkleBlock _ _ _ hold)
      refine hun (.emitted (.merkleBlock merkleBlock)) ?_ (Or.inl rfl)
      refine List.mem_flatMap.mpr ⟨.merkleBlock merkleBlock, ?_, by simp [deliveryEvents]⟩
      exact List.mem_append_right _ (List.mem_map_of_mem hmem)
  | _ => exact hd

theorem deliveryEvents_not_iterationEnd {event : MediatorEvent} {e : TraceEvent}
    (he : e ∈ deliveryEvents event) : ¬ IsIterationEnd e := by
  rcases cases_of_mem_deliveryEvents he with rfl | ⟨_, rfl⟩
  · exact id
  · exact id

/-- **A round of the loop settles what waits.** -/
theorem Pending.iteration (h : Pending c t) : Pending c.drained (t ++ c.iterationEvents) := by
  have hnone : ∀ d, IsItem d →
      ¬ Outstanding (Answers removedBlock) (t ++ c.iterationEvents) d := by
    intro d hd ho
    rw [iterationEvents, ← List.append_assoc, outstanding_snoc] at ho
    rcases ho with ⟨ho, -⟩ | rfl
    · exact h.none_outstanding hd ho
    · exact hd
  refine ⟨fun tx ho => ?_, fun _ _ _ ho => ?_, ?_⟩
  · exact absurd ho (hnone _ trivial)
  · exact absurd ho (hnone _ trivial)
  · rw [iterationEvents, ← List.append_assoc, meetsDeadline_snoc]
    refine ⟨(meetsDeadline_append ?_).mpr h.deadline, fun _ d hd => h.none_outstanding hd⟩
    intro e he
    obtain ⟨event, -, he⟩ := List.mem_flatMap.mp he
    exact deliveryEvents_not_iterationEnd he

/-- A new transaction waits in the cache. -/
theorem Pending.addTransaction (h : Pending c t) (tx : Transaction) :
    Pending (c.addTransaction tx).2 (t ++ c.addTransactionEvents tx) := by
  have hkeep : ∀ {e : Entry Transaction}, e ∈ c.transactions →
      e ∈ (c.addTransaction tx).2.transactions := mem_addTransaction_of_mem
  by_cases hadd : (c.addTransaction tx).1 = true
  · rw [addTransactionEvents, if_pos hadd]
    refine ⟨fun tx' ho => ?_, fun block flags merkleBlock ho => ?_, ?_⟩
    · rcases outstanding_snoc.mp ho with ⟨ho, -⟩ | heq
      · exact hkeep (h.transaction tx' ho)
      · obtain rfl : tx = tx' := by simpa using heq
        rw [addTransaction_transactions, if_pos hadd]
        simp
    · rcases outstanding_snoc.mp ho with ⟨ho, -⟩ | heq
      · exact h.merkleBlock _ _ _ ho
      · cases heq
    · exact meetsDeadline_snoc.mpr ⟨h.deadline, fun hbad => hbad.elim⟩
  · rw [addTransactionEvents, if_neg hadd]
    exact h.append (by simp) (by simp) (fun _ hmem _ => hkeep hmem) (fun _ _ _ hmem _ => hmem)

/-- The block is stored. -/
theorem Pending.withBlock (h : Pending c t) (block : Block) :
    Pending (c.withBlock env.build block)
      (t ++ [.blockAdded block (c.matchedTransactionFlags block)
        (buildMerkleBlock env.build block (c.matchedTransactionFlags block))]) := by
  refine ⟨fun tx ho => ?_, fun block' flags merkleBlock ho => ?_, ?_⟩
  · rcases outstanding_snoc.mp ho with ⟨ho, -⟩ | heq
    · exact h.transaction tx ho
    · cases heq
  · show _ ∈ c.merkleBlocks ++ [_]
    rcases outstanding_snoc.mp ho with ⟨ho, -⟩ | heq
    · exact List.mem_append_left _ (h.merkleBlock _ _ _ ho)
    · obtain ⟨-, -, rfl⟩ : block = block' ∧ _ ∧ _ := by simpa using heq
      exact List.mem_append_right _ (List.mem_singleton_self _)
  · exact meetsDeadline_snoc.mpr ⟨h.deadline, fun hbad => hbad.elim⟩

/-- What the log says of the three ways in which `addBlock` ends. -/
theorem addBlockEvents_of_not_matching (build : MerkleBlockBuild) {block : Block}
    (hm : c.haveMatchingTransactions block = false) : c.addBlockEvents build block = [] := by
  rw [addBlockEvents, hm]
  rfl

theorem addBlockEvents_of_fits (build : MerkleBlockBuild) {block : Block}
    (hm : c.haveMatchingTransactions block = true) (hlt : c.blocks.length < c.cacheSize) :
    c.addBlockEvents build block =
      [.blockAdded block (c.matchedTransactionFlags block)
        (buildMerkleBlock build block (c.matchedTransactionFlags block))] := by
  rw [addBlockEvents, hm, evictedBlock, if_neg (Nat.not_le.mpr hlt)]
  rfl

theorem addBlockEvents_of_evicts (build : MerkleBlockBuild) {block firstBlock : Block}
    {blocks : List Block} (hm : c.haveMatchingTransactions block = true)
    (hle : c.cacheSize ≤ c.blocks.length) (hcons : c.blocks ++ [block] = firstBlock :: blocks) :
    c.addBlockEvents build block =
      [.blockAdded block (c.matchedTransactionFlags block)
        (buildMerkleBlock build block (c.matchedTransactionFlags block))] ++
        [.blockEvicted firstBlock] := by
  rw [addBlockEvents, hm, evictedBlock, if_pos hle, hcons]
  rfl

/-- A new merkle block waits in the cache. -/
theorem Pending.addBlock (h : Pending c t) (block : Block) :
    Pending (c.addBlock env.build block) (t ++ c.addBlockEvents env.build block) := by
  rcases c.addBlock_cases env.build block with
    ⟨hm, heq⟩ | ⟨hm, hlt, heq⟩ | ⟨hm, hle, firstBlock, blocks, hcons, heq⟩
  · rw [heq, addBlockEvents_of_not_matching env.build hm]
    exact h.append_of_eq (by simp) (by simp) rfl rfl
  · rw [heq, addBlockEvents_of_fits env.build hm hlt]
    exact h.withBlock env block
  · rw [heq, addBlockEvents_of_evicts env.build hm hle hcons, ← List.append_assoc]
    exact (h.withBlock env block).remove rfl rfl rfl

/-- Every step keeps what waits in the cache. -/
theorem preserves_pending (a : Action) : Preserves a Pending where
  logs := fun {c t e} he h => by
    have hquiet := he.quiet
    refine h.append_of_eq ?_ ?_ rfl rfl
    · intro e' he'
      obtain rfl := List.mem_singleton.mp he'
      cases e' <;> first | exact id | exact hquiet.elim
    · intro e' he'
      obtain rfl := List.mem_singleton.mp he'
      cases e' <;> first | exact id | exact hquiet.elim
  addTransaction := fun {c t tx} _ h => h.addTransaction tx
  removeDataByBlockHash := fun {c t blockHash} _ h => by
    rcases c.removeDataByBlockHash_cases blockHash with ⟨block, -, -, hf, heq⟩ | ⟨hf, heq⟩
    · rw [heq, removeDataByBlockHashEvents, hf]
      exact h.remove (e := .blockRemoved block) rfl rfl rfl
    · rw [heq, removeDataByBlockHashEvents, hf]
      exact h.append_of_eq (by simp) (by simp) rfl rfl
  addInstantLock := fun lock h => ⟨h.transaction, h.merkleBlock, h.deadline⟩
  sendInstantLock := fun {c t lock} _ _ h => by
    obtain ⟨transactionHashesMap, heq⟩ := c.removeTransactionHash_eq lock.txid
    rw [heq]
    refine h.append_of_eq ?_ ?_ rfl rfl
    · intro e he
      rcases cases_of_mem_deliveryEvents he with rfl | ⟨_, rfl⟩
      · exact id
      · exact id
    · exact fun e he => deliveryEvents_not_iterationEnd he
  iteration := fun _ h => h.iteration

theorem pending_new : Pending .new [] where
  transaction := fun _ h => absurd h (not_outstanding_nil _ _)
  merkleBlock := fun _ _ _ h => absurd h (not_outstanding_nil _ _)
  deadline := always_nil _

/-- **Every item is delivered or removed with its block.**  In every run, a transaction that was
added and a merkle block that was pushed is emitted by the end of the first iteration that
follows, unless the data of a cached block it belongs to was removed in between, for
`HISTORICAL_BLOCK_SENT` or by the eviction of the oldest block. -/
theorem items_delivered (filter : F) (as : List Action) :
    MeetsDeadline IsItem (Answers removedBlock) IsIterationEnd
      (run env (start filter) as).trace :=
  (Preserves.run preserves_pending (fun block _ _ h => h.addBlock env block) pending_new filter
    as).deadline

/-- A filter test that accepts every transaction. -/
def acceptAll : Environment Unit := ⟨fun filter _ => (.ok true, filter), fullBuild⟩

/-- Eleven blocks with a matched transaction each, before the loop starts. -/
def evictingActions : List Action :=
  (List.range 11).flatMap (fun i =>
    [.matched (bareTransaction [UInt8.ofNat i]),
      .block (bareBlock [UInt8.ofNat (100 + i)] [[UInt8.ofNat i]])]) ++ [.memPoolDataSent]

/-- The first transaction is evicted before it was retrieved, and never emitted. -/
theorem not_items_delivered_evicted :
    ¬ MeetsDeadline IsItem (Answers historicallyRemovedBlock) IsIterationEnd
      (run acceptAll (start ()) evictingActions).trace := by
  intro h
  have hsplit : (run acceptAll (start ()) evictingActions).trace =
      [] ++ .transactionAdded (bareTransaction [0]) ::
        ((run acceptAll (start ()) evictingActions).trace.drop 1).dropLast ++
          .iterationEnded :: [] := by decide +kernel
  rw [hsplit] at h
  obtain ⟨a, ha, hans⟩ := h.answered trivial trivial
  have hnone : ∀ a ∈ ((run acceptAll (start ()) evictingActions).trace.drop 1).dropLast,
      ¬ Answers historicallyRemovedBlock a (.transactionAdded (bareTransaction [0])) := by
    decide +kernel
  exact hnone a ha hans

/-! ## Transactions precede their proof -/

/-- The blocks of a list of actions, in the order of their notifications. -/
def deliveredBlocks (as : List Action) : List Block :=
  as.filterMap fun a =>
    match a with
    | .block block => some block
    | _ => none

/-- Two blocks are different and share no transaction. -/
def Unrelated (b b' : Block) : Prop :=
  b.hash ≠ b'.hash ∧ ∀ h ∈ b.transactionHashes, h ∉ b'.transactionHashes

/-- Each block is delivered at most once, and no transaction is in two of them. -/
def DeliveredOnce (blocks : List Block) : Prop := blocks.Pairwise Unrelated

instance : Std.Symm Unrelated where
  symm _ _ h := ⟨h.1.symm, fun hash hb' hb => h.2 hash hb hb'⟩

/-- Delivered blocks with different hashes share no transaction. -/
theorem DeliveredOnce.disjoint {blocks : List Block} (h : DeliveredOnce blocks) {b b' : Block}
    (hb : b ∈ blocks) (hb' : b' ∈ blocks) (hne : b.hash ≠ b'.hash) :
    ∀ hash ∈ b.transactionHashes, hash ∉ b'.transactionHashes :=
  (List.Pairwise.forall h hb hb' (fun heq => hne (by rw [heq]))).2

/-- The transaction was emitted, by itself or as another object with its hash. -/
def EmittedTransaction (t : List TraceEvent) (h : Hash) : Prop :=
  ∃ tx : Transaction, tx.hash = h ∧ .emitted (.transaction tx) ∈ t

/-- What was emitted was emitted. -/
theorem EmittedTransaction.append {h : Hash} (he : EmittedTransaction t h) :
    EmittedTransaction (t ++ es) h := by
  obtain ⟨tx, hh, hmem⟩ := he
  exact ⟨tx, hh, List.mem_append_left _ hmem⟩

/-- The transaction belongs to the block and its flag is set. -/
def Flagged (block : Block) (flags : List Bool) (tx : Transaction) : Prop :=
  (tx, true) ∈ block.transactions.zip flags

theorem Flagged.mem {block : Block} {flags : List Bool} {tx : Transaction}
    (h : Flagged block flags tx) : tx.hash ∈ block.transactionHashes :=
  List.mem_map_of_mem (List.of_mem_zip h).1

/-- The flags that `addBlock` computes mark the transactions that are in the cache. -/
theorem Flagged.mem_cache {block : Block} {tx : Transaction}
    (h : Flagged block (c.matchedTransactionFlags block) tx) :
    tx.hash ∈ c.cacheTransactionHashes := by
  have hflags : c.matchedTransactionFlags block =
      block.transactions.map (fun tx => c.cacheTransactionHashes.contains tx.hash) := by
    rw [matchedTransactionFlags, Block.transactionHashes, List.map_map]
    rfl
  rw [Flagged, hflags, ← List.map_prod_left_eq_zip, List.mem_map] at h
  obtain ⟨tx', -, heq⟩ := h
  rw [Prod.mk.injEq] at heq
  rw [← heq.1]
  simpa using heq.2

/-- What an emitted merkle block owes to what was emitted before it. -/
def ProofAfterTransactions (past : List TraceEvent) (e : TraceEvent) : Prop :=
  ∀ merkleBlock, e = .emitted (.merkleBlock merkleBlock) →
    (∃ block flags, .blockAdded block flags merkleBlock ∈ past) ∧
      ∀ block flags, .blockAdded block flags merkleBlock ∈ past →
        ∀ tx, Flagged block flags tx → EmittedTransaction past tx.hash

/-- Every transaction that the cache handed out was emitted. -/
def RetrievedEmitted (c : TransactionHashesCache) (t : List TraceEvent) : Prop :=
  ∀ e ∈ c.transactions, e.isRetrieved = true → EmittedTransaction t e.value.hash

/-- No entry is marked meanwhile. -/
theorem RetrievedEmitted.append (h : RetrievedEmitted c t)
    (hnew : ∀ e ∈ c'.transactions, e ∈ c.transactions ∨ e.isRetrieved = false) :
    RetrievedEmitted c' (t ++ es) := by
  intro e he hr
  rcases hnew e he with he | hfalse
  · exact (h e he hr).append
  · rw [hr] at hfalse
    cases hfalse

/-- Once the unretrieved transactions were emitted, so was every cached one. -/
theorem RetrievedEmitted.emitted_of_cached (h : RetrievedEmitted c t)
    (hes : ∀ tx ∈ Entry.unretrieved c.transactions, .emitted (.transaction tx) ∈ es)
    {e : Entry Transaction} (he : e ∈ c.transactions) :
    EmittedTransaction (t ++ es) e.value.hash := by
  cases hr : e.isRetrieved with
  | true => exact (h e he hr).append
  | false =>
      have hmem : e.value ∈ Entry.unretrieved c.transactions := by
        rw [Entry.mem_unretrieved, ← hr]
        exact he
      exact ⟨e.value, rfl, List.mem_append_right _ (hes _ hmem)⟩

/-- Once an iteration ran, every cached transaction was emitted. -/
theorem RetrievedEmitted.emitted_iteration (h : RetrievedEmitted c t) {hash : Hash}
    (hcached : hash ∈ c.cacheTransactionHashes) :
    EmittedTransaction (t ++ c.iterationEvents) hash := by
  obtain ⟨e, he, rfl⟩ := mem_cacheTransactionHashes.mp hcached
  refine h.emitted_of_cached (fun tx htx => emitted_mem_iterationEvents.mpr ?_) he
  exact List.mem_append_left _ (List.mem_append_left _ (List.mem_map_of_mem htx))

/-- What a round retrieves, it emits. -/
theorem RetrievedEmitted.iteration (h : RetrievedEmitted c t) :
    RetrievedEmitted c.drained (t ++ c.iterationEvents) := by
  intro e he _
  obtain ⟨-, e', he', hvalue⟩ := Entry.mem_markRetrieved.mp he
  rw [← hvalue]
  exact h.emitted_iteration (mem_cacheTransactionHashes.mpr ⟨e', he', rfl⟩)

/-- The flagged transactions of every cached merkle block are cached or were emitted. -/
structure Covered (blocks : List Block) (c : TransactionHashesCache) (t : List TraceEvent) :
    Prop where
  aligned : Aligned c
  delivered : ∀ b ∈ c.blocks, b ∈ blocks
  added : ∀ b flags mb, .blockAdded b flags mb ∈ t → b ∈ blocks ∧ mb.header.hash = b.hash
  retrieved : RetrievedEmitted c t
  built : ∀ e ∈ c.merkleBlocks, ∃ b flags, .blockAdded b flags e.value ∈ t
  covered : ∀ e ∈ c.merkleBlocks, ∀ b flags, .blockAdded b flags e.value ∈ t →
    ∀ tx, Flagged b flags tx → tx.hash ∈ c.cacheTransactionHashes ∨ EmittedTransaction t tx.hash
  proofs : Always ProofAfterTransactions t

variable {blocks : List Block}

theorem Covered.mono {blocks' : List Block} (h : Covered blocks c t)
    (hsub : ∀ b ∈ blocks, b ∈ blocks') : Covered blocks' c t :=
  { h with
    delivered := fun b hb => hsub b (h.delivered b hb)
    added := fun b flags mb hmem =>
      ⟨hsub b (h.added b flags mb hmem).1, (h.added b flags mb hmem).2⟩ }

/-- Events that neither add a block nor emit a merkle block, while the blocks stay and no
transaction leaves or is marked. -/
theorem Covered.append (h : Covered blocks c t)
    (hadded : ∀ b flags mb, .blockAdded b flags mb ∉ es)
    (hemitted : ∀ mb, .emitted (.merkleBlock mb) ∉ es)
    (hnew : ∀ e ∈ c'.transactions, e ∈ c.transactions ∨ e.isRetrieved = false)
    (hold : ∀ hash ∈ c.cacheTransactionHashes, hash ∈ c'.cacheTransactionHashes)
    (hmb : c'.merkleBlocks = c.merkleBlocks) (hb : c'.blocks = c.blocks) :
    Covered blocks c' (t ++ es) := by
  -- the blocks that were added are those from before
  have hadd : ∀ {b flags mb}, .blockAdded b flags mb ∈ t ++ es →
      TraceEvent.blockAdded b flags mb ∈ t := by
    intro b flags mb hmem
    rcases List.mem_append.mp hmem with hmem | hmem
    · exact hmem
    · exact absurd hmem (hadded b flags mb)
  refine ⟨h.aligned.congr hb (by rw [merkleBlockHashes, hmb, merkleBlockHashes]), ?_, ?_, ?_, ?_,
    ?_, ?_⟩
  · rw [hb]
    exact h.delivered
  · exact fun b flags mb hmem => h.added b flags mb (hadd hmem)
  · exact h.retrieved.append hnew
  · rw [hmb]
    intro e he
    obtain ⟨b, flags, hmem⟩ := h.built e he
    exact ⟨b, flags, List.mem_append_left _ hmem⟩
  · rw [hmb]
    intro e he b flags hmem tx hflag
    rcases h.covered e he b flags (hadd hmem) tx hflag with hin | hemit
    · exact Or.inl (hold _ hin)
    · exact Or.inr hemit.append
  · rw [always_append]
    refine ⟨h.proofs, always_of_forall_mem ?_⟩
    intro e he past mb heq
    exact absurd (heq ▸ he) (hemitted mb)

/-- The same when the three lists of the cache stay as they are. -/
theorem Covered.append_of_eq (h : Covered blocks c t)
    (hadded : ∀ b flags mb, .blockAdded b flags mb ∉ es)
    (hemitted : ∀ mb, .emitted (.merkleBlock mb) ∉ es)
    (htx : c'.transactions = c.transactions) (hmb : c'.merkleBlocks = c.merkleBlocks)
    (hb : c'.blocks = c.blocks) : Covered blocks c' (t ++ es) := by
  refine h.append hadded hemitted (fun e he => Or.inl (htx ▸ he)) ?_ hmb hb
  rw [cacheTransactionHashes, cacheTransactionHashes, htx]
  exact fun hash hmem => hmem

/-- A new transaction takes nothing from the cached merkle blocks. -/
theorem Covered.addTransaction (h : Covered blocks c t) (tx : Transaction) :
    Covered blocks (c.addTransaction tx).2 (t ++ c.addTransactionEvents tx) := by
  refine h.append ?_ ?_ ?_ ?_ rfl rfl
  · exact fun b flags mb hmem => by cases eq_of_mem_addTransactionEvents hmem
  · exact fun mb hmem => by cases eq_of_mem_addTransactionEvents hmem
  · exact fun e he => of_mem_addTransaction he
  · intro hash hmem
    obtain ⟨e, he, rfl⟩ := mem_cacheTransactionHashes.mp hmem
    exact mem_cacheTransactionHashes.mpr ⟨e, mem_addTransaction_of_mem he, rfl⟩

/-- The data of one delivered block goes; what other merkle blocks flag stays. -/
theorem Covered.remove (h : Covered blocks c t) (hD : DeliveredOnce blocks) {block : Block}
    (hblock : block ∈ blocks) {e : TraceEvent} (he : removedBlock e = some block) :
    Covered blocks (c.removeDataByBlock block) (t ++ [e]) := by
  have hadd : ∀ {b flags mb}, .blockAdded b flags mb ∈ t ++ [e] →
      TraceEvent.blockAdded b flags mb ∈ t := by
    intro b flags mb hmem
    rcases List.mem_append.mp hmem with hmem | hmem
    · exact hmem
    · rw [← List.mem_singleton.mp hmem] at he
      cases he
  have hleft : ∀ {e₁}, e₁ ∈ (c.removeDataByBlock block).merkleBlocks →
      e₁ ∈ c.merkleBlocks ∧ e₁.value.header.hash ≠ block.hash := by
    intro e₁ he₁
    rw [removeDataByBlock_merkleBlocks] at he₁
    refine ⟨Splice.mem_of_mem_removeLast he₁, ?_⟩
    refine Splice.key_ne_of_mem_removeLast
      (f := fun e : Entry MerkleBlock => e.value.header.hash) ?_ he₁
    have hnd := h.aligned.nodup
    rwa [← h.aligned.merkleBlocks] at hnd
  refine ⟨h.aligned.removeDataByBlock block, ?_, ?_, ?_, ?_, ?_, ?_⟩
  · intro b hb
    rw [removeDataByBlock_blocks] at hb
    exact h.delivered b (Splice.mem_of_mem_removeLast hb)
  · exact fun b flags mb hmem => h.added b flags mb (hadd hmem)
  · intro e₁ he₁ hr
    exact (h.retrieved e₁ (mem_removeDataByBlock_transactions.mp he₁).1 hr).append
  · intro e₁ he₁
    obtain ⟨b, flags, hmem⟩ := h.built e₁ (hleft he₁).1
    exact ⟨b, flags, List.mem_append_left _ hmem⟩
  · intro e₁ he₁ b flags hmem tx hflag
    obtain ⟨he₁, hne⟩ := hleft he₁
    obtain ⟨hb, hhash⟩ := h.added b flags _ (hadd hmem)
    rw [hhash] at hne
    rcases h.covered e₁ he₁ b flags (hadd hmem) tx hflag with hin | hemit
    · -- the transaction is in another block than the one removed, so it stays
      obtain ⟨e₂, he₂, htx⟩ := mem_cacheTransactionHashes.mp hin
      refine Or.inl (mem_cacheTransactionHashes.mpr ⟨e₂, ?_, htx⟩)
      rw [mem_removeDataByBlock_transactions]
      refine ⟨he₂, ?_⟩
      rw [htx]
      exact hD.disjoint hb hblock hne _ hflag.mem
    · exact Or.inr hemit.append
  · rw [always_snoc]
    refine ⟨h.proofs, ?_⟩
    rintro mb rfl
    cases he

/-- A delivered block is stored; its flags mark cached transactions. -/
theorem Covered.withBlock (hbuild : KeepsHeader env.build) (h : Covered blocks c t)
    {block : Block} (hfresh : ∀ b ∈ blocks, Unrelated b block) :
    Covered (blocks ++ [block]) (c.withBlock env.build block)
      (t ++ [.blockAdded block (c.matchedTransactionFlags block)
        (buildMerkleBlock env.build block (c.matchedTransactionFlags block))]) := by
  set merkleBlock := buildMerkleBlock env.build block (c.matchedTransactionFlags block) with hmb
  have hheader : merkleBlock.header.hash = block.hash := by
    rw [hmb, buildMerkleBlock_header, hbuild]
    rfl
  -- a merkle block of the past has another header
  have hpast : ∀ {b flags mb}, .blockAdded b flags mb ∈ t → mb ≠ merkleBlock := by
    rintro b flags mb hmem rfl
    obtain ⟨hb, hhash⟩ := h.added b flags _ hmem
    exact (hfresh b hb).1 (hhash.symm.trans hheader)
  have hnew : ∀ {b flags mb}, .blockAdded b flags mb ∈
      t ++ [.blockAdded block (c.matchedTransactionFlags block) merkleBlock] →
      TraceEvent.blockAdded b flags mb ∈ t ∨
        (b = block ∧ flags = c.matchedTransactionFlags block ∧ mb = merkleBlock) := by
    intro b flags mb hmem
    rcases List.mem_append.mp hmem with hmem | hmem
    · exact Or.inl hmem
    · exact Or.inr (by simpa using hmem)
  refine ⟨?_, ?_, ?_, ?_, ?_, ?_, ?_⟩
  · refine h.aligned.withBlock hbuild fun hmem => ?_
    obtain ⟨b, hb, hhash⟩ := List.mem_map.mp hmem
    exact (hfresh b (h.delivered b hb)).1 hhash
  · intro b hb
    have hb' : b ∈ c.blocks ++ [block] := hb
    rcases List.mem_append.mp hb' with hb | hb
    · exact List.mem_append_left _ (h.delivered b hb)
    · exact List.mem_append_right _ hb
  · intro b flags mb hmem
    rcases hnew hmem with hmem | ⟨rfl, -, rfl⟩
    · obtain ⟨hb, hhash⟩ := h.added b flags mb hmem
      exact ⟨List.mem_append_left _ hb, hhash⟩
    · exact ⟨by simp, hheader⟩
  · exact fun e he hr => (h.retrieved e he hr).append
  · intro e he
    have he' : e ∈ c.merkleBlocks ++ [⟨merkleBlock, false⟩] := he
    rcases List.mem_append.mp he' with he | he
    · obtain ⟨b, flags, hmem⟩ := h.built e he
      exact ⟨b, flags, List.mem_append_left _ hmem⟩
    · rw [List.mem_singleton.mp he]
      exact ⟨block, c.matchedTransactionFlags block, by simp⟩
  · intro e he b flags hmem tx hflag
    have he' : e ∈ c.merkleBlocks ++ [⟨merkleBlock, false⟩] := he
    rcases List.mem_append.mp he' with he | he
    · rcases hnew hmem with hmem | ⟨-, -, heq⟩
      · exact (h.covered e he b flags hmem tx hflag).imp_right EmittedTransaction.append
      · obtain ⟨b', flags', hmem'⟩ := h.built e he
        exact absurd heq (hpast hmem')
    · rw [List.mem_singleton.mp he] at hmem
      rcases hnew hmem with hmem | ⟨rfl, rfl, -⟩
      · exact absurd rfl (hpast hmem)
      · exact Or.inl hflag.mem_cache
  · rw [always_snoc]
    refine ⟨h.proofs, ?_⟩
    intro mb heq
    cases heq

/-- The flagged transactions of a new block are cached. -/
theorem Covered.addBlock (hbuild : KeepsHeader env.build) (h : Covered blocks c t)
    {block : Block} (hD : DeliveredOnce (blocks ++ [block])) :
    Covered (blocks ++ [block]) (c.addBlock env.build block)
      (t ++ c.addBlockEvents env.build block) := by
  have hfresh : ∀ b ∈ blocks, Unrelated b block := fun b hb =>
    (List.pairwise_append.mp hD).2.2 b hb block (List.mem_singleton_self _)
  rcases c.addBlock_cases env.build block with
    ⟨hm, heq⟩ | ⟨hm, hlt, heq⟩ | ⟨hm, hle, firstBlock, rest, hcons, heq⟩
  · rw [heq, addBlockEvents_of_not_matching env.build hm]
    refine (h.mono fun b hb => List.mem_append_left _ hb).append_of_eq ?_ ?_ rfl rfl rfl
    · simp
    · simp
  · rw [heq, addBlockEvents_of_fits env.build hm hlt]
    exact h.withBlock env hbuild hfresh
  · have hwith := h.withBlock env hbuild hfresh
    have hfirst : firstBlock ∈ (c.withBlock env.build block).blocks := by
      have hblocks : (c.withBlock env.build block).blocks = c.blocks ++ [block] := rfl
      rw [hblocks, hcons]
      exact List.mem_cons_self
    rw [heq, addBlockEvents_of_evicts env.build hm hle hcons, ← List.append_assoc,
      evict_eq hcons hwith.aligned.nodup]
    exact hwith.remove hD (hwith.delivered firstBlock hfirst) rfl

/-! ### An iteration of the loop -/

theorem blockAdded_not_mem_deliveryEvents {event : MediatorEvent} {b : Block} {flags : List Bool}
    {mb : MerkleBlock} : TraceEvent.blockAdded b flags mb ∉ deliveryEvents event := by
  intro hmem
  rcases cases_of_mem_deliveryEvents hmem with heq | ⟨_, heq⟩
  · cases heq
  · cases heq

theorem emitted_mem_deliveries {event : MediatorEvent} {events : List MediatorEvent} :
    TraceEvent.emitted event ∈ events.flatMap deliveryEvents ↔ event ∈ events := by
  rw [List.mem_flatMap]
  constructor
  · rintro ⟨event', hmem, he⟩
    rwa [emitted_mem_deliveryEvents.mp he]
  · intro hmem
    exact ⟨event, hmem, emitted_mem_deliveryEvents.mpr rfl⟩

theorem blockAdded_not_mem_deliveries {events : List MediatorEvent} {b : Block}
    {flags : List Bool} {mb : MerkleBlock} :
    TraceEvent.blockAdded b flags mb ∉ events.flatMap deliveryEvents := by
  intro hmem
  obtain ⟨event, -, hmem⟩ := List.mem_flatMap.mp hmem
  exact blockAdded_not_mem_deliveryEvents hmem

theorem blockAdded_not_mem_iterationEvents {b : Block} {flags : List Bool} {mb : MerkleBlock} :
    TraceEvent.blockAdded b flags mb ∉ c.iterationEvents := by
  intro hmem
  rcases List.mem_append.mp hmem with hmem | hmem
  · exact blockAdded_not_mem_deliveries hmem
  · simp at hmem

/-- The merkle blocks come after the transactions in what an iteration emits. -/
theorem Covered.iteration_proofs (h : Covered blocks c t) :
    Always ProofAfterTransactions (t ++ c.iterationEvents) := by
  -- the iteration is split where its merkle blocks begin
  set first := (Entry.unretrieved c.transactions).map MediatorEvent.transaction ++
    c.sendableInstantLocks.map MediatorEvent.instantLock with hfirst
  set second := (Entry.unretrieved c.merkleBlocks).map MediatorEvent.merkleBlock with hsecond
  have hevents : t ++ c.iterationEvents =
      (t ++ first.flatMap deliveryEvents) ++
        (second.flatMap deliveryEvents ++ [.iterationEnded]) := by
    rw [iterationEvents, iterationEmits, ← hfirst, ← hsecond, List.flatMap_append]
    simp only [List.append_assoc]
  have htxs : ∀ tx ∈ Entry.unretrieved c.transactions,
      .emitted (.transaction tx) ∈ first.flatMap deliveryEvents := by
    intro tx htx
    exact emitted_mem_deliveries.mpr (List.mem_append_left _ (List.mem_map_of_mem htx))
  rw [hevents, always_append]
  refine ⟨always_append.mpr ⟨h.proofs, always_of_forall_mem ?_⟩, ?_⟩
  · rintro e he past mb rfl
    rw [emitted_mem_deliveries, hfirst] at he
    simp at he
  · rintro past e rest hsplit mb rfl
    -- an iteration adds no block, so what it proves was added before
    have hpast : ∀ {b flags mb}, .blockAdded b flags mb ∈
        t ++ first.flatMap deliveryEvents ++ past → TraceEvent.blockAdded b flags mb ∈ t := by
      intro b flags mb hmem
      rcases List.mem_append.mp hmem with hmem | hmem
      · rcases List.mem_append.mp hmem with hmem | hmem
        · exact hmem
        · exact absurd hmem blockAdded_not_mem_deliveries
      · have hin : TraceEvent.blockAdded b flags mb ∈
            second.flatMap deliveryEvents ++ [.iterationEnded] := by
          rw [hsplit]
          exact List.mem_append_left _ hmem
        rcases List.mem_append.mp hin with hin | hin
        · exact absurd hin blockAdded_not_mem_deliveries
        · cases List.mem_singleton.mp hin
    have hmb : ⟨mb, false⟩ ∈ c.merkleBlocks := by
      have hin : TraceEvent.emitted (.merkleBlock mb) ∈
          second.flatMap deliveryEvents ++ [.iterationEnded] := by
        rw [hsplit]
        simp
      rw [← Entry.mem_unretrieved]
      rcases List.mem_append.mp hin with hin | hin
      · rw [emitted_mem_deliveries, hsecond] at hin
        simpa using hin
      · cases List.mem_singleton.mp hin
    obtain ⟨b, flags, hbuilt⟩ := h.built _ hmb
    refine ⟨⟨b, flags, ?_⟩, ?_⟩
    · rw [List.append_assoc]
      exact List.mem_append_left _ hbuilt
    · intro b' flags' hmem tx hflag
      rcases h.covered _ hmb b' flags' (hpast hmem) tx hflag with hin | hemit
      · obtain ⟨e, he, htx⟩ := mem_cacheTransactionHashes.mp hin
        rw [← htx]
        exact (h.retrieved.emitted_of_cached htxs he).append
      · rw [List.append_assoc]
        exact hemit.append

/-- A round emits transactions before the merkle blocks that cover them. -/
theorem Covered.iteration (h : Covered blocks c t) :
    Covered blocks c.drained (t ++ c.iterationEvents) := by
  have hold : ∀ {b flags mb}, .blockAdded b flags mb ∈ t ++ c.iterationEvents →
      TraceEvent.blockAdded b flags mb ∈ t := by
    intro b flags mb hmem
    rcases List.mem_append.mp hmem with hmem | hmem
    · exact hmem
    · exact absurd hmem blockAdded_not_mem_iterationEvents
  -- marking an entry leaves its value
  have hvalue : ∀ {e : Entry MerkleBlock}, e ∈ c.drained.merkleBlocks →
      ∃ e' ∈ c.merkleBlocks, e'.value = e.value :=
    fun he => (Entry.mem_markRetrieved.mp he).2
  have hmerkle : c.drained.merkleBlockHashes = c.merkleBlockHashes :=
    Entry.map_markRetrieved (fun mb : MerkleBlock => mb.header.hash) _
  refine ⟨h.aligned.congr rfl hmerkle, h.delivered, ?_, ?_, ?_, ?_, h.iteration_proofs⟩
  · exact fun b flags mb hmem => h.added b flags mb (hold hmem)
  · exact h.retrieved.iteration
  · intro e he
    obtain ⟨e', he', hv⟩ := hvalue he
    obtain ⟨b, flags, hmem⟩ := h.built e' he'
    rw [← hv]
    exact ⟨b, flags, List.mem_append_left _ hmem⟩
  · intro e he b flags hmem tx hflag
    obtain ⟨e', he', hv⟩ := hvalue he
    rw [cacheTransactionHashes_drained]
    rw [← hv] at hmem
    exact (h.covered e' he' b flags (hold hmem) tx hflag).imp_right EmittedTransaction.append

/-- What leaves the blocks alone preserves the cover. -/
theorem preserves_covered (hD : DeliveredOnce blocks) (a : Action) :
    Preserves a (Covered blocks) where
  logs := fun {c t e} he h => by
    have hquiet := he.quiet
    refine h.append_of_eq ?_ ?_ rfl rfl rfl
    · intro b flags mb hmem
      rw [← List.mem_singleton.mp hmem] at hquiet
      exact hquiet
    · intro mb hmem
      rw [← List.mem_singleton.mp hmem] at hquiet
      exact hquiet trivial
  addTransaction := fun {c t tx} _ h => h.addTransaction tx
  removeDataByBlockHash := fun {c t blockHash} _ h => by
    rcases c.removeDataByBlockHash_cases blockHash with ⟨block, hb, -, hf, heq⟩ | ⟨hf, heq⟩
    · rw [heq, removeDataByBlockHashEvents, hf]
      exact h.remove hD (h.delivered block hb) rfl
    · rw [heq, removeDataByBlockHashEvents, hf]
      exact h.append_of_eq (by simp) (by simp) rfl rfl rfl
  addInstantLock := fun {c t} lock h => by
    have happ : Covered blocks (c.addInstantLock lock) (t ++ []) :=
      h.append_of_eq (by simp) (by simp) rfl rfl rfl
    rwa [List.append_nil] at happ
  sendInstantLock := fun {c t lock} _ _ h => by
    obtain ⟨transactionHashesMap, heq⟩ := c.removeTransactionHash_eq lock.txid
    rw [heq]
    refine h.append_of_eq ?_ ?_ rfl rfl rfl
    · exact fun _ _ _ => blockAdded_not_mem_deliveryEvents
    · intro mb hmem
      cases emitted_mem_deliveryEvents.mp hmem
  iteration := fun _ h => h.iteration

theorem covered_new : Covered [] .new [] := by
  refine ⟨aligned_new, ?_, ?_, ?_, ?_, ?_, always_nil _⟩
  · intro b hb
    cases hb
  · intro b flags mb hmem
    cases hmem
  · intro e he
    cases he
  · intro e he
    cases he
  · intro e he
    cases he

/-- **Every run covers its merkle blocks.** -/
theorem run_covered (hbuild : KeepsHeader env.build) (filter : F) (as : List Action)
    (hD : DeliveredOnce (deliveredBlocks as)) :
    Covered (deliveredBlocks as) (run env (start filter) as).cache
      (run env (start filter) as).trace := by
  refine Machine.run_induction (s := start filter)
    (P := fun as s => DeliveredOnce (deliveredBlocks as) →
      Covered (deliveredBlocks as) s.cache s.trace) ?_ ?_ as hD
  · exact fun _ => covered_new
  · intro as a ih hD
    have happ : deliveredBlocks (as ++ [a]) = deliveredBlocks as ++ deliveredBlocks [a] :=
      List.filterMap_append
    rw [happ] at hD ⊢
    have hDas : DeliveredOnce (deliveredBlocks as) := (List.pairwise_append.mp hD).1
    refine (preserves_covered hDas a).step ?_ (run_wired env filter as) ?_ (ih hDas)
    · exact fun h => h.mono fun b hb => List.mem_append_left _ hb
    · rintro block rfl c t h
      exact h.addBlock env hbuild hD

/-- **Transactions precede their proof.**  When each block is delivered at most once and no
transaction is in two of them, the transactions flagged in a merkle block were emitted before
it is. -/
theorem transactions_precede_proof (hbuild : KeepsHeader env.build) (filter : F)
    (as : List Action) (hD : DeliveredOnce (deliveredBlocks as)) :
    Always ProofAfterTransactions (run env (start filter) as).trace :=
  (run_covered env hbuild filter as hD).proofs

/-- Two matched transactions, their blocks, and an iteration. -/
def twoBlocksActions : List Action :=
  [.matched (bareTransaction [1]), .memPoolDataSent, .block (bareBlock [11] [[1]]),
    .matched (bareTransaction [2]), .block (bareBlock [12] [[2], [3]]), .wakeUp]

/-- Two blocks are sent, each after its transactions. -/
theorem transactions_precede_proof_twoBlocks :
    Always ProofAfterTransactions (run acceptAll (start ()) twoBlocksActions).trace ∧
      ∃ mb, .emitted (.merkleBlock mb) ∈ (run acceptAll (start ()) twoBlocksActions).trace := by
  refine ⟨transactions_precede_proof acceptAll keepsHeader_fullBuild () twoBlocksActions ?_, ?_⟩
  · simp [deliveredBlocks, twoBlocksActions, DeliveredOnce, Unrelated, bareBlock, bareTransaction,
      Block.hash, Block.transactionHashes]
  · exact ⟨⟨⟨[11]⟩, some [[1]]⟩, by decide⟩

end Dapi
