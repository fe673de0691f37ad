/-
# How often a lock reaches the client

A subscription emits a lock of a transaction when the transaction is on the waiting list.
The listener for locks takes the transaction off the list first; the loop, which sends the
locks that were stored before it started, leaves it there.

* `keyedStore_run`, `storeIdle_run`: at most one lock of a transaction is stored, and none
  once the loop was started.
* `TakenUp` and `Answered`: the two kinds of steps that emit a lock of the transaction.
* `lockCount_le_one_iff`: a second lock is emitted exactly when one arrives while its
  transaction is on the list still, or again; `Repeated.cases`: it matched once more then.
-/
import Dapi.InstantLocks

namespace Dapi

open TransactionHashesCache Subscription

variable {F : Type} (env : Environment F) {s : Subscription F}

/-! ## The stored locks -/

/-- Every stored lock is at the key of its transaction. -/
def KeyedStore (c : TransactionHashesCache) : Prop :=
  ∀ e ∈ c.unretrievedInstantLocks.entries, e.2.txid = e.1

/-- A lock is stored under its own identifier. -/
theorem KeyedStore.addInstantLock {c : TransactionHashesCache} (h : KeyedStore c)
    (lock : InstantLock) : KeyedStore (c.addInstantLock lock) := by
  intro e he
  have hmem : e ∈ OrderedMap.setEntries c.unretrievedInstantLocks.entries lock.txid lock := he
  -- the lock replaces the one at its key, or is pushed behind
  unfold OrderedMap.setEntries at hmem
  split_ifs at hmem
  · obtain ⟨e', he', rfl⟩ := List.mem_map.mp hmem
    split_ifs
    · rfl
    · exact h e' he'
  · rcases List.mem_append.mp hmem with hmem | hmem
    · exact h e hmem
    · rw [List.mem_singleton.mp hmem]

theorem KeyedStore.of_eq {c c' : TransactionHashesCache} (h : KeyedStore c)
    (heq : c'.unretrievedInstantLocks = c.unretrievedInstantLocks) : KeyedStore c' := by
  rw [KeyedStore, heq]
  exact h

/-- An iteration emits at most one lock of a transaction. -/
theorem KeyedStore.countP_sendable_le_one {c : TransactionHashesCache} (h : KeyedStore c)
    (hash : Hash) :
    c.sendableInstantLocks.countP (fun lock => decide (lock.txid = hash)) ≤ 1 := by
  have hkeys : ∀ e ∈ c.unretrievedInstantLocks.entries,
      (decide (e.2.txid = hash) = true ↔ (e.1 == hash) = true) := by
    intro e he
    rw [h e he]
    simp
  calc c.sendableInstantLocks.countP (fun lock => decide (lock.txid = hash))
      ≤ c.unretrievedInstantLocks.values.countP (fun lock => decide (lock.txid = hash)) :=
        List.filter_sublist.countP_le
    _ = c.unretrievedInstantLocks.entries.countP (fun e => e.1 == hash) := by
        rw [OrderedMap.values, List.countP_map]
        exact List.countP_congr hkeys
    _ = (c.unretrievedInstantLocks.entries.map Prod.fst).count hash := by
        rw [List.count, List.countP_map]
        rfl
    _ ≤ 1 := List.nodup_iff_count_le_one.mp c.unretrievedInstantLocks.nodup hash

/-- The waiting list is apart from the stored locks. -/
theorem removeTransactionHash_unretrievedInstantLocks (c : TransactionHashesCache) (hash : Hash) :
    (c.removeTransactionHashFromInstantSendLockWaitingList hash).unretrievedInstantLocks =
      c.unretrievedInstantLocks := by
  rw [removeTransactionHashFromInstantSendLockWaitingList]
  split_ifs
  · rfl
  · rfl

theorem addTransaction_unretrievedInstantLocks (c : TransactionHashesCache) (tx : Transaction) :
    (c.addTransaction tx).2.unretrievedInstantLocks = c.unretrievedInstantLocks := rfl

/-- Every operation of the cache keeps the keys right. -/
theorem KeyedStore.apply {build : MerkleBlockBuild} {c : TransactionHashesCache}
    (h : KeyedStore c) (op : CacheOp) : KeyedStore (c.apply build op) := by
  cases op with
  | addTransaction tx => exact h.of_eq (addTransaction_unretrievedInstantLocks c tx)
  | addBlock block => exact h.of_eq (c.addBlock_unretrievedInstantLocks build block)
  | removeTransactionHashFromInstantSendLockWaitingList hash =>
      exact h.of_eq (removeTransactionHash_unretrievedInstantLocks c hash)
  | removeDataByBlockHash blockHash =>
      exact h.of_eq (c.removeDataByBlockHash_prunes blockHash).unretrievedInstantLocks
  | getUnretrievedTransactions => exact h
  | getUnretrievedMerkleBlocks => exact h
  | addInstantLock lock => exact h.addInstantLock lock
  | getUnretrievedInstantLocks => exact fun e he => absurd he List.not_mem_nil

/-- **Every stored lock has the identifier of its key**, in every run. -/
theorem keyedStore_run (filter : F) (as : List Action) :
    KeyedStore (run env (start filter) as).cache := by
  obtain ⟨ops, hops⟩ := cache_reached env filter as
  have hnew : KeyedStore .new := fun _ he => absurd he List.not_mem_nil
  rw [hops]
  exact Machine.run_invariant (fun _ op h => h.apply op) hnew ops

/-! ## The store, once the loop runs -/

/-- No lock is stored once the loop was started. -/
def StoreIdle (s : Subscription F) : Prop :=
  s.loop ≠ .notStarted → s.cache.unretrievedInstantLocks = .empty

theorem StoreIdle.of_eq {s' : Subscription F} (h : StoreIdle s) (hl : s'.loop = s.loop)
    (hstore : s'.cache.unretrievedInstantLocks = s.cache.unretrievedInstantLocks) :
    StoreIdle s' := by
  rw [StoreIdle, hl, hstore]
  exact h

/-- Every part of a step keeps the store idle. -/
theorem StoreIdle.keeps (a : Action) : Keeps env a StoreIdle := by
  intro s₁ s₂ _ h hchange
  cases hchange with
  | logged => exact h
  | tested => exact h
  | stored tx => exact h.of_eq rfl (addTransaction_unretrievedInstantLocks s₁.cache tx)
  | blockRemoved blockHash =>
      exact h.of_eq rfl (s₁.cache.removeDataByBlockHash_prunes blockHash).unretrievedInstantLocks
  | lockStored _ _ _ hl => exact fun hstarted => absurd hl hstarted
  | lockSent lock =>
      exact h.of_eq rfl (removeTransactionHash_unretrievedInstantLocks s₁.cache lock.txid)
  | loopStarted => exact fun _ => rfl
  | iterated => exact fun _ => rfl
  | loopEnded _ _ hl => exact fun _ => h fun hnot => by rw [hl] at hnot; cases hnot
  | disconnected => exact h

/-- Every step keeps the store idle. -/
theorem StoreIdle.step (hw : Wired s) (h : StoreIdle s) (a : Action) :
    StoreIdle (step env s a) := by
  refine (StoreIdle.keeps env a).step id hw (fun block _ s₁ _ h₁ => ?_) h
  exact h₁.of_eq rfl (s₁.cache.addBlock_unretrievedInstantLocks env.build block)

/-- **Nothing is stored once the loop has started**, in every run. -/
theorem storeIdle_run (filter : F) (as : List Action) : StoreIdle (run env (start filter) as) := by
  refine (Machine.run_invariant (I := fun s : Subscription F => Wired s ∧ StoreIdle s) ?_ ?_ as).2
  · rintro s a ⟨hw, h⟩
    exact ⟨hw.step env a, h.step env hw a⟩
  · exact ⟨wired_start filter, fun hl => absurd rfl hl⟩

/-- The loop, once started, stays so. -/
theorem loop_step_ne (hw : Wired s) (hl : s.loop ≠ .notStarted) (a : Action) :
    (step env s a).loop ≠ .notStarted := by
  have hkeeps : Keeps env a fun s₁ => s₁.loop ≠ .notStarted := by
    intro s₁ s₂ _ h hchange
    cases hchange with
    | loopStarted => exact fun hnot => by cases hnot
    | loopEnded => exact fun hnot => by cases hnot
    | _ => exact h
  exact hkeeps.step id hw (fun _ _ _ _ h => h) hl

/-! ## The steps that emit a lock -/

/-- The loop starts with a stored lock of the transaction, and the transaction is on the waiting
list; it stays there. -/
def TakenUp (s : Subscription F) (a : Action) (h : Hash) : Prop :=
  s.isClientConnected = true ∧ s.cache.isInInstantLockCache h = true ∧
    match a with
    | .memPoolDataSent => s.loop = .notStarted ∧ StoredLock s.cache h
    | _ => False

/-- A lock of the transaction arrives after the loop was started, and the transaction is on the
waiting list; it is taken off. -/
def Answered (s : Subscription F) (a : Action) (h : Hash) : Prop :=
  s.isClientConnected = true ∧ s.cache.isInInstantLockCache h = true ∧
    match a with
    | .instantLock _ lock => s.loop ≠ .notStarted ∧ lock.txid = h
    | _ => False

/-- The locks of the transaction that an action emits. -/
theorem exists_sentLock_iff_of_idle (hidle : StoreIdle s) {a : Action} {h : Hash} :
    (∃ lock ∈ sentLocks s a, decide (lock.txid = h) = true) ↔ TakenUp s a h ∨ Answered s a h := by
  have hsent := exists_sentLock_iff (s := s) (a := a) (h := h)
  simp only [decide_eq_true_eq]
  rw [hsent]
  cases a with
  | instantLock tx lock => simp [LockDecided, TakenUp, Answered, and_comm, and_assoc]
  | memPoolDataSent => simp [LockDecided, TakenUp, Answered, and_comm, and_assoc]
  | wakeUp =>
      refine iff_of_false ?_ (by simp [TakenUp, Answered])
      rintro ⟨⟨-, hl, lock, hmem, -⟩, -⟩
      -- an iteration after the first one finds nothing stored
      rw [hidle (by rw [hl]; decide)] at hmem
      cases hmem
  | _ => simp [LockDecided, TakenUp, Answered]

/-- An action emits at most one lock of a transaction. -/
theorem countP_sentLocks_le_one (hkeyed : KeyedStore s.cache) (a : Action) (h : Hash) :
    (sentLocks s a).countP (fun lock => decide (lock.txid = h)) ≤ 1 := by
  have hstored := hkeyed.countP_sendable_le_one h
  cases a with
  | instantLock tx lock =>
      rw [sentLocks]
      split_ifs
      · exact List.countP_le_length
      · exact Nat.zero_le 1
  | memPoolDataSent =>
      rw [sentLocks]
      split_ifs
      · exact hstored
      · exact Nat.zero_le 1
  | wakeUp =>
      rw [sentLocks]
      split_ifs
      · exact hstored
      · exact Nat.zero_le 1
  | _ => exact Nat.zero_le 1

/-- After it the loop is started. -/
theorem started_of_sent (hw : Wired s) {a : Action} {h : Hash}
    (hsent : TakenUp s a h ∨ Answered s a h) : (step env s a).loop ≠ .notStarted := by
  rcases hsent with ⟨hc, -, htaken⟩ | ⟨-, -, hanswered⟩
  · cases a with
    | memPoolDataSent =>
        show (s.emit .memPoolDataSent).loop ≠ .notStarted
        rw [emit_memPoolDataSent hw, if_pos ⟨hc, htaken.1⟩]
        exact fun hl => by cases hl
    | _ => exact htaken.elim
  · cases a with
    | instantLock tx lock => exact loop_step_ne env hw hanswered.1 _
    | _ => exact hanswered.elim

/-! ## Runs -/

/-- How many locks of the transaction were emitted. -/
def lockCount (t : List TraceEvent) (h : Hash) : ℕ :=
  (emittedLocks t).countP fun lock => decide (lock.txid = h)

/-- At some step of the run a lock of the transaction arrives while the transaction is on the
waiting list, and before that the loop started with a stored lock while it was on the list, or
another lock arrived while it was. -/
def Repeated (filter : F) (as : List Action) (h : Hash) : Prop :=
  Trace.Sometime (fun before a => Answered (run env (start filter) before) a h ∧
    Trace.Sometime (fun before' a' => TakenUp (run env (start filter) before') a' h ∨
      Answered (run env (start filter) before') a' h) before) as

/-- The listener takes the transaction off the list. -/
theorem Answered.not_waiting (hw : Wired s) {a : Action} {h : Hash} (ha : Answered s a h) :
    (step env s a).cache.transactionHashesMap.get? h = none := by
  obtain ⟨hc, hwait, ha⟩ := ha
  cases a with
  | instantLock tx lock =>
      obtain ⟨hl, rfl⟩ := ha
      have hgone := s.cache.removeTransactionHash_waiting lock.txid lock.txid
      rw [if_pos rfl] at hgone
      show (s.emitInstantLock env tx lock).2.cache.transactionHashesMap.get? lock.txid = none
      rw [emitInstantLock_eq env hw, if_pos hc, if_neg hl]
      show (s.sendInstantLock lock).cache.transactionHashesMap.get? lock.txid = none
      rw [sendInstantLock_eq (hw.mediator_of_connected hc), if_pos hwait]
      exact hgone
  | _ => exact ha.elim

/-- Only a match puts a transaction on the list. -/
theorem not_waiting_step (hw : Wired s) {a : Action} {h : Hash}
    (hadds : ∀ tx, a.Adds tx → tx.hash ≠ h) (hnot : s.cache.transactionHashesMap.get? h = none) :
    (step env s a).cache.transactionHashesMap.get? h = none := by
  have hI : Preserves a (fun c _ => c.transactionHashesMap.get? h = none) := by
    refine ⟨fun _ hc => hc, ?_, ?_, fun _ hc => hc, ?_, fun _ hc => hc⟩
    · intro c t tx htx hc
      rw [addTransaction_waiting, if_neg fun hmatch => hadds tx htx hmatch.1.symm]
      exact hc
    · intro c t blockHash _ hc
      rw [(c.removeDataByBlockHash_prunes blockHash).transactionHashesMap]
      exact hc
    · intro c t lock _ _ hc
      rw [removeTransactionHash_waiting, hc, ite_self]
  refine hI.step id hw (fun block _ c t hc => ?_) hnot
  rw [addBlock_transactionHashesMap, processBlock_waiting, hc]
  rfl

/-- A transaction that is on the list again was put back by a match. -/
theorem exists_adds_of_waiting (hw : Wired s) {h : Hash} (as : List Action)
    (hnot : s.cache.transactionHashesMap.get? h = none)
    (hwait : (run env s as).cache.isInInstantLockCache h = true) :
    ∃ a ∈ as, ∃ tx, a.Adds tx ∧ tx.hash = h := by
  induction as generalizing s with
  | nil =>
      obtain ⟨v, hget⟩ : ∃ v, s.cache.transactionHashesMap.get? h = some v :=
        isInInstantLockCache_iff.mp hwait
      rw [hnot] at hget
      cases hget
  | cons a as ih =>
      by_cases hadds : ∃ tx, a.Adds tx ∧ tx.hash = h
      · exact ⟨a, List.mem_cons_self, hadds⟩
      · push Not at hadds
        obtain ⟨a', ha', hadds'⟩ := ih (hw.step env a) (not_waiting_step env hw hadds hnot) hwait
        exact ⟨a', List.mem_cons_of_mem a ha', hadds'⟩

/-- **How a transaction comes to have two locks.**  The loop left it on the list, or it matched
once more after a lock took it off. -/
theorem Repeated.cases {filter : F} {as : List Action} {h : Hash}
    (hrep : Repeated env filter as h) :
    Trace.Sometime (fun before a => TakenUp (run env (start filter) before) a h) as ∨
      ∃ before a between after, as = before ++ a :: (between ++ after) ∧
        Answered (run env (start filter) before) a h ∧
          ∃ b ∈ between, ∃ tx, b.Adds tx ∧ tx.hash = h := by
  obtain ⟨upTo, a', after, rfl, hnow, before, a, between, rfl, htaken | hanswered⟩ := hrep
  · exact Or.inl ⟨before, a, between ++ a' :: after, by simp, htaken⟩
  · refine Or.inr ⟨before, a, between, a' :: after, by simp, hanswered, ?_⟩
    have hw := run_wired env filter before
    -- the first lock took the transaction off, and it is on the list again
    refine exists_adds_of_waiting env (hw.step env a) between (hanswered.not_waiting env hw) ?_
    have hrun : run env (start filter) (before ++ a :: between) =
        run env (step env (run env (start filter) before) a) between := run_append env _ _ _
    rw [← hrun]
    exact hnow.2.1

/-- The locks that a run emits are those that its steps emit. -/
theorem emittedLocks_run (filter : F) (as : List Action) :
    emittedLocks (run env (start filter) as).trace =
      Machine.outputs (step env) sentLocks (start filter) as := by
  induction as using List.reverseRecOn with
  | nil => rfl
  | append_singleton as a ih =>
      rw [run_snoc, emittedLocks_step env (run_wired env filter as) a, ih, Machine.outputs_snoc]

/-- Once a lock of the transaction was emitted, the loop is started. -/
theorem started_run (filter : F) (as : List Action) (h : Hash)
    (hsent : Trace.Sometime (fun before a => TakenUp (run env (start filter) before) a h ∨
      Answered (run env (start filter) before) a h) as) :
    (run env (start filter) as).loop ≠ .notStarted := by
  induction as using List.reverseRecOn with
  | nil => exact absurd hsent (Trace.not_sometime_nil _)
  | append_singleton as a ih =>
      have hw := run_wired env filter as
      rw [run_snoc]
      rcases Trace.sometime_snoc.mp hsent with hsent | hsent
      · exact loop_step_ne env hw (ih hsent) a
      · exact started_of_sent env hw hsent

/-- **How often a lock is emitted.**  In every run at most one lock of a transaction is emitted if
and only if none arrives while the transaction waits, after the loop started with one or another
one arrived while it did. -/
theorem lockCount_le_one_iff (filter : F) (as : List Action) (h : Hash) :
    lockCount (run env (start filter) as).trace h ≤ 1 ↔ ¬ Repeated env filter as h := by
  have hone : ∀ before a, (sentLocks (run env (start filter) before) a).countP
      (fun lock => decide (lock.txid = h)) ≤ 1 :=
    fun before a => countP_sentLocks_le_one (keyedStore_run env filter before) a h
  have hsent : ∀ before a,
      (∃ lock ∈ sentLocks (run env (start filter) before) a, decide (lock.txid = h) = true) ↔
        TakenUp (run env (start filter) before) a h ∨
          Answered (run env (start filter) before) a h :=
    fun before a => exists_sentLock_iff_of_idle (storeIdle_run env filter before)
  rw [lockCount, emittedLocks_run, Trace.countP_outputs_le_one_iff hone]
  simp only [hsent]
  refine not_congr ⟨?_, ?_⟩
  · rintro ⟨before, a, after, rfl, hnow, hearlier⟩
    refine ⟨before, a, after, rfl, hnow.resolve_left fun htaken => ?_, hearlier⟩
    -- the loop was started before, so it does not start now
    have hstarted := started_run env filter before h hearlier
    cases a with
    | memPoolDataSent => exact hstarted htaken.2.2.1
    | _ => exact htaken.2.2
  · rintro ⟨before, a, after, rfl, hnow, hearlier⟩
    exact ⟨before, a, after, rfl, Or.inr hnow, hearlier⟩

/-- A transaction matches, and its lock arrives before and after the loop starts. -/
def lockStoredThenSent : List Action :=
  [.test (bareTransaction [1]), .instantLock (bareTransaction [1]) ⟨[1], [7]⟩, .memPoolDataSent,
    .instantLock (bareTransaction [1]) ⟨[1], [7]⟩]

/-- A transaction and its lock arrive twice while the loop runs. -/
def lockSentTwice : List Action :=
  [.memPoolDataSent, .test (bareTransaction [1]), .instantLock (bareTransaction [1]) ⟨[1], [7]⟩,
    .test (bareTransaction [1]), .instantLock (bareTransaction [1]) ⟨[1], [7]⟩]

/-- A lock is sent twice when it was stored and comes again, and when its transaction comes again.
-/
theorem not_lockCount_le_one :
    ¬ lockCount (run acceptAll (start ()) lockStoredThenSent).trace [1] ≤ 1 ∧
      ¬ lockCount (run acceptAll (start ()) lockSentTwice).trace [1] ≤ 1 := by
  decide

end Dapi
