/-
# Which instant locks reach the client

A lock is decided when it is emitted or dropped: on arrival, once the mempool
data was sent, and before that in the first iteration of the loop, for which it
was stored.  Either way the decision asks whether the transaction is on the
waiting list at that moment, and it is final.

* `emittedLocks_step`: the locks that a step emits; `emittedLock_step`: it emits one for
  a transaction exactly when it decides one while the transaction waits.
* `instant_lock_emitted_iff`: the same of runs.  A lock that arrives before its
  transaction, after the mempool data was sent, is therefore lost.
-/
import Dapi.SubscriptionDelivery

namespace Dapi

open TransactionHashesCache Subscription

variable {F : Type} (env : Environment F) {s : Subscription F}

/-- `INSTANT_LOCK` was emitted for the transaction. -/
def EmittedLock (t : List TraceEvent) (h : Hash) : Prop :=
  ∃ lock : InstantLock, lock.txid = h ∧ .emitted (.instantLock lock) ∈ t

/-- A lock of the transaction is stored. -/
def StoredLock (c : TransactionHashesCache) (h : Hash) : Prop :=
  ∃ lock ∈ c.unretrievedInstantLocks.values, lock.txid = h

/-- The action decides a lock of the transaction: one that arrives once the mempool data was
sent, or one that was stored and an iteration of the loop takes up. -/
def LockDecided (s : Subscription F) (a : Action) (h : Hash) : Prop :=
  s.isClientConnected = true ∧
    match a with
    | .instantLock _ lock => s.loop ≠ .notStarted ∧ lock.txid = h
    | .memPoolDataSent => s.loop = .notStarted ∧ StoredLock s.cache h
    | .wakeUp => s.loop = .waiting ∧ StoredLock s.cache h
    | _ => False

/-! ## The locks that a step emits -/

/-- The lock of an `INSTANT_LOCK` event. -/
def TraceEvent.emittedLock : TraceEvent → Option InstantLock
  | .emitted (.instantLock lock) => some lock
  | _ => none

/-- The locks that were emitted, in their order. -/
def emittedLocks (t : List TraceEvent) : List InstantLock := t.filterMap TraceEvent.emittedLock

/-- The locks that an action emits. -/
def sentLocks (s : Subscription F) : Action → List InstantLock
  | .instantLock _ lock =>
    if s.isClientConnected = true ∧ s.loop ≠ .notStarted ∧
        s.cache.isInInstantLockCache lock.txid = true then [lock]
    else []
  | .memPoolDataSent =>
    if s.isClientConnected = true ∧ s.loop = .notStarted then s.cache.sendableInstantLocks else []
  | .wakeUp =>
    if s.isClientConnected = true ∧ s.loop = .waiting then s.cache.sendableInstantLocks else []
  | _ => []

/-- The locks of one trace, and of the next. -/
theorem emittedLocks_append (t es : List TraceEvent) :
    emittedLocks (t ++ es) = emittedLocks t ++ emittedLocks es := List.filterMap_append

/-- A lock is emitted when it is among the emitted ones. -/
theorem emittedLock_iff {t : List TraceEvent} {h : Hash} :
    EmittedLock t h ↔ ∃ lock ∈ emittedLocks t, lock.txid = h := by
  have hmem : ∀ lock, lock ∈ emittedLocks t ↔ .emitted (.instantLock lock) ∈ t := by
    intro lock
    rw [emittedLocks, List.mem_filterMap]
    constructor
    · rintro ⟨e, he, heq⟩
      unfold TraceEvent.emittedLock at heq
      split at heq
      · cases heq
        exact he
      · cases heq
    · exact fun he => ⟨_, he, rfl⟩
  unfold EmittedLock
  simp only [hmem, and_comm]

/-- A block of events that are about something else. -/
theorem emittedLocks_eq_nil {es : List TraceEvent} (h : ∀ e ∈ es, e.emittedLock = none) :
    emittedLocks es = [] :=
  List.filterMap_eq_nil_iff.mpr h

/-- The delivery of a lock emits it. -/
theorem emittedLocks_deliveryEvents (event : MediatorEvent) :
    emittedLocks (deliveryEvents event) =
      match event with
      | .instantLock lock => [lock]
      | _ => [] := by
  cases event <;> rfl

/-- Other deliveries emit no locks. -/
theorem emittedLocks_flatMap {α : Type} {f : α → MediatorEvent}
    (hf : ∀ a, emittedLocks (deliveryEvents (f a)) = []) (l : List α) :
    emittedLocks ((l.map f).flatMap deliveryEvents) = [] := by
  induction l with
  | nil => rfl
  | cons a l ih =>
      rw [List.map_cons, List.flatMap_cons, emittedLocks_append, hf, ih]
      rfl

/-- A list of locks is emitted in its order. -/
theorem emittedLocks_flatMap_instantLock (locks : List InstantLock) :
    emittedLocks ((locks.map MediatorEvent.instantLock).flatMap deliveryEvents) = locks := by
  induction locks with
  | nil => rfl
  | cons lock locks ih =>
      rw [List.map_cons, List.flatMap_cons, emittedLocks_append, ih]
      rfl

/-- An iteration emits the stored locks whose transaction waits. -/
theorem emittedLocks_iterationEvents (c : TransactionHashesCache) :
    emittedLocks c.iterationEvents = c.sendableInstantLocks := by
  have hend : emittedLocks [.iterationEnded] = [] := rfl
  rw [iterationEvents, iterationEmits, emittedLocks_append, List.flatMap_append,
    List.flatMap_append, emittedLocks_append, emittedLocks_append,
    emittedLocks_flatMap (fun tx => emittedLocks_deliveryEvents (.transaction tx)),
    emittedLocks_flatMap_instantLock,
    emittedLocks_flatMap fun merkleBlock => emittedLocks_deliveryEvents (.merkleBlock merkleBlock),
    hend, List.append_nil, List.append_nil, List.nil_append]

/-- A step that neither receives a lock nor runs an iteration emits none. -/
theorem emittedLocks_step_of_quiet (hw : Wired s) {a : Action} (hsends : ∀ lock, ¬ a.Sends lock)
    (hiter : ¬ a.Iterates) : emittedLocks (step env s a).trace = emittedLocks s.trace := by
  have hnone : ∀ {t es : List TraceEvent}, (∀ e ∈ es, e.emittedLock = none) →
      emittedLocks t = emittedLocks s.trace → emittedLocks (t ++ es) = emittedLocks s.trace := by
    intro t es hes ht
    rw [emittedLocks_append, emittedLocks_eq_nil hes, List.append_nil, ht]
  -- the two operations that emit locks are excluded by the hypotheses
  have hI : Preserves a (fun _ t => emittedLocks t = emittedLocks s.trace) := by
    constructor
    · intro c t e hlogs h
      refine hnone (fun e' he' => ?_) h
      obtain rfl : e' = e := List.mem_singleton.mp he'
      have hquiet := hlogs.quiet
      unfold TraceEvent.emittedLock
      split
      · exact absurd trivial hquiet
      · rfl
    · intro c t tx _ h
      refine hnone (fun e he => ?_) h
      rw [eq_of_mem_addTransactionEvents he]
      rfl
    · intro c t blockHash _ h
      refine hnone (fun e he => ?_) h
      obtain ⟨block, rfl⟩ := exists_of_mem_removeDataByBlockHashEvents he
      rfl
    · exact fun _ h => h
    · exact fun hs _ _ => absurd hs (hsends _)
    · exact fun hi _ => absurd hi hiter
  refine hI.step id hw (fun block _ c t h => hnone (fun e he => ?_) h) rfl
  rcases cases_of_mem_addBlockEvents he with ⟨_, _, rfl⟩ | ⟨_, rfl⟩
  · rfl
  · rfl

/-- The arrival of a lock. -/
theorem emittedLocks_step_instantLock (hw : Wired s) (tx : Transaction) (lock : InstantLock) :
    emittedLocks (step env s (.instantLock tx lock)).trace =
      emittedLocks s.trace ++ sentLocks s (.instantLock tx lock) := by
  have hstep : step env s (.instantLock tx lock) = (s.emitInstantLock env tx lock).2 := rfl
  rw [hstep, emitInstantLock_eq env hw, sentLocks]
  by_cases hc : s.isClientConnected = true
  · rw [if_pos hc]
    by_cases hl : s.loop = .notStarted
    · -- before the mempool data is sent the lock is stored at most
      have htrace : (s.preMempoolSentInstantLockListener env tx lock).2.trace =
          s.trace ++ [.tested tx (env.testFunction s.filter tx).1] := by
        rw [preMempoolSentInstantLockListener, testTransaction]
        rcases env.testFunction s.filter tx with ⟨_ | _ | _, _⟩ <;> rfl
      rw [if_pos hl, htrace, emittedLocks_append, if_neg fun hlive => hlive.2.1 hl]
      rfl
    · rw [if_neg hl]
      show emittedLocks (s.sendInstantLock lock).trace = _
      rw [sendInstantLock_eq (hw.mediator_of_connected hc)]
      by_cases hwait : s.cache.isInInstantLockCache lock.txid = true
      · rw [if_pos hwait, if_pos ⟨hc, hl, hwait⟩]
        show emittedLocks (s.trace ++ deliveryEvents (.instantLock lock)) = _
        rw [emittedLocks_append]
        rfl
      · -- the transaction does not wait, so the lock is dropped
        rw [if_neg hwait, if_neg fun hlive => hwait hlive.2.2, List.append_nil]
  · rw [if_neg hc, if_neg fun hlive => hc hlive.1, List.append_nil]

/-- The first iteration of the loop. -/
theorem emittedLocks_step_memPoolDataSent (hw : Wired s) :
    emittedLocks (step env s .memPoolDataSent).trace =
      emittedLocks s.trace ++ sentLocks s .memPoolDataSent := by
  have hlog : emittedLocks [.emitted .memPoolDataSent] = [] := rfl
  show emittedLocks (s.emit .memPoolDataSent).trace = _
  rw [emit_memPoolDataSent hw, sentLocks]
  split_ifs with hc
  · show emittedLocks (s.trace ++ ([.emitted .memPoolDataSent] ++ s.cache.iterationEvents)) = _
    rw [emittedLocks_append, emittedLocks_append, hlog, emittedLocks_iterationEvents,
      List.nil_append]
  · show emittedLocks (s.trace ++ [.emitted .memPoolDataSent]) = _
    rw [emittedLocks_append, hlog]

/-- A later iteration of the loop. -/
theorem emittedLocks_step_wakeUp (hw : Wired s) :
    emittedLocks (step env s .wakeUp).trace = emittedLocks s.trace ++ sentLocks s .wakeUp := by
  show emittedLocks (if s.loop = .waiting then s.continueLoop else s).trace = _
  rw [sentLocks]
  by_cases hl : s.loop = .waiting
  · rw [if_pos hl, continueLoop_waiting hw hl]
    by_cases hc : s.isClientConnected = true
    · rw [if_pos hc, if_pos ⟨hc, hl⟩]
      show emittedLocks (s.trace ++ s.cache.iterationEvents) = _
      rw [emittedLocks_append, emittedLocks_iterationEvents]
    · rw [if_neg hc, if_neg fun hlive => hc hlive.1, List.append_nil]
  · rw [if_neg hl, if_neg fun hlive => hl hlive.2, List.append_nil]

/-- **The locks that a step emits.** -/
theorem emittedLocks_step (hw : Wired s) (a : Action) :
    emittedLocks (step env s a).trace = emittedLocks s.trace ++ sentLocks s a := by
  have hquiet : ∀ {a : Action}, (∀ lock, ¬ a.Sends lock) → ¬ a.Iterates → sentLocks s a = [] →
      emittedLocks (step env s a).trace = emittedLocks s.trace ++ sentLocks s a := by
    intro a hsends hiter hnil
    rw [emittedLocks_step_of_quiet env hw hsends hiter, hnil, List.append_nil]
  cases a with
  | instantLock tx lock => exact emittedLocks_step_instantLock env hw tx lock
  | memPoolDataSent => exact emittedLocks_step_memPoolDataSent env hw
  | wakeUp => exact emittedLocks_step_wakeUp env hw
  | _ => exact hquiet (fun _ hs => hs) id rfl

/-- A stored lock is emitted when its transaction waits. -/
theorem exists_sendable_iff {c : TransactionHashesCache} {h : Hash} :
    (∃ lock ∈ c.sendableInstantLocks, lock.txid = h) ↔
      StoredLock c h ∧ c.isInInstantLockCache h = true := by
  constructor
  · rintro ⟨lock, hmem, rfl⟩
    obtain ⟨hstored, hwait⟩ := List.mem_filter.mp hmem
    exact ⟨⟨lock, hstored, rfl⟩, hwait⟩
  · rintro ⟨⟨lock, hstored, rfl⟩, hwait⟩
    exact ⟨lock, List.mem_filter.mpr ⟨hstored, hwait⟩, rfl⟩

/-- The locks that a step emits are those that it decides while their transaction waits. -/
theorem exists_sentLock_iff {a : Action} {h : Hash} :
    (∃ lock ∈ sentLocks s a, lock.txid = h) ↔
      LockDecided s a h ∧ s.cache.isInInstantLockCache h = true := by
  cases a with
  | instantLock tx lock =>
      rw [sentLocks, LockDecided]
      split_ifs with hlive
      · constructor
        · rintro ⟨lock', hmem, rfl⟩
          obtain rfl : lock' = lock := List.mem_singleton.mp hmem
          exact ⟨⟨hlive.1, hlive.2.1, rfl⟩, hlive.2.2⟩
        · rintro ⟨⟨-, -, rfl⟩, -⟩
          exact ⟨lock, List.mem_singleton_self lock, rfl⟩
      · refine iff_of_false (by simp) ?_
        rintro ⟨⟨hc, hl, rfl⟩, hwait⟩
        exact hlive ⟨hc, hl, hwait⟩
  | memPoolDataSent =>
      rw [sentLocks, LockDecided]
      split_ifs with hlive
      · rw [exists_sendable_iff]
        simp [hlive.1, hlive.2]
      · refine iff_of_false (by simp) ?_
        rintro ⟨⟨hc, hl, -⟩, -⟩
        exact hlive ⟨hc, hl⟩
  | wakeUp =>
      rw [sentLocks, LockDecided]
      split_ifs with hlive
      · rw [exists_sendable_iff]
        simp [hlive.1, hlive.2]
      · refine iff_of_false (by simp) ?_
        rintro ⟨⟨hc, hl, -⟩, -⟩
        exact hlive ⟨hc, hl⟩
  | _ => exact iff_of_false (by simp [sentLocks]) fun hd => hd.1.2

/-- **A step emits a lock exactly when it decides one whose transaction waits.** -/
theorem emittedLock_step (hw : Wired s) (a : Action) (h : Hash) :
    EmittedLock (step env s a).trace h ↔
      EmittedLock s.trace h ∨ (LockDecided s a h ∧ s.cache.isInInstantLockCache h = true) := by
  rw [emittedLock_iff, emittedLock_iff, emittedLocks_step env hw a, ← exists_sentLock_iff]
  simp only [List.mem_append, or_and_right, exists_or]

/-! ## Runs -/

/-- At some step of the run a lock of the transaction was decided while the transaction was on
the waiting list. -/
def DecidedWhileWaiting (filter : F) (as : List Action) (h : Hash) : Prop :=
  ∃ before a after, as = before ++ a :: after ∧
    LockDecided (run env (start filter) before) a h ∧
      (run env (start filter) before).cache.isInInstantLockCache h = true

/-- The lock is decided in the last step, or before. -/
theorem decidedWhileWaiting_snoc (filter : F) (as : List Action) (a : Action) (h : Hash) :
    DecidedWhileWaiting env filter (as ++ [a]) h ↔
      DecidedWhileWaiting env filter as h ∨
        (LockDecided (run env (start filter) as) a h ∧
          (run env (start filter) as).cache.isInInstantLockCache h = true) :=
  Trace.sometime_snoc

/-- **Which locks reach the client.**  After any run, `INSTANT_LOCK` was emitted for a transaction
if and only if one of its locks was decided while the transaction was on the waiting list. -/
theorem instant_lock_emitted_iff (filter : F) (as : List Action) (h : Hash) :
    EmittedLock (run env (start filter) as).trace h ↔ DecidedWhileWaiting env filter as h := by
  induction as using List.reverseRecOn with
  | nil =>
      constructor
      · rintro ⟨lock, -, hmem⟩
        cases hmem
      · intro hdec
        exact (Trace.not_sometime_nil _ hdec).elim
  | append_singleton as a ih =>
      rw [decidedWhileWaiting_snoc, ← ih, run_snoc]
      exact emittedLock_step env (run_wired env filter as) a h

/-- A lock arrives after the mempool data was sent, then its transaction, then the loop goes on. -/
def lockFirstActions : List Action :=
  [.memPoolDataSent, .instantLock (bareTransaction [1]) ⟨[1], [7]⟩, .test (bareTransaction [1]),
    .wakeUp]

/-- The trace of the run in which the lock comes first. -/
theorem lockFirst_trace : (run acceptAll (start ()) lockFirstActions).trace =
    [.emitted .memPoolDataSent, .iterationEnded, .tested (bareTransaction [1]) (.ok true),
      .transactionAdded (bareTransaction [1]), .emitted (.transaction (bareTransaction [1])),
      .sentLive (.rawTransactions [bareTransaction [1]]), .iterationEnded] := by
  decide

/-- The transaction is emitted, its lock is not. -/
theorem not_instant_lock_emitted_lockFirst :
    .emitted (.transaction (bareTransaction [1])) ∈
        (run acceptAll (start ()) lockFirstActions).trace ∧
      ¬ EmittedLock (run acceptAll (start ()) lockFirstActions).trace [1] := by
  rw [lockFirst_trace]
  constructor
  · simp
  · simp [EmittedLock]

/-! ## When the transaction comes first -/

/-- How many blocks an action adds. -/
def blockCount : Action → ℕ
  | .block _ => 1
  | _ => 0

/-- The transaction is on the waiting list since block `v`, at most `n` blocks ago. -/
def WaitsSince (v n : ℕ) (h : Hash) (c : TransactionHashesCache) : Prop :=
  c.transactionHashesMap.get? h = some v ∧ c.blocksProcessed ≤ v + n

/-- What waits is on the waiting list. -/
theorem WaitsSince.isInInstantLockCache {v n : ℕ} {h : Hash} {c : TransactionHashesCache}
    (hw : WaitsSince v n h c) : c.isInInstantLockCache h = true :=
  isInInstantLockCache_iff.mpr ⟨v, hw.1⟩

theorem WaitsSince.congr {v n : ℕ} {h : Hash} {c c' : TransactionHashesCache}
    (hw : WaitsSince v n h c) (hm : c'.transactionHashesMap = c.transactionHashesMap)
    (hb : c'.blocksProcessed = c.blocksProcessed) : WaitsSince v n h c' := by
  rw [WaitsSince, hm, hb]
  exact hw

/-- A block ages the entry; the entry stays through the tenth one. -/
theorem WaitsSince.addBlock {v n : ℕ} {h : Hash} {c : TransactionHashesCache}
    (hw : WaitsSince v n h c) (hn : n + 1 ≤ BLOCKS_TO_STAY_IN_INSTANT_LOCK_CACHE)
    (build : MerkleBlockBuild) (block : Block) :
    WaitsSince v (n + 1) h (c.addBlock build block) := by
  obtain ⟨hget, hle⟩ := hw
  constructor
  · -- the entry is dropped by a block that is more than ten blocks later
    have hage : c.blocksProcessed + 1 ≤ v + BLOCKS_TO_STAY_IN_INSTANT_LOCK_CACHE := by omega
    rw [addBlock_transactionHashesMap, processBlock_waiting, hget]
    simp [Option.filter, hage]
  · rw [addBlock_blocksProcessed]
    omega

/-- A waiting transaction stays on the list through ten blocks, unless a lock for it is sent. -/
theorem WaitsSince.step (hw : Wired s) {a : Action} {h : Hash}
    (hsends : ∀ lock, a.Sends lock → lock.txid ≠ h) {v n : ℕ}
    (hn : n + blockCount a ≤ BLOCKS_TO_STAY_IN_INSTANT_LOCK_CACHE)
    (hwait : WaitsSince v n h s.cache) :
    WaitsSince v (n + blockCount a) h (Subscription.step env s a).cache := by
  -- all but a block leave the age of the entry
  have hI : Preserves a (fun c _ => WaitsSince v n h c) := by
    refine ⟨fun _ h => h, ?_, ?_, fun _ h => h.congr rfl rfl, ?_, fun _ h => h.congr rfl rfl⟩
    · rintro c t tx - hc
      refine ⟨?_, hc.2⟩
      rw [addTransaction_waiting, if_neg, hc.1]
      rintro ⟨-, hfalse⟩
      rw [hc.isInInstantLockCache] at hfalse
      cases hfalse
    · rintro c t blockHash - hc
      have hprunes := c.removeDataByBlockHash_prunes blockHash
      exact hc.congr hprunes.transactionHashesMap hprunes.blocksProcessed
    · intro c t lock hlock hin hc
      have hget : (c.removeTransactionHashFromInstantSendLockWaitingList
          lock.txid).transactionHashesMap.get? h = some v := by
        rw [removeTransactionHash_waiting, if_neg (hsends lock hlock).symm, hc.1]
      refine ⟨hget, ?_⟩
      rw [removeTransactionHashFromInstantSendLockWaitingList, if_pos hin]
      exact hc.2
  refine hI.step (J := fun c _ => WaitsSince v (n + blockCount a) h c) ?_ hw ?_ hwait
  · exact fun hc => ⟨hc.1, by have := hc.2; omega⟩
  · rintro block rfl c t hc
    exact hc.addBlock hn env.build block

/-- **A transaction that waits is still waiting ten blocks later**, when no lock for it was sent. -/
theorem waiting_run (hw : Wired s) {h : Hash} (as : List Action)
    (hsends : ∀ a ∈ as, ∀ lock, a.Sends lock → lock.txid ≠ h) {v n : ℕ}
    (hn : n + (as.map blockCount).sum ≤ BLOCKS_TO_STAY_IN_INSTANT_LOCK_CACHE)
    (hwait : WaitsSince v n h s.cache) :
    (run env s as).cache.isInInstantLockCache h = true := by
  induction as generalizing s n with
  | nil => exact hwait.isInInstantLockCache
  | cons a as ih =>
      rw [List.map_cons, List.sum_cons] at hn
      have hstep := hwait.step env hw (hsends a List.mem_cons_self) (by omega)
      exact ih (hw.step env a) (fun a' ha' => hsends a' (List.mem_cons_of_mem a ha'))
        (by omega) hstep

/-- **A lock that follows its transaction within ten blocks is emitted**, the first one that is
decided after a match that put the transaction on the waiting list. -/
theorem lock_emitted_of_match_first (filter : F) (before between : List Action) (tx : Transaction)
    (a : Action) (hc : (run env (start filter) before).isClientConnected = true)
    (hfresh : (run env (start filter) before).cache.isInInstantLockCache tx.hash = false)
    (hsends : ∀ a ∈ between, ∀ lock, a.Sends lock → lock.txid ≠ tx.hash)
    (hblocks : (between.map blockCount).sum ≤ BLOCKS_TO_STAY_IN_INSTANT_LOCK_CACHE)
    (hdec : LockDecided (run env (start filter) (before ++ .matched tx :: between)) a tx.hash) :
    EmittedLock (run env (start filter) (before ++ .matched tx :: between ++ [a])).trace
      tx.hash := by
  have hw := run_wired env filter before
  have hrun : run env (start filter) (before ++ .matched tx :: between) =
      run env (step env (run env (start filter) before) (.matched tx)) between :=
    run_append env _ _ _
  -- the match puts the transaction on the list, with the number of the current block
  have hadd : WaitsSince (run env (start filter) before).cache.blocksProcessed 0 tx.hash
      (step env (run env (start filter) before) (.matched tx)).cache := by
    have hstep : step env (run env (start filter) before) (.matched tx) =
        (run env (start filter) before).storeTransaction tx :=
      (emitMatched_eq hw tx).trans (if_pos hc)
    rw [hstep]
    refine ⟨?_, Nat.le_refl _⟩
    show ((run env (start filter) before).cache.addTransaction tx).2.transactionHashesMap.get?
      tx.hash = _
    rw [addTransaction_waiting, if_pos ⟨rfl, hfresh⟩]
  have hwaiting := waiting_run env (hw.step env (.matched tx)) between hsends (by omega) hadd
  have hstep := emittedLock_step env (run_wired env filter (before ++ .matched tx :: between)) a
    tx.hash
  rw [run_snoc, hstep]
  refine Or.inr ⟨hdec, ?_⟩
  rw [hrun]
  exact hwaiting

end Dapi
