/-
# The filter between history and live data

The history is scanned by Core, on a serialized snapshot of the filter; live
transactions are tested in the process, on the filter object itself.  The
outpoints that BIP37 adds to a filter on a match are added by the test in the
process only, so that the filter of a subscription knows nothing of the outputs
that were delivered from the history.

* `Inserts` says what a test adds to the filter, `filterAfter` is the filter after the
  tests of a list of transactions.
* `Carried`: the filter of the client contains an element, or one of the tests inserted it.
* `run_filter`: the filter of a subscription is the filter of the client after the tests
  that its log shows.
* `spends_caught_iff`: the spends of the outputs in the history are caught exactly when
  their outpoints are carried.
-/
import Dapi.HandlerStages
import Dapi.SubscriptionDelivery

namespace Dapi

open BloomFilter Trace

/-! ## What a test adds to the filter -/

section Filter

variable {F : Type} [BloomFilter F]

/-- Whether the search among the outputs ends here, with a match or with an exception. -/
def endsSearch (filter : F) (o : Output × ℕ) : Bool :=
  o.1.script.isNone || filterContainsScript filter o.1.script

/-- The output at which the search ends. -/
def lastVisited (filter : F) (tx : Transaction) : Option (Output × ℕ) :=
  tx.indexedOutputs.find? (endsSearch filter)

/-- The filter is updated at the output that ends the search. -/
theorem findOutput_snd (filter : F) (hash : Hash) (os : List (Output × ℕ)) :
    (findOutput filter hash os).2 =
      (os.find? (endsSearch filter)).elim filter (updateOnMatch filter hash) := by
  induction os with
  | nil => rfl
  | cons o os ih =>
      obtain ⟨⟨script⟩, index⟩ := o
      rw [findOutput, List.find?_cons]
      cases script with
      -- the exception leaves the filter as it is
      | none => rfl
      | some script =>
          by_cases hm : filterContainsScript filter (some script) = true
          · have hends : endsSearch filter (⟨some script⟩, index) = true := hm
            simp only [hends, if_pos hm, Option.elim_some, updateOnMatch]
            by_cases hf : outputFollowed filter ⟨some script⟩ = true
            · rw [if_pos hf, if_pos (show isFilterUpdateNeeded filter script = true from hf)]
            · rw [if_neg hf, if_neg (show ¬ isFilterUpdateNeeded filter script = true from hf)]
          · have hends : endsSearch filter (⟨some script⟩, index) = false := by
              simpa [endsSearch] using hm
            simp only [hends, if_neg hm]
            exact ih

/-- **What a test does to the filter**, also when it raises. -/
theorem testTransactionAgainstFilter_snd (filter : F) (tx : Transaction) :
    (testTransactionAgainstFilter filter tx).2 =
      if contains filter tx.hash then filter
      else (lastVisited filter tx).elim filter (updateOnMatch filter tx.hash) := by
  have houtputs : (checkOutputs filter tx).2 =
      (lastVisited filter tx).elim filter (updateOnMatch filter tx.hash) := by
    rw [checkOutputs, lastVisited, Transaction.indexedOutputs]
    cases tx.outputs with
    | none => rfl
    | some outputs => exact findOutput_snd filter tx.hash outputs.zipIdx
  rw [testTransactionAgainstFilter, checkHash]
  split_ifs
  · rfl
  · rw [← houtputs]
    rcases checkOutputs filter tx with ⟨_ | b, filter'⟩
    · rfl
    · cases b <;> rfl

/-- A filter with neither of the two flags stays as it is, also when the test raises. -/
theorem testTransactionAgainstFilter_snd_of_flags {filter : F}
    (hall : nFlags filter ≠ BLOOM_UPDATE_ALL) (hkey : nFlags filter ≠ BLOOM_UPDATE_P2PUBKEY_ONLY)
    (tx : Transaction) : (testTransactionAgainstFilter filter tx).2 = filter := by
  have hkept : ∀ o, updateOnMatch filter tx.hash o = filter := by
    rintro ⟨⟨_ | script⟩, index⟩
    · rfl
    · simp [updateOnMatch, outputFollowed, isFilterUpdateNeeded, hall, hkey]
  rw [testTransactionAgainstFilter_snd]
  split_ifs
  · rfl
  · cases lastVisited filter tx with
    | none => rfl
    | some o => exact hkept o

/-- The test of `tx` makes the filter contain `d`: it inserts the outpoint of the output at which
the search ends. -/
def Inserts (filter : F) (tx : Transaction) (d : Buffer) : Prop :=
  contains filter tx.hash = false ∧ ∃ o, lastVisited filter tx = some o ∧
    outputFollowed filter o.1 = true ∧
    contains (insert filter (inputIndexToBuffer tx.hash (UInt32.ofNat o.2))) d = true

/-- What the filter contains after a test. -/
theorem contains_test_iff [LawfulBloomFilter F] (filter : F) (tx : Transaction) (d : Buffer) :
    contains (testTransactionAgainstFilter filter tx).2 d = true ↔
      contains filter d = true ∨ Inserts filter tx d := by
  rw [testTransactionAgainstFilter_snd, Inserts]
  by_cases hh : contains filter tx.hash = true
  · simp [hh]
  · rw [if_neg hh]
    cases hlast : lastVisited filter tx with
    | none => simp
    | some o =>
        simp only [Option.elim_some, updateOnMatch, hh, Option.some.injEq, exists_eq_left']
        by_cases hf : outputFollowed filter o.1 = true
        · rw [if_pos hf]
          have hmono := LawfulBloomFilter.contains_insert_of_contains filter
            (inputIndexToBuffer tx.hash (UInt32.ofNat o.2)) d
          simp only [hf, true_and]
          tauto
        · rw [if_neg hf]
          simp [hf]

/-- The filter after the tests of a list of transactions. -/
def filterAfter (filter : F) (txs : List Transaction) : F :=
  txs.foldl (fun filter tx => (testTransactionAgainstFilter filter tx).2) filter

/-- The last transaction meets the filter that the others have left. -/
theorem filterAfter_snoc (filter : F) (txs : List Transaction) (tx : Transaction) :
    filterAfter filter (txs ++ [tx]) =
      (testTransactionAgainstFilter (filterAfter filter txs) tx).2 := by
  rw [filterAfter, List.foldl_append]
  rfl

/-- A filter without update flags stays as it is. -/
theorem filterAfter_of_flags {filter : F} (hall : nFlags filter ≠ BLOOM_UPDATE_ALL)
    (hkey : nFlags filter ≠ BLOOM_UPDATE_P2PUBKEY_ONLY) (txs : List Transaction) :
    filterAfter filter txs = filter := by
  induction txs using List.reverseRecOn with
  | nil => rfl
  | append_singleton txs tx ih =>
      rw [filterAfter_snoc, ih, testTransactionAgainstFilter_snd_of_flags hall hkey]

/-- The filter of the client contains `d`, or one of the tests inserted it. -/
def Carried (filter : F) (tested : List Transaction) (d : Buffer) : Prop :=
  contains filter d = true ∨
    Sometime (fun before tx => Inserts (filterAfter filter before) tx d) tested

/-- **What the filter contains after a list of tests.** -/
theorem contains_filterAfter_iff [LawfulBloomFilter F] (filter : F) (tested : List Transaction)
    (d : Buffer) :
    contains (filterAfter filter tested) d = true ↔ Carried filter tested d := by
  -- the last test adds to what the ones before it left
  induction tested using List.reverseRecOn with
  | nil => exact ⟨Or.inl, fun h => h.resolve_right (not_sometime_nil _)⟩
  | append_singleton tested tx ih =>
      rw [filterAfter_snoc, contains_test_iff, ih, Carried, Carried, sometime_snoc, or_assoc]

end Filter

/-! ## The filter of a subscription -/

/-- The transaction of a test. -/
def TraceEvent.testedTransaction : TraceEvent → Option Transaction
  | .tested tx _ => some tx
  | _ => none

/-- The transactions whose tests a log shows. -/
def testedTransactions (t : List TraceEvent) : List Transaction :=
  t.filterMap TraceEvent.testedTransaction

/-- Events that are no tests add none. -/
theorem testedTransactions_append {t es : List TraceEvent}
    (h : ∀ e ∈ es, e.testedTransaction = none) :
    testedTransactions (t ++ es) = testedTransactions t := by
  rw [testedTransactions, List.filterMap_append, List.filterMap_eq_nil_iff.mpr h, List.append_nil]
  rfl

section Untested

variable {c : TransactionHashesCache} {e : TraceEvent}

theorem untested_addTransactionEvents {tx : Transaction} (he : e ∈ c.addTransactionEvents tx) :
    e.testedTransaction = none := by
  rw [eq_of_mem_addTransactionEvents he]
  rfl

theorem untested_addBlockEvents {build : MerkleBlockBuild} {block : Block}
    (he : e ∈ c.addBlockEvents build block) : e.testedTransaction = none := by
  rcases cases_of_mem_addBlockEvents he with ⟨_, _, rfl⟩ | ⟨_, rfl⟩
  · rfl
  · rfl

theorem untested_removeDataByBlockHashEvents {blockHash : Hash}
    (he : e ∈ c.removeDataByBlockHashEvents blockHash) : e.testedTransaction = none := by
  obtain ⟨_, rfl⟩ := exists_of_mem_removeDataByBlockHashEvents he
  rfl

theorem untested_deliveryEvents {event : MediatorEvent} (he : e ∈ deliveryEvents event) :
    e.testedTransaction = none := by
  rcases cases_of_mem_deliveryEvents he with rfl | ⟨_, rfl⟩
  · rfl
  · rfl

theorem untested_iterationEvents (he : e ∈ c.iterationEvents) : e.testedTransaction = none := by
  rcases cases_of_mem_iterationEvents he with ⟨_, -, rfl⟩ | ⟨_, rfl⟩ | rfl
  · rfl
  · rfl
  · rfl

end Untested

namespace Subscription

variable {F : Type} [BloomFilter F] {build : MerkleBlockBuild} {filter : F}
  {s s' : Subscription F}

/-- The filter of the subscription is `filter` after the tests that the log shows. -/
def FilterFrom (filter : F) (s : Subscription F) : Prop :=
  s.filter = filterAfter filter (testedTransactions s.trace)

namespace FilterFrom

/-- What leaves the filter alone and logs no test. -/
theorem append (h : FilterFrom filter s) {es : List TraceEvent} (hfilter : s'.filter = s.filter)
    (htrace : s'.trace = s.trace ++ es) (hes : ∀ e ∈ es, e.testedTransaction = none) :
    FilterFrom filter s' := by
  rw [FilterFrom, hfilter, htrace, testedTransactions_append hes]
  exact h

/-- An event that is no test leaves the filter. -/
theorem log (h : FilterFrom filter s) {e : TraceEvent} (he : e.testedTransaction = none) :
    FilterFrom filter (s.log [e]) := by
  refine h.append rfl rfl fun e' he' => ?_
  rw [List.mem_singleton.mp he']
  exact he

/-- Nothing is tested when a transaction is stored. -/
theorem storeTransaction (h : FilterFrom filter s) (tx : Transaction) :
    FilterFrom filter (s.storeTransaction tx) :=
  h.append rfl rfl fun _ => untested_addTransactionEvents

/-- A test changes the filter and is logged. -/
theorem testTransaction (h : FilterFrom filter s) (tx : Transaction) :
    FilterFrom filter (s.testTransaction (standardEnvironment build) tx).2 := by
  show (testTransactionAgainstFilter s.filter tx).2 =
    filterAfter filter (testedTransactions (s.trace ++ [.tested tx _]))
  rw [testedTransactions, List.filterMap_append, h]
  exact (filterAfter_snoc filter (testedTransactions s.trace) tx).symm

/-- Every change tests, or leaves the filter alone. -/
theorem keeps (a : Action) : Keeps (standardEnvironment build) a (FilterFrom filter) := by
  intro s₁ s₂ _ h hchange
  cases hchange with
  | logged e _ htest =>
      refine h.log ?_
      cases e with
      | tested tx verdict => exact absurd rfl (htest tx verdict)
      | _ => rfl
  | tested tx => exact h.testTransaction tx
  | stored tx => exact h.storeTransaction tx
  | blockRemoved => exact h.append rfl rfl fun _ => untested_removeDataByBlockHashEvents
  | lockStored => exact h
  | lockSent => exact h.append rfl rfl fun _ => untested_deliveryEvents
  | loopStarted => exact h.append rfl rfl fun _ => untested_iterationEvents
  | iterated => exact h.append rfl rfl fun _ => untested_iterationEvents
  | loopEnded => exact h
  | disconnected => exact h

/-- Every step leaves the filter that its tests make. -/
theorem step (h : FilterFrom filter s) (hw : Wired s) (a : Action) :
    FilterFrom filter (s.step (standardEnvironment build) a) :=
  (keeps a).step id hw
    (fun _ _ _ _ h₁ => h₁.append rfl rfl fun _ => untested_addBlockEvents) h

end FilterFrom

/-- **The filter of a subscription in every run.** -/
theorem run_filter (build : MerkleBlockBuild) (filter : F) (as : List Action) :
    FilterFrom filter (run (standardEnvironment build) (start filter) as) := by
  have hstep : ∀ (s : Subscription F) (a : Action), Wired s ∧ FilterFrom filter s →
      Wired (s.step (standardEnvironment build) a) ∧
        FilterFrom filter (s.step (standardEnvironment build) a) :=
    fun s a h => ⟨h.1.step _ a, h.2.step h.1 a⟩
  exact (Machine.run_invariant hstep ⟨wired_start filter, rfl⟩ as).2

end Subscription

/-! ## Matched transactions are emitted -/

namespace Subscription

variable {F : Type} {env : Environment F} {s : Subscription F}

/-- A step emits what it retrieves. -/
theorem preserves_retrievedEmitted (a : Action) : Preserves a RetrievedEmitted where
  logs := fun _ h => h.append fun _ he => Or.inl he
  addTransaction := fun _ h => h.append fun _ he =>
    TransactionHashesCache.of_mem_addTransaction he
  removeDataByBlockHash := by
    intro c t blockHash _ h
    exact h.append fun e he =>
      Or.inl ((c.removeDataByBlockHash_prunes blockHash).transactions.subset he)
  addInstantLock := fun _ h => h
  sendInstantLock := by
    intro c t lock _ _ h
    refine h.append fun e he => Or.inl ?_
    obtain ⟨transactionHashesMap, heq⟩ := c.removeTransactionHash_eq lock.txid
    rwa [heq] at he
  iteration := fun _ h => h.iteration

/-- **What is retrieved was emitted**, in every run. -/
theorem run_retrievedEmitted (filter : F) (as : List Action) :
    RetrievedEmitted (run env (start filter) as).cache (run env (start filter) as).trace := by
  refine Preserves.run preserves_retrievedEmitted ?_ (fun _ he => absurd he List.not_mem_nil)
    filter as
  intro block c t h
  exact h.append fun e he => Or.inl ((c.addBlock_transactions env.build block).subset he)

/-- What runs the next iteration of the loop: the end of the mempool phase, or the timer. -/
def nextIteration (s : Subscription F) : Action :=
  if s.loop = .notStarted then .memPoolDataSent else .wakeUp

variable (env) in
/-- An iteration of a connected client, whatever started it. -/
theorem trace_nextIteration (hw : Wired s) (hc : s.isClientConnected = true) :
    ∃ t, (s.step env s.nextIteration).trace = s.trace ++ t ++ s.cache.iterationEvents := by
  rw [nextIteration]
  split_ifs with hl
  · refine ⟨[.emitted .memPoolDataSent], ?_⟩
    show (s.emit .memPoolDataSent).trace = _
    rw [emit_memPoolDataSent hw, if_pos ⟨hc, hl⟩, List.append_assoc]
    rfl
  · have hwaiting : s.loop = .waiting := by
      cases hloop : s.loop with
      | notStarted => exact absurd hloop hl
      | waiting => rfl
      | ended => exact absurd hloop (hw.loop hc)
    refine ⟨[], ?_⟩
    show (if s.loop = .waiting then s.continueLoop else s).trace = _
    rw [if_pos hwaiting, continueLoop_waiting hw hwaiting, if_pos hc, List.append_nil]
    rfl

/-- What becomes of a live transaction: the filter matches it and, if the client is connected, the
next iteration has it emitted. -/
structure Caught (env : Environment F) (s : Subscription F) (tx : Transaction) : Prop where
  matched : (env.testFunction s.filter tx).1 = .ok true
  emitted : s.isClientConnected = true →
    EmittedTransaction ((s.step env (.test tx)).step env s.nextIteration).trace tx.hash

/-- **A transaction that the filter matches is caught.** -/
theorem caught_iff_matched (env : Environment F) (hw : Wired s)
    (h : RetrievedEmitted s.cache s.trace) (tx : Transaction) :
    Caught env s tx ↔ (env.testFunction s.filter tx).1 = .ok true := by
  refine ⟨Caught.matched, fun hmatched => ⟨hmatched, fun hc => ?_⟩⟩
  -- the transaction is cached after its test, and what is cached is emitted by the iteration
  let s₁ : Subscription F := (s.testTransaction env tx).2.storeTransaction tx
  have hs₁ : s.step env (.test tx) = s₁ := by
    show (s.testBody env tx).2 = _
    rw [testBody_snd env hw tx, if_pos ⟨hmatched, hc⟩]
  have hw₁ : Wired s₁ := hw.congr rfl
  have h₁ : RetrievedEmitted s₁.cache s₁.trace :=
    (preserves_retrievedEmitted (.test tx)).addTransaction rfl
      ((preserves_retrievedEmitted (.test tx)).logs ⟨_, rfl⟩ h)
  have hcached : tx.hash ∈ s₁.cache.cacheTransactionHashes :=
    TransactionHashesCache.hash_mem_addTransaction tx
  have hnext : s.nextIteration = s₁.nextIteration := rfl
  obtain ⟨t, ht⟩ := trace_nextIteration env hw₁ hc
  rw [hs₁, hnext, ht]
  have hlog : RetrievedEmitted s₁.cache (s₁.trace ++ t) := h₁.append fun _ he => Or.inl he
  exact hlog.emitted_iteration hcached

end Subscription

/-! ## Spends of what the history delivered -/

section Spends

variable {F : Type} [BloomFilter F]

/-- The output `index` of the transaction `hash` was delivered from the history, and its script
matches the filter. -/
def HistoricalOutput (filter : F) (t : List TraceEvent) (hash : Hash) (index : ℕ) : Prop :=
  ∃ txs, .sentHistorical (.rawTransactions txs) ∈ t ∧ ∃ tx ∈ txs, tx.hash = hash ∧
    ∃ output, (output, index) ∈ tx.indexedOutputs ∧
      filterContainsScript filter output.script = true

/-- Every live transaction that spends such an output is caught. -/
def SpendsCaught (env : Environment F) (filter : F) (s : Subscription F) : Prop :=
  ∀ hash index, HistoricalOutput filter s.trace hash index →
    ∀ tx : Transaction, tx.Parseable → tx.Spends hash index → s.Caught env tx

/-- **Spends of historical outputs are caught exactly when** the outpoint of each of these outputs
is in the filter of the client or was inserted by a test in the process (or the filter matches
every hash there is).  The history itself inserts nothing. -/
theorem spends_caught_iff [LawfulBloomFilter F] (build : MerkleBlockBuild) {lib : DashcoreLib F}
    (as : List StreamSystem.Action) {i : ℕ} {request : StreamRequest} {filter : F}
    {s : Subscription F}
    (hrequest : ((StreamSystem.run (standardEnvironment build) lib .initial as).calls i).request =
      some request)
    (hcount : request.count = 0)
    (hfilter : lib.newBloomFilter request.bloomFilter = .ok filter)
    (hs : ((StreamSystem.run (standardEnvironment build) lib .initial as).calls i).subscription =
      some s) :
    SpendsCaught (standardEnvironment build) filter s ↔
      (∀ hash index, HistoricalOutput filter s.trace hash index →
        Carried filter (testedTransactions s.trace)
          (inputIndexToBuffer hash (UInt32.ofNat index))) ∨
      ∀ hash : Hash, Carried filter (testedTransactions s.trace) hash := by
  obtain ⟨phase, -, hphase⟩ :=
    (StreamSystem.run_isInPhase (standardEnvironment build) lib as hrequest hcount).handler
  obtain ⟨stage, hsub⟩ := hphase.isSubscribed (by rw [hs]; exact Option.some_ne_none _)
  have hrun := hsub.eq_run hfilter hs
  -- the subscription is a run of its own, so its invariants hold whatever else the server does
  generalize ((StreamSystem.run (standardEnvironment build) lib .initial as).calls i).history =
    history at hrun
  have hwired : s.Wired := by
    rw [hrun]
    exact Subscription.run_wired _ filter history
  have hretrieved : RetrievedEmitted s.cache s.trace := by
    rw [hrun]
    exact Subscription.run_retrievedEmitted filter history
  have hcontains : ∀ d, contains s.filter d = true ↔
      Carried filter (testedTransactions s.trace) d := by
    intro d
    have hfrom : Subscription.FilterFrom filter s := by
      rw [hrun]
      exact Subscription.run_filter build filter history
    rw [hfrom]
    exact contains_filterAfter_iff filter _ d
  have hcaught := Subscription.caught_iff_matched (standardEnvironment build) hwired hretrieved
  constructor
  · intro h
    by_contra hno
    push Not at hno
    obtain ⟨⟨hash, index, hout, hmissed⟩, txHash, hunknown⟩ := hno
    -- the bare spend with a hash outside the filter is missed
    have hverdict := (h hash index hout (bareSpend txHash hash index)
      (bareSpend_parseable _ _ _) (bareSpend_spends _ _ _)).matched
    change (testTransactionAgainstFilter s.filter (bareSpend txHash hash index)).1 = _ at hverdict
    rw [← hcontains, Bool.not_eq_true] at hmissed hunknown
    rw [bareSpend_verdict, hmissed, hunknown] at hverdict
    simp at hverdict
  · rintro (h | h) hash index hout tx hparse hspends
    · obtain ⟨inputs, hins, input, hin, hprev, hindex⟩ := hspends
      refine (hcaught tx).mpr (verdict_of_contains_outpoint hparse hins hin hprev ?_)
      rw [hindex]
      exact (hcontains _).mpr (h hash index hout)
    · refine (hcaught tx).mpr ?_
      show (testTransactionAgainstFilter s.filter tx).1 = _
      rw [testTransactionAgainstFilter_eq s.filter tx hparse.outputs,
        if_pos ((hcontains _).mpr (h tx.hash))]

end Spends

/-- A run in which the transaction of the history is announced before it is delivered. -/
def announcedActions : List StreamSystem.Action :=
  [.call 0 paymentRequest, .rawTransaction (payment [9] [[1]])] ++ paymentAnswers

/-- Its test inserts the outpoint. -/
def announcedTrace : List TraceEvent :=
  [.tested (payment [9] [[1]]) (.ok true), .transactionAdded (payment [9] [[1]]),
    .sentHistorical (.rawTransactions [payment [9] [[1]]]),
    .sentHistorical (.rawMerkleBlock ⟨⟨[5]⟩, some [[9]]⟩), .emitted (.historicalBlockSent [5]),
    .emitted .historicalDataSent, .emitted .memPoolDataSent,
    .emitted (.transaction (payment [9] [[1]])),
    .sentLive (.rawTransactions [payment [9] [[1]]]), .iterationEnded]

/-- The trace of the subscription, computed. -/
theorem announced_trace : (paymentRun announcedActions).trace 0 = announcedTrace := rfl

/-- Its only output is carried. -/
theorem announced_carried (hash : Hash) (index : ℕ)
    (hout : HistoricalOutput (⟨[[1]], BLOOM_UPDATE_ALL⟩ : ExactFilter) announcedTrace hash index) :
    Carried (⟨[[1]], BLOOM_UPDATE_ALL⟩ : ExactFilter) (testedTransactions announcedTrace)
      (inputIndexToBuffer hash (UInt32.ofNat index)) := by
  obtain ⟨txs, hmem, tx, htx, rfl, output, hindexed, -⟩ := hout
  obtain rfl : txs = [payment [9] [[1]]] := by simpa [announcedTrace] using hmem
  obtain rfl := List.mem_singleton.mp htx
  obtain ⟨-, rfl⟩ : output = ⟨some (pushScript [1])⟩ ∧ index = 0 := by
    simpa [Transaction.indexedOutputs, payment] using hindexed
  refine Or.inr ⟨[], payment [9] [[1]], [], rfl, by decide, (⟨some (pushScript [1])⟩, 0), ?_⟩
  exact ⟨rfl, by decide, by decide⟩

/-- The spends of this output are caught. -/
theorem spends_caught_announced :
    ∃ s, ((paymentRun announcedActions).calls 0).subscription = some s ∧
      SpendsCaught paymentEnvironment (⟨[[1]], BLOOM_UPDATE_ALL⟩ : ExactFilter) s := by
  obtain ⟨s, hs⟩ : ∃ s, ((paymentRun announcedActions).calls 0).subscription = some s := ⟨_, rfl⟩
  have htrace : s.trace = announcedTrace := by
    have h := announced_trace
    rwa [StreamSystem.trace, hs] at h
  have hrequest : ((paymentRun announcedActions).calls 0).request = some paymentRequest := rfl
  have hfilter : paymentLib.newBloomFilter paymentRequest.bloomFilter =
      .ok ⟨[[1]], BLOOM_UPDATE_ALL⟩ := rfl
  refine ⟨s, hs, (spends_caught_iff _ announcedActions hrequest rfl hfilter hs).mpr (Or.inl ?_)⟩
  rw [htrace]
  exact announced_carried

/-- Without the announcement they are missed: the history is over, and a live transaction that
spends the delivered output does not match and is not emitted. -/
theorem not_spends_caught_unannounced :
    nFlags (⟨[[1]], BLOOM_UPDATE_ALL⟩ : ExactFilter) = BLOOM_UPDATE_ALL ∧
      (∀ s, ((paymentRun ([.call 0 paymentRequest] ++ paymentAnswers)).calls 0).subscription =
          some s → .emitted .historicalDataSent ∈ s.trace ∧
            ¬ SpendsCaught paymentEnvironment (⟨[[1]], BLOOM_UPDATE_ALL⟩ : ExactFilter) s) ∧
      .emitted (.transaction (bareSpend [8] [9] 0)) ∉
        (paymentRun ([.call 0 paymentRequest] ++ paymentAnswers ++
          [.rawTransaction (bareSpend [8] [9] 0), .wakeUp 0])).trace 0 := by
  refine ⟨rfl, ?_, by decide⟩
  intro s hs
  obtain rfl := Option.some.inj hs
  refine ⟨by decide, fun h => ?_⟩
  have hmiss := (h [9] 0 ⟨[payment [9] [[1]]], by decide, payment [9] [[1]], by decide, rfl,
    ⟨some (pushScript [1])⟩, by decide, by decide⟩ (bareSpend [8] [9] 0)
      (bareSpend_parseable _ _ _) (bareSpend_spends _ _ _)).matched
  exact absurd hmiss (by decide)

end Dapi
