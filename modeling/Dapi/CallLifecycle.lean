/-
# Failed and cancelled calls

When a call for new transactions ends, its emitter should leave the bloom filter
emitter collection.  The handler has one way to remove it, the listener for
`cancelled`, which it attaches as its last step, so:

* a handler that fails after the filter was accepted leaves its emitter behind
  (`failed_call_leaves_emitter`);
* a cancellation is honoured exactly when it comes after the handler has returned
  (`cancellation_honoured_iff`).

Both follow from the phases of `HandlerStages.lean` and from `run_isClientConnected`:
a subscription is connected as long as its history has no disconnect.
-/
import Dapi.HandlerStages

namespace Dapi

open Async Program

/-! ## The disconnect of a subscription -/

namespace Subscription

variable {F : Type} (env : Environment F) {s : Subscription F}

/-- Only `CLIENT_DISCONNECTED` disconnects. -/
theorem step_isClientConnected (hw : Wired s) (a : Action) :
    (step env s a).isClientConnected = true ↔
      s.isClientConnected = true ∧ a ≠ .clientDisconnected := by
  by_cases hdisc : a = .clientDisconnected
  · subst hdisc
    have hstep : (step env s .clientDisconnected).isClientConnected = false := by
      show (s.emit .clientDisconnected).isClientConnected = false
      rw [emit_clientDisconnected hw]
      split_ifs with hc
      · rfl
      · exact Bool.not_eq_true _ ▸ hc
    simp [hstep]
  · have hkeeps : Keeps env a fun s₁ => s₁.isClientConnected = s.isClientConnected := by
      intro s₁ s₂ _ h hchange
      cases hchange with
      | disconnected ha => exact absurd ha hdisc
      | _ => exact h
    have hstep : (step env s a).isClientConnected = s.isClientConnected :=
      hkeeps.step id hw (fun _ _ _ _ h => h) rfl
    simp [hstep, hdisc]

/-- **A subscription is connected as long as its history has no disconnect.** -/
theorem run_isClientConnected (filter : F) (as : List Action) :
    (run env (start filter) as).isClientConnected = true ↔ .clientDisconnected ∉ as := by
  induction as using List.reverseRecOn with
  | nil => simp [start, subscribeToNewTransactions]
  | append_singleton as a ih =>
      rw [run_snoc, step_isClientConnected env (run_wired env filter as), ih]
      simp only [List.mem_append, List.mem_singleton, not_or, ne_eq, eq_comm]

/-- Whether the collection holds the emitter. -/
theorem run_isRegistered (filter : F) (as : List Action) :
    (run env (start filter) as).isRegistered = true ↔ .clientDisconnected ∉ as := by
  rw [← run_isClientConnected env filter as]
  have hreg : (run env (start filter) as).isRegistered =
      (run env (start filter) as).isClientConnected := (run_wired env filter as).registered
  rw [hreg]

/-- How many iterations of the loop the log shows. -/
def iterations (s : Subscription F) : ℕ := s.trace.count .iterationEnded

/-- **A disconnected subscription only logs**: no action delivers anything, ends an iteration of the
loop or changes the cache. -/
theorem quiet_of_disconnected (hw : Wired s) (hc : s.isClientConnected = false) (a : Action) :
    Trace.GoesOn TraceEvent.Quiet s.trace (step env s a).trace ∧
      (step env s a).cache = s.cache := by
  have hkeeps : Keeps env a fun s₁ => s₁.isClientConnected = false ∧
      Trace.GoesOn TraceEvent.Quiet s.trace s₁.trace ∧ s₁.cache = s.cache := by
    rintro s₁ s₂ _ ⟨hc₁, hquiet, hcache⟩ hchange
    -- every change but these three is one of a connected subscription
    cases hchange with
    | logged e ha => exact ⟨hc₁, hquiet.trans (.snoc ha.quiet), hcache⟩
    | tested tx => exact ⟨hc₁, hquiet.trans (.snoc trivial), hcache⟩
    | loopEnded => exact ⟨hc₁, hquiet, hcache⟩
    | stored _ _ hc' | blockRemoved _ _ hc' | lockStored _ _ hc' | lockSent _ _ hc'
    | loopStarted _ hc' | iterated _ hc' | disconnected _ hc' =>
        rw [hc₁] at hc'
        cases hc'
  refine (hkeeps.step id hw ?_ ⟨hc, .of_eq rfl, rfl⟩).2
  rintro block - s₁ hc' ⟨hc₁, -⟩
  rw [hc₁] at hc'
  cases hc'

/-- **A disconnected subscription is at rest**: no action runs another iteration of the loop or
changes the cache. -/
theorem step_of_disconnected (hw : Wired s) (hc : s.isClientConnected = false) (a : Action) :
    (step env s a).iterations = s.iterations ∧ (step env s a).cache = s.cache := by
  obtain ⟨hquiet, hcache⟩ := quiet_of_disconnected env hw hc a
  exact ⟨hquiet.count_eq (fun h => h), hcache⟩

/-- A block without transactions is counted by a connected subscription, and raises nothing. -/
theorem emitBlock_bare (hw : Wired s) (header : BlockHeader) :
    (s.handle env (.block ⟨header, []⟩)).1 = .ok () ∧
      (s.handle env (.block ⟨header, []⟩)).2.cache.blocksProcessed =
        s.cache.blocksProcessed + if s.isClientConnected then 1 else 0 := by
  show (s.emitBlock env ⟨header, []⟩).1 = _ ∧
    (s.emitBlock env ⟨header, []⟩).2.cache.blocksProcessed = _
  rw [emitBlock_eq env hw]
  split_ifs
  · have htest : s.testBlock env ⟨header, []⟩ = (.ok (), s) := by
      rw [testBlock]
      split_ifs <;> rfl
    rw [storeBlock, htest]
    exact ⟨rfl, rfl⟩
  · exact ⟨rfl, rfl⟩

end Subscription

/-! ## The collection -/

namespace StreamSystem

variable {F : Type} {env : Environment F} {sys : StreamSystem F} {i : ℕ}

/-- An accepted call is in the collection while it is registered. -/
theorem mem_bloomFilterEmitterCollection :
    i ∈ sys.bloomFilterEmitterCollection ↔
      i ∈ sys.accepted ∧ (sys.calls i).isRegistered = true := by
  rw [bloomFilterEmitterCollection, List.mem_filter]

/-- Every subscription of the system has its listeners as they should be. -/
def AllWired (sys : StreamSystem F) : Prop :=
  ∀ i s, (sys.calls i).subscription = some s → s.Wired

/-- A step keeps the subscription of a call wired. -/
theorem wired_act {call : Call F} (h : ∀ s, call.subscription = some s → s.Wired)
    (a : Subscription.Action) :
    ∀ s, (call.act env a).2.subscription = some s → s.Wired := by
  intro s hs
  cases hsub : call.subscription with
  | none =>
      rw [Call.act_of_none hsub, hsub] at hs
      cases hs
  | some s₀ =>
      rw [Call.act_of_some hsub] at hs
      obtain rfl := Option.some.inj hs
      exact (h s₀ hsub).step env a

/-- **A block without transactions reaches every emitter of the collection**, and those that are
connected count it. -/
theorem forEach_bareBlock (hw : sys.AllWired) {s : Subscription F}
    (hs : (sys.calls i).subscription = some s) (hc : s.isClientConnected = true)
    (header : BlockHeader) (js : List ℕ) :
    ∃ s', ((forEach (actOn env (.block ⟨header, []⟩)) js sys).2.calls i).subscription = some s' ∧
      s'.cache.blocksProcessed = s.cache.blocksProcessed + js.count i := by
  induction js generalizing sys s with
  | nil => exact ⟨s, hs, rfl⟩
  | cons j js ih =>
      have hok : (actOn env (.block ⟨header, []⟩) j sys).1 = .ok () := by
        show ((sys.calls j).act env _).1 = _
        cases hsub : (sys.calls j).subscription with
        | none => rw [Call.act_of_none hsub]
        | some s₀ =>
            rw [Call.act_of_some hsub]
            exact (Subscription.emitBlock_bare env (hw j s₀ hsub) header).1
      have hw' : (actOn env (.block ⟨header, []⟩) j sys).2.AllWired := by
        intro k
        exact actOn_invariant (I := fun call : Call F => ∀ s, call.subscription = some s → s.Wired)
          (fun call h => wired_act h _) j (hw k)
      have hbody : actOn env (.block ⟨header, []⟩) j sys =
          (.ok (), (actOn env (.block ⟨header, []⟩) j sys).2) := Prod.ext hok rfl
      rw [forEach_cons_ok hbody]
      by_cases hij : i = j
      · -- the turn of the emitter itself
        subst hij
        have hs' : ((actOn env (.block ⟨header, []⟩) i sys).2.calls i).subscription =
            some (s.step env (.block ⟨header, []⟩)) := by
          show ((sys.setCall i _).calls i).subscription = _
          rw [setCall_self, Call.act_of_some hs]
        have hc' : (s.step env (.block ⟨header, []⟩)).isClientConnected = true :=
          (Subscription.step_isClientConnected env (hw i s hs) _).mpr ⟨hc, fun h => by cases h⟩
        obtain ⟨s', hsub', hcount⟩ := ih hw' hs' hc'
        have hone := (Subscription.emitBlock_bare env (hw i s hs) header).2
        rw [if_pos hc] at hone
        refine ⟨s', hsub', ?_⟩
        rw [List.count_cons_self, hcount]
        show (s.handle env _).2.cache.blocksProcessed + _ = _
        omega
      · have hs' : ((actOn env (.block ⟨header, []⟩) j sys).2.calls i).subscription = some s := by
          show ((sys.setCall j _).calls i).subscription = _
          rw [setCall_of_ne hij, hs]
        obtain ⟨s', hsub', hcount⟩ := ih hw' hs' hc
        refine ⟨s', hsub', ?_⟩
        rw [List.count_cons_of_ne (Ne.symm hij), hcount]

section Ended

variable {lib : DashcoreLib F} {request : StreamRequest}

/-- The subscription of a call is connected as long as its history has no disconnect. -/
theorem isRegistered_iff {stage : Stage} {call : Call F}
    (h : IsSubscribed env lib request stage call) :
    call.isRegistered = true ↔ .clientDisconnected ∉ call.history := by
  obtain ⟨filter, -, hs⟩ := h.subscription
  rw [Call.isRegistered, hs]
  exact Subscription.run_isRegistered env filter call.history

/-- A handler that has thrown was in the phase of the subscription, unless the filter was
rejected. -/
theorem IsInPhase.of_throw {e : Failure} (h : IsInPhase env lib request sys i)
    (hthrow : sys.handlers i = .throw e) :
    ((∃ message, lib.newBloomFilter request.bloomFilter = .error message) ∧
        (sys.calls i).subscription = none) ∨
      ∃ stage, IsSubscribed env lib request stage (sys.calls i) ∧
        .clientDisconnected ∉ (sys.calls i).history := by
  obtain ⟨phase, hhandler, hphase⟩ := h.handler
  rw [hthrow] at hhandler
  cases phase with
  | rejected =>
      obtain ⟨hlib, hcall⟩ := hphase
      rw [hcall]
      exact Or.inl ⟨hlib, rfl⟩
  | subscribed stage => exact Or.inr ⟨stage, hphase.1, hphase.2.2⟩
  | _ => exact hhandler.elim

/-- A handler that has returned listens for the cancellation. -/
theorem IsInPhase.of_done (h : IsInPhase env lib request sys i)
    (hdone : sys.handlers i = .done ()) :
    IsSubscribed env lib request .live (sys.calls i) ∧
      (sys.calls i).isCancelListened = true := by
  obtain ⟨phase, hhandler, hphase⟩ := h.handler
  rw [hdone] at hhandler
  obtain rfl : phase = .listening := hhandler
  exact hphase

/-- A step is remembered when there is a subscription. -/
theorem mem_act_history {call : Call F} {a b : Subscription.Action} :
    b ∈ (call.act env a).2.history ↔
      b ∈ call.history ∨ (b = a ∧ call.subscription ≠ none) := by
  cases hs : call.subscription with
  | none => simp [Call.act_of_none hs]
  | some s => simp [Call.act_of_some hs]

/-- Only the disconnect is one. -/
theorem disconnect_mem_act {call : Call F} {a : Subscription.Action}
    (ha : a ≠ .clientDisconnected) :
    .clientDisconnected ∈ (call.act env a).2.history ↔ .clientDisconnected ∈ call.history := by
  rw [mem_act_history]
  exact or_iff_left fun h => ha h.1.symm

/-- A notification is no disconnect. -/
theorem ne_disconnect_of_isNotification {a : Subscription.Action} (ha : a.IsNotification) :
    a ≠ .clientDisconnected := by
  rintro rfl
  exact ha

/-- A handler that listens for the cancellation has returned. -/
theorem IsInPhase.of_listened (h : IsInPhase env lib request sys i)
    (hlistened : (sys.calls i).isCancelListened = true) :
    IsSubscribed env lib request .live (sys.calls i) ∧ sys.handlers i = .done () := by
  obtain ⟨phase, hhandler, hphase⟩ := h.handler
  cases phase with
  | entered =>
      rw [show sys.calls i = .accepted request from hphase] at hlistened
      cases hlistened
  | rejected =>
      rw [hphase.2] at hlistened
      cases hlistened
  | accepted =>
      obtain ⟨filter, -, hcall⟩ := hphase
      rw [hcall] at hlistened
      cases hlistened
  | subscribed stage =>
      rw [hphase.2.1] at hlistened
      cases hlistened
  | listening =>
      refine ⟨hphase.1, ?_⟩
      cases hprogram : sys.handlers i with
      | done a => rfl
      | throw e =>
          rw [hprogram] at hhandler
          exact hhandler.elim
      | sync op k =>
          rw [hprogram] at hhandler
          exact hhandler.1.elim
      | await r k =>
          rw [hprogram] at hhandler
          obtain ⟨stage, hstage⟩ := hhandler.1
          cases hstage

end Ended

variable [BloomFilter F] {lib : DashcoreLib F}

/-- An operation keeps the subscription of a call wired. -/
theorem wired_exec {call : Call F} (h : ∀ s, call.subscription = some s → s.Wired)
    (op : HandlerOp) : ∀ s, (call.exec env lib op).2.subscription = some s → s.Wired := by
  cases op with
  | newBloomFilter bloomFilter =>
      rw [Call.exec]
      cases lib.newBloomFilter bloomFilter <;> exact h
  | subscribeToNewTransactions =>
      intro s hs
      obtain ⟨filter, -, rfl⟩ := Option.map_eq_some_iff.mp hs
      exact Subscription.wired_start filter
  | write response => exact wired_act h _
  | emitHistoricalBlockSent blockHash => exact wired_act h _
  | emitHistoricalDataSent => exact wired_act h _
  | emitMemPoolDataSent => exact wired_act h _
  | _ => exact h

variable (env lib) in
/-- **Every subscription is wired**, after every run of the system. -/
theorem run_allWired (as : List Action) : (run env lib initial as).AllWired := by
  refine Machine.run_invariant ?_ (fun _ _ h => by cases h) as
  intro sys a hw j
  by_cases ha : ∃ request, a = .call j request
  · obtain ⟨request, rfl⟩ := ha
    by_cases hj : (sys.calls j).request = none
    · rw [step, if_pos hj]
      refine runHandler_keeps (I := fun call : Call F => ∀ s, call.subscription = some s → s.Wired)
        (fun a call _ h => wired_act h a) (fun op call h => wired_exec h op) _ ?_
      show ∀ s, ((sys.setCall j _).calls j).subscription = some s → s.Wired
      rw [setCall_self]
      exact fun _ h => by cases h
    · rw [step_call_of_accepted hj]
      exact hw j
  · push Not at ha
    refine step_invariant (I := fun call : Call F => ∀ s, call.subscription = some s → s.Wired)
      (fun a call _ h => wired_act h a) (fun op call h => wired_exec h op) ?_ ha (hw j)
    intro _ call h
    have hended : ∀ s, ({ call with isEnded := true } : Call F).subscription = some s →
        s.Wired := h
    exact wired_act hended .clientDisconnected

variable (env lib) in
/-- The request of an accepted call stays. -/
theorem run_request {request : StreamRequest} (more : List Action)
    (h : (sys.calls i).request = some request) :
    ((run env lib sys more).calls i).request = some request := by
  refine Machine.run_invariant (I := fun sys : StreamSystem F =>
    (sys.calls i).request = some request) ?_ h more
  intro sys a h
  by_cases ha : ∃ request', a = .call i request'
  · obtain ⟨request', rfl⟩ := ha
    rw [step_call_of_accepted (by rw [h]; exact Option.some_ne_none _)]
    exact h
  · push Not at ha
    rw [step_request ha]
    exact h

/-! ## Failed calls -/

/-- The cache that the call has built. -/
def cache (sys : StreamSystem F) (i : ℕ) : Option TransactionHashesCache :=
  (sys.calls i).subscription.map Subscription.cache

/-- A block changes the cache of every connected subscription in the collection. -/
theorem cache_step_block_ne (as : List Action) {i : ℕ} {s : Subscription F}
    (hs : ((run env lib initial as).calls i).subscription = some s)
    (hc : s.isClientConnected = true)
    (hi : i ∈ (run env lib initial as).bloomFilterEmitterCollection) :
    ∃ block, ((run env lib initial as).step env lib (.block block)).cache i ≠
      (run env lib initial as).cache i := by
  refine ⟨⟨⟨[]⟩, []⟩, ?_⟩
  obtain ⟨s', hs', hcount⟩ := forEach_bareBlock (run_allWired env lib as) hs hc ⟨[]⟩
    (run env lib initial as).bloomFilterEmitterCollection
  have hpos := List.count_pos_iff.mpr hi
  intro heq
  have hsame : some s'.cache = some s.cache := by
    have hleft : ((run env lib initial as).step env lib (.block ⟨⟨[]⟩, []⟩)).cache i =
        some s'.cache := congrArg (Option.map Subscription.cache) hs'
    have hright : (run env lib initial as).cache i = some s.cache :=
      congrArg (Option.map Subscription.cache) hs
    rw [← hleft, ← hright, heq]
  rw [Option.some.inj hsame] at hcount
  omega

/-- **A failed call leaves its emitter behind.**  Whatever happened before the call and since, when
the handler has thrown after its filter was accepted, the collection holds an emitter that it did
not hold before the call, and there is a block that changes the cache of the call. -/
theorem failed_call_leaves_emitter (before more : List Action) {i : ℕ} {request : StreamRequest}
    {filter : F} {e : Failure} (hnew : ((run env lib initial before).calls i).request = none)
    (hcount : request.count = 0) (hfilter : lib.newBloomFilter request.bloomFilter = .ok filter)
    (hthrow : (run env lib initial (before ++ .call i request :: more)).handlers i = .throw e) :
    i ∉ (run env lib initial before).bloomFilterEmitterCollection ∧
      i ∈ (run env lib initial
        (before ++ .call i request :: more)).bloomFilterEmitterCollection ∧
      ∃ block, ((run env lib initial (before ++ .call i request :: more)).step env lib
          (.block block)).cache i ≠
        (run env lib initial (before ++ .call i request :: more)).cache i := by
  have hbefore : i ∉ (run env lib initial before).bloomFilterEmitterCollection := by
    rw [mem_bloomFilterEmitterCollection, run_accepted, hnew]
    exact fun h => h.1 rfl
  have hrequest : ((run env lib initial (before ++ .call i request :: more)).calls i).request =
      some request := by
    rw [run, Machine.run_append]
    exact run_request env lib more (step_call_request hnew)
  generalize hall : before ++ .call i request :: more = all at hthrow hrequest ⊢
  -- the handler threw either for the filter, which is excluded, or at a stage of the subscription
  rcases (run_isInPhase env lib all hrequest hcount).of_throw hthrow with
    ⟨⟨message, hrejected⟩, -⟩ | ⟨stage, hsub, hhistory⟩
  · rw [hfilter] at hrejected
    cases hrejected
  · obtain ⟨filter', -, hs⟩ := hsub.subscription
    have hin : i ∈ (run env lib initial all).bloomFilterEmitterCollection := by
      rw [mem_bloomFilterEmitterCollection, run_accepted, hrequest]
      exact ⟨Option.some_ne_none _, (isRegistered_iff hsub).mpr hhistory⟩
    exact ⟨hbefore, hin, cache_step_block_ne all hs
      ((Subscription.run_isClientConnected env filter' _).mpr hhistory) hin⟩

/-- Core rejects `getBlock` while it starts. -/
theorem failed_call_leaves_emitter_getBlock :
    0 ∉ (paymentRun []).bloomFilterEmitterCollection ∧
      0 ∈ (paymentRun [.call 0 paymentRequest,
        .answer 0 fun _ => .error (.rejection (-28) "Loading block index...")]
        ).bloomFilterEmitterCollection ∧
      ∃ block, ((paymentRun [.call 0 paymentRequest,
          .answer 0 fun _ => .error (.rejection (-28) "Loading block index...")]).step
            paymentEnvironment paymentLib (.block block)).cache 0 ≠
        (paymentRun [.call 0 paymentRequest,
          .answer 0 fun _ => .error (.rejection (-28) "Loading block index...")]).cache 0 :=
  failed_call_leaves_emitter []
    [.answer 0 fun _ => .error (.rejection (-28) "Loading block index...")]
    rfl rfl rfl rfl

/-- The request of the unit test, without a block to start from: the call fails at once and its
emitter stays. -/
theorem not_failed_call_leaves_nothing :
    (paymentRun [.call 0 ⟨paymentRequest.bloomFilter, [], 0, 0⟩]).handlers 0 =
        .throw (.invalidArgument "minimum value for `fromBlockHeight` is 1") ∧
      (paymentRun []).bloomFilterEmitterCollection = [] ∧
      (paymentRun [.call 0 ⟨paymentRequest.bloomFilter, [], 0, 0⟩]).bloomFilterEmitterCollection =
        [0] :=
  ⟨rfl, rfl, by decide⟩

/-! ## Cancelled calls -/

/-- The handler of the call has returned. -/
def HasReturned (sys : StreamSystem F) (i : ℕ) : Prop :=
  (sys.calls i).request ≠ none ∧ sys.handlers i = .done ()

variable (env lib) in
/-- `cancelled` fired for the call when its handler had returned. -/
def CancelledAfterReturn (as : List Action) (i : ℕ) : Prop :=
  Trace.Sometime
    (fun before a => a = .cancelled i ∧ HasReturned (run env lib initial before) i) as

/-- How many iterations of the sending loop of the call there were. -/
def iterations (sys : StreamSystem F) (i : ℕ) : ℕ :=
  ((sys.calls i).subscription.map Subscription.iterations).getD 0

variable (env lib) in
/-- The emitter of the call is gone and its loop runs no more. -/
def CancellationHonoured (sys : StreamSystem F) (i : ℕ) : Prop :=
  i ∉ sys.bloomFilterEmitterCollection ∧
    ∀ more, (run env lib sys more).iterations i = sys.iterations i

/-- A call whose handler is over is changed by notifications and the cancellation only. -/
theorem over_invariant {I : Call F → Prop} {request : StreamRequest}
    (hrequest : (sys.calls i).request = some request) (hover : (sys.handlers i).isOver = true)
    (hact : ∀ a call, a.IsNotification → I call → I (call.act env a).2)
    (hcancel : ∀ call, I call → I (call.cancel env)) (h : I (sys.calls i)) (more : List Action) :
    I ((run env lib sys more).calls i) := by
  -- the protocol that allows nothing
  let T : Protocol handlerSignature Unit := Protocol.static (fun _ => False) (fun _ => False)
  have hT : Tracks env lib T (fun _ call => I call) :=
    { exec := fun _ hop => hop.elim
      test := fun hop => hop.elim
      request := fun hr => hr.elim
      notified := fun ha h => hact _ _ ha h
      cancelled := fun _ h => hcancel _ h }
  have hfollows : Follows T (fun _ _ => True) (fun _ _ => True) (fun _ call => I call) request
      sys i := by
    refine ⟨hrequest, (), ?_, h⟩
    cases hprogram : sys.handlers i with
    | done a => trivial
    | throw e => trivial
    | sync op k =>
        rw [hprogram] at hover
        cases hover
    | await r k =>
        rw [hprogram] at hover
        cases hover
  have hrun := Machine.run_invariant (I := fun sys => Follows T (fun _ _ => True)
    (fun _ _ => True) (fun _ call => I call) request sys i)
    (fun sys a h => h.step hT a) hfollows more
  obtain ⟨-, hcall⟩ := hrun.handler.choose_spec
  exact hcall

/-- Once the handler is over, an emitter that is not in the collection belongs to a call whose loop
runs no more. -/
theorem honoured_iff (as : List Action) {i : ℕ} {request : StreamRequest}
    (hrequest : ((run env lib initial as).calls i).request = some request)
    (hover : ((run env lib initial as).handlers i).isOver = true) :
    CancellationHonoured env lib (run env lib initial as) i ↔
      ((run env lib initial as).calls i).isRegistered = false := by
  have hmem : i ∈ (run env lib initial as).bloomFilterEmitterCollection ↔
      ((run env lib initial as).calls i).isRegistered = true := by
    rw [mem_bloomFilterEmitterCollection, run_accepted, hrequest]
    exact and_iff_right (Option.some_ne_none _)
  have hwired := run_allWired env lib as i
  generalize run env lib initial as = sys at *
  rw [CancellationHonoured, hmem, Bool.not_eq_true]
  refine and_iff_left_of_imp ?_
  intro hreg more
  cases hs : (sys.calls i).subscription with
  | none =>
      have hact : ∀ a (call : Call F), call.subscription = none →
          (call.act env a).2.subscription = none := by
        intro a call h
        rw [Call.act_of_none h, h]
      have hnone : ((run env lib sys more).calls i).subscription = none :=
        over_invariant hrequest hover (fun a call _ => hact a call)
          (fun call h => hact .clientDisconnected { call with isEnded := true } h) hs more
      rw [iterations, iterations, hnone, hs]
  | some s =>
      have hc : s.isClientConnected = false := by
        have hreg' : s.isRegistered = s.isClientConnected := (hwired s hs).registered
        rw [Call.isRegistered, hs] at hreg
        rw [← hreg']
        exact hreg
      -- what a disconnected subscription keeps
      let I : Call F → Prop := fun call =>
        ∃ s', call.subscription = some s' ∧ s'.Wired ∧ s'.isClientConnected = false ∧
          s'.iterations = s.iterations
      have hact : ∀ a call, I call → I (call.act env a).2 := by
        rintro a call ⟨s', hs', hw', hc', hn'⟩
        rw [Call.act_of_some hs']
        refine ⟨s'.step env a, rfl, hw'.step env a, ?_, ?_⟩
        · rw [← Bool.not_eq_true, Subscription.step_isClientConnected env hw', hc']
          exact fun h => Bool.false_ne_true h.1
        · exact (Subscription.step_of_disconnected env hw' hc' a).1.trans hn'
      obtain ⟨s', hs', -, -, hn'⟩ := over_invariant hrequest hover (fun a call _ => hact a call)
        (fun call h => hact .clientDisconnected { call with isEnded := true } h)
        ⟨s, hs, hwired s hs, hc, rfl⟩ more
      rw [iterations, iterations, hs, hs']
      exact hn'

/-! ### When the history has the disconnect -/

/-- No operation of a handler disconnects. -/
theorem disconnect_mem_exec {call : Call F} (op : HandlerOp) :
    .clientDisconnected ∈ (call.exec env lib op).2.history ↔
      .clientDisconnected ∈ call.history := by
  cases op with
  | newBloomFilter bloomFilter =>
      rw [Call.exec]
      cases lib.newBloomFilter bloomFilter <;> rfl
  | write response => exact disconnect_mem_act (fun h => by cases h)
  | emitHistoricalBlockSent blockHash => exact disconnect_mem_act (fun h => by cases h)
  | emitHistoricalDataSent => exact disconnect_mem_act (fun h => by cases h)
  | emitMemPoolDataSent => exact disconnect_mem_act (fun h => by cases h)
  | _ => rfl

/-- What an action of the system adds to this. -/
theorem disconnect_mem_step {request : StreamRequest} (h : IsInPhase env lib request sys i)
    (a : Action) :
    .clientDisconnected ∈ ((sys.step env lib a).calls i).history ↔
      .clientDisconnected ∈ (sys.calls i).history ∨ (a = .cancelled i ∧ HasReturned sys i) := by
  have haccepted : (sys.calls i).request ≠ none := by
    rw [h.request]
    exact Option.some_ne_none _
  by_cases ha : a = .cancelled i
  · subst ha
    rw [step]
    split_ifs with hlistened
    · obtain ⟨hsub, hreturned⟩ := h.of_listened hlistened
      obtain ⟨filter, -, hs⟩ := hsub.subscription
      refine iff_of_true ?_ (Or.inr ⟨rfl, haccepted, hreturned⟩)
      rw [setCall_self]
      refine mem_act_history.mpr (Or.inr ⟨rfl, ?_⟩)
      show (sys.calls i).subscription ≠ none
      rw [hs]
      exact Option.some_ne_none _
    · refine (or_iff_left ?_).symm
      rintro ⟨-, -, hdone⟩
      exact hlistened (h.of_done hdone).2
  · rw [or_iff_left (fun hc => ha hc.1)]
    by_cases hcall : ∃ request', a = .call i request'
    · obtain ⟨request', rfl⟩ := hcall
      rw [step_call_of_accepted haccepted]
    · push Not at hcall
      exact step_invariant
        (I := fun call => .clientDisconnected ∈ call.history ↔
          .clientDisconnected ∈ (sys.calls i).history)
        (fun a call hn h => (disconnect_mem_act (ne_disconnect_of_isNotification hn)).trans h)
        (fun op call h => (disconnect_mem_exec op).trans h) (fun hc => absurd hc ha) hcall Iff.rfl

/-- **The subscription is disconnected exactly by a cancellation after the return.** -/
theorem disconnect_mem_history_iff (as : List Action) {i : ℕ} {request : StreamRequest}
    (hrequest : ((run env lib initial as).calls i).request = some request)
    (hcount : request.count = 0) :
    .clientDisconnected ∈ ((run env lib initial as).calls i).history ↔
      CancelledAfterReturn env lib as i := by
  induction as using List.reverseRecOn with
  | nil => cases hrequest
  | append_singleton as a ih =>
      rw [CancelledAfterReturn, Trace.sometime_snoc]
      have hrun : run env lib initial (as ++ [a]) = (run env lib initial as).step env lib a :=
        Machine.run_append _ _ _ _
      rw [hrun] at hrequest ⊢
      by_cases hnew : ((run env lib initial as).calls i).request = none
      · -- the call is accepted by this very action
        obtain ⟨request', rfl⟩ : ∃ request', a = .call i request' := by
          by_contra hno
          push Not at hno
          rw [step_request hno, hnew] at hrequest
          cases hrequest
        refine iff_of_false ?_ ?_
        · rw [step, if_pos hnew]
          refine runHandler_keeps
            (I := fun call : Call F => .clientDisconnected ∉ call.history) ?_ ?_ _ ?_
          · intro a call hn h
            rwa [disconnect_mem_act (ne_disconnect_of_isNotification hn)]
          · intro op call h
            rwa [disconnect_mem_exec]
          · show .clientDisconnected ∉ ((setCall _ i _).calls i).history
            rw [setCall_self]
            exact List.not_mem_nil
        · rintro (⟨before, _, after, rfl, rfl, haccepted, -⟩ | ⟨ha, -⟩)
          · obtain ⟨request'', hrequest''⟩ := Option.ne_none_iff_exists'.mp haccepted
            have hlater := run_request env lib (.cancelled i :: after) hrequest''
            rw [run, Machine.run_append] at hnew
            rw [hnew] at hlater
            cases hlater
          · cases ha
      · -- the call was accepted before, so the invariant applies
        obtain ⟨request', hrequest'⟩ := Option.ne_none_iff_exists'.mp hnew
        have hsame := run_request env lib [a] hrequest'
        obtain rfl : request' = request := by
          rw [show run env lib (run env lib initial as) [a] =
            (run env lib initial as).step env lib a from rfl, hrequest] at hsame
          exact (Option.some.inj hsame).symm
        rw [disconnect_mem_step (run_isInPhase env lib as hrequest' hcount) a, ih hrequest']
        rfl

/-- **When a cancellation is honoured.**  In every state in which the handler of a call for new
transactions is over, the emitter of the call is gone and its loop runs no more if and only if
the filter was rejected, so that there was nothing to remove, or `cancelled` fired after the
handler had returned.  An event that fires before is lost. -/
theorem cancellation_honoured_iff (as : List Action) {i : ℕ} {request : StreamRequest}
    (hrequest : ((run env lib initial as).calls i).request = some request)
    (hcount : request.count = 0)
    (hover : ((run env lib initial as).handlers i).isOver = true) :
    CancellationHonoured env lib (run env lib initial as) i ↔
      (∃ message, lib.newBloomFilter request.bloomFilter = .error message) ∨
        CancelledAfterReturn env lib as i := by
  rw [honoured_iff as hrequest hover, ← disconnect_mem_history_iff as hrequest hcount]
  have hphase := run_isInPhase env lib as hrequest hcount
  generalize run env lib initial as = sys at *
  -- with a subscription both sides speak of the disconnect
  have hsubscribed : ∀ {stage}, IsSubscribed env lib request stage (sys.calls i) →
      ((sys.calls i).isRegistered = false ↔
        (∃ message, lib.newBloomFilter request.bloomFilter = .error message) ∨
          .clientDisconnected ∈ (sys.calls i).history) := by
    intro stage hsub
    obtain ⟨filter, hfilter, -⟩ := hsub.subscription
    rw [or_iff_right (by rintro ⟨message, h⟩; rw [hfilter] at h; cases h),
      ← Bool.not_eq_true, isRegistered_iff hsub, not_not]
  cases hprogram : sys.handlers i with
  | done a => exact hsubscribed (hphase.of_done hprogram).1
  | throw e =>
      rcases hphase.of_throw hprogram with ⟨hrejected, hnone⟩ | ⟨stage, hsub, -⟩
      · exact iff_of_true (by rw [Call.isRegistered, hnone]; rfl) (Or.inl hrejected)
      · exact hsubscribed hsub
  | sync op k =>
      rw [hprogram] at hover
      cases hover
  | await r k =>
      rw [hprogram] at hover
      cases hover

/-- The client leaves in the live phase. -/
theorem cancellation_honoured_live :
    CancellationHonoured paymentEnvironment paymentLib
      (paymentRun (.call 0 paymentRequest :: paymentAnswers ++ [.cancelled 0])) 0 := by
  have hrequest : ((paymentRun (.call 0 paymentRequest :: paymentAnswers ++
      [.cancelled 0])).calls 0).request = some paymentRequest := by decide
  have hover : ((paymentRun (.call 0 paymentRequest :: paymentAnswers ++
      [.cancelled 0])).handlers 0).isOver = true := by decide
  have hreturned : HasReturned (paymentRun (.call 0 paymentRequest :: paymentAnswers)) 0 :=
    ⟨by decide, rfl⟩
  refine (cancellation_honoured_iff _ hrequest rfl hover).mpr (Or.inr ?_)
  exact ⟨.call 0 paymentRequest :: paymentAnswers, .cancelled 0, [], rfl, rfl, hreturned⟩

/-- The client leaves while Core is asked for the block to start from: the handler runs to its end,
the emitter stays and the loop goes on. -/
theorem not_cancellation_honoured_early :
    (paymentRun (.call 0 paymentRequest :: .cancelled 0 :: paymentAnswers)).handlers 0 =
        .done () ∧
      0 ∈ (paymentRun (.call 0 paymentRequest :: .cancelled 0 ::
        paymentAnswers)).bloomFilterEmitterCollection ∧
      (paymentRun (.call 0 paymentRequest :: .cancelled 0 :: paymentAnswers)).iterations 0 = 1 ∧
      (paymentRun (.call 0 paymentRequest :: .cancelled 0 :: paymentAnswers ++
        [.wakeUp 0])).iterations 0 = 2 :=
  ⟨rfl, by decide, by decide, by decide⟩

end StreamSystem

end Dapi
