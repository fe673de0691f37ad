/-
# After a disconnect

`CLIENT_DISCONNECTED` takes away every listener of the mediator and of the filter
emitter and takes the emitter out of the collection.  What is left of the
subscription is the loop, suspended in its `wait` when it was started.

* `Silent` says what such a subscription keeps while anything happens to it.
* `wakeUps` counts the wake-ups that find the loop suspended.
* `silent_after_disconnect`: from a disconnect on, at whatever point of a run it
  comes, the subscription is silent, and its loop wakes up at most once more.
-/
import Dapi.CallLifecycle

namespace Dapi

/-- The response that a listener of the handler sends for an event with data. -/
def TraceEvent.liveResponse : TraceEvent → Option Response
  | .sentLive response => some response
  | _ => none

/-- A quiet event is no response. -/
theorem TraceEvent.Quiet.liveResponse {e : TraceEvent} (h : e.Quiet) :
    e.liveResponse = none := by
  cases e with
  | sentLive response => exact h.elim
  | _ => rfl

namespace Subscription

variable {F : Type} (env : Environment F) {s : Subscription F}

/-- What the listeners of `TRANSACTION`, `MERKLE_BLOCK` and `INSTANT_LOCK` have sent: one response
for each time that one of them was invoked. -/
def liveResponses (s : Subscription F) : List Response :=
  s.trace.filterMap TraceEvent.liveResponse

/-- Whether the action is a wake-up that finds the loop suspended. -/
def wakes (s : Subscription F) : Action → Bool
  | .wakeUp => decide (s.loop = .waiting)
  | _ => false

/-- How often the loop is woken up during a run. -/
def wakeUps : Subscription F → List Action → ℕ
  | _, [] => 0
  | s, a :: as => (s.wakes a).toNat + wakeUps (step env s a) as

/-- What a subscription that is silent since the state `s` looks like. -/
structure Silent (s s' : Subscription F) : Prop where
  /-- no collection holds its emitter -/
  unregistered : ∀ (sys : StreamSystem F) (i : ℕ), (sys.calls i).subscription = some s' →
    i ∉ sys.bloomFilterEmitterCollection
  /-- the mediator has no listeners, and none was invoked -/
  listeners : ∀ name, s'.mediator.listeners name = []
  responses : s'.liveResponses = s.liveResponses
  iterations : s'.iterations = s.iterations
  cache : s'.cache = s.cache

/-! ## One step -/

/-- Nothing but a wake-up changes the registrations or the loop. -/
theorem wiring_of_disconnected (hw : Wired s) (hc : s.isClientConnected = false) {a : Action}
    (hwake : a ≠ .wakeUp) : (step env s a).wiring = s.wiring := by
  by_cases hmem : a = .memPoolDataSent
  · subst hmem
    show (s.emit .memPoolDataSent).wiring = s.wiring
    rw [hw.emit_of_disconnected hc]
    rfl
  · by_cases hdisc : a = .clientDisconnected
    · subst hdisc
      show (s.emit .clientDisconnected).wiring = s.wiring
      rw [hw.emit_of_disconnected hc]
      rfl
    · exact step_wiring env hw hmem hdisc hwake

/-- The wake-up ends the loop. -/
theorem loop_of_disconnected (hw : Wired s) (hc : s.isClientConnected = false) (a : Action) :
    (step env s a).loop = if s.wakes a then .ended else s.loop := by
  by_cases hwake : a = .wakeUp
  · subst hwake
    show (if s.loop = .waiting then s.continueLoop else s).loop = _
    by_cases hl : s.loop = .waiting
    · rw [if_pos hl, continueLoop_waiting hw hl, hc]
      simp [wakes, hl]
    · simp [wakes, hl]
  · have hnot : s.wakes a = false := by
      cases a with
      | wakeUp => exact absurd rfl hwake
      | _ => rfl
    rw [hnot]
    exact congrArg Wiring.loop (wiring_of_disconnected env hw hc hwake)

/-- A disconnected subscription stays disconnected. -/
theorem disconnected_step (hw : Wired s) (hc : s.isClientConnected = false) (a : Action) :
    (step env s a).isClientConnected = false := by
  rw [← Bool.not_eq_true, step_isClientConnected env hw, hc]
  simp

/-- After the disconnect nothing more is sent. -/
theorem liveResponses_of_disconnected (hw : Wired s) (hc : s.isClientConnected = false)
    (a : Action) : (step env s a).liveResponses = s.liveResponses :=
  (quiet_of_disconnected env hw hc a).1.filterMap_eq fun _ he => he.liveResponse

/-! ## Runs -/

/-- **A disconnected subscription stays silent.** -/
theorem silent_run (hw : Wired s) (hc : s.isClientConnected = false) (as : List Action) :
    Silent s (run env s as) := by
  have hkept : Wired (run env s as) ∧ (run env s as).isClientConnected = false ∧
      (run env s as).liveResponses = s.liveResponses ∧
      (run env s as).iterations = s.iterations ∧ (run env s as).cache = s.cache := by
    refine Machine.run_invariant (I := fun s' : Subscription F => Wired s' ∧
      s'.isClientConnected = false ∧ s'.liveResponses = s.liveResponses ∧
      s'.iterations = s.iterations ∧ s'.cache = s.cache) ?_ ⟨hw, hc, rfl, rfl, rfl⟩ as
    rintro s' a ⟨hw', hc', hresponses, hiterations, hcache⟩
    obtain ⟨hrest, hcache'⟩ := step_of_disconnected env hw' hc' a
    exact ⟨hw'.step env a, disconnected_step env hw' hc' a,
      (liveResponses_of_disconnected env hw' hc' a).trans hresponses,
      hrest.trans hiterations, hcache'.trans hcache⟩
  obtain ⟨hw', hc', hresponses, hiterations, hcache⟩ := hkept
  refine ⟨?_, ?_, hresponses, hiterations, hcache⟩
  · intro sys i hs hmem
    have hreg : (run env s as).isRegistered = (run env s as).isClientConnected := hw'.registered
    have hin := (StreamSystem.mem_bloomFilterEmitterCollection.mp hmem).2
    rw [Call.isRegistered, hs, Option.any_some, hreg, hc'] at hin
    cases hin
  · intro name
    rw [hw'.mediator_of_disconnected hc']
    rfl

/-- **The loop is woken up at most once**, and not at all when it is not suspended. -/
theorem wakeUps_le (hw : Wired s) (hc : s.isClientConnected = false) (as : List Action) :
    wakeUps env s as ≤ if s.loop = .waiting then 1 else 0 := by
  induction as generalizing s with
  | nil => exact Nat.zero_le _
  | cons a as ih =>
      have hrest := ih (hw.step env a) (disconnected_step env hw hc a)
      rw [loop_of_disconnected env hw hc a] at hrest
      rw [wakeUps]
      cases hwakes : s.wakes a with
      | false =>
          rw [hwakes] at hrest
          simpa using hrest
      | true =>
          -- this wake-up found the loop suspended and ended it
          have hl : s.loop = .waiting := by
            cases a with
            | wakeUp => simpa [wakes] using hwakes
            | _ => cases hwakes
          rw [hwakes] at hrest
          simp at hrest
          simp [hl, hrest]

/-- **After a disconnect a subscription is silent**, at whatever point of a run the disconnect comes
and however the run goes on: its emitter is in no collection, no listener of the mediator is
invoked again, the loop is woken up at most once and iterates no more, and the cache stays. -/
theorem silent_after_disconnect (filter : F) (before after : List Action) :
    Silent (run env (start filter) (before ++ [.clientDisconnected]))
        (run env (start filter) (before ++ .clientDisconnected :: after)) ∧
      wakeUps env (run env (start filter) (before ++ [.clientDisconnected])) after ≤ 1 := by
  have hw := run_wired env filter (before ++ [.clientDisconnected])
  have hc : (run env (start filter) (before ++ [.clientDisconnected])).isClientConnected =
      false := by
    rw [← Bool.not_eq_true, run_isClientConnected env filter]
    simp
  have hsplit : before ++ .clientDisconnected :: after =
      (before ++ [.clientDisconnected]) ++ after := by simp
  rw [hsplit, run_append env (start filter) _ after]
  constructor
  · exact silent_run env hw hc after
  · refine (wakeUps_le env hw hc after).trans ?_
    split_ifs
    · exact Nat.le_refl 1
    · exact Nat.zero_le 1

end Subscription

end Dapi
