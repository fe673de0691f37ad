/-
# No waiter for a height is forgotten

`src/lib/externalApis/tenderdash/waitForHeightFactory.js`.  The listener that sets the
height was attached before every handler, so it runs before them at each `NEW_BLOCK`
event; a handler that finds its height reached detaches itself while the event is being
delivered.

* `Attended`: the `NEW_BLOCK` listeners are the one that sets the height, then one handler
  for each call that waits, and the calls that wait do so for a higher height.
* `Attended.emitNewBlock`: what an event does to all calls at once.
* `waiters_served`: a call is resolved at once or at the first event that is high enough.
-/
import Dapi.WaitForHeight
import Dapi.Trace

namespace Dapi

namespace HeightState

variable {s : HeightState} {ids kept todo : List ℕ} {i height : ℕ}

/-! ## The calls that wait -/

/-- The call was made and its promise is pending. -/
def Waiting (s : HeightState) (i : ℕ) : Prop :=
  ∃ wait, s.waits i = some wait ∧ wait.isResolved = false

/-- The registration that sets the height. -/
def setRegistration : Registration ChainEvent ChainListener :=
  ⟨.newBlock, .setCurrentHeight, false⟩

/-- The registration of the handler of a call. -/
def heightRegistration (i : ℕ) : Registration ChainEvent ChainListener :=
  ⟨.newBlock, .heightHandler i, false⟩

/-- The listeners for `NEW_BLOCK` are the one that sets the height and the handlers of the
calls. -/
def Listens (s : HeightState) (ids : List ℕ) : Prop :=
  s.blockchainListener.listeners .newBlock = setRegistration :: ids.map heightRegistration

/-- The calls that wait are attended to, and none of them waits for a height that is reached. -/
structure Attended (s : HeightState) (ids : List ℕ) : Prop where
  nodup : ids.Nodup
  mem_iff : ∀ i, i ∈ ids ↔ s.Waiting i
  listens : s.Listens ids
  above : ∀ i wait, s.waits i = some wait → wait.isResolved = false →
    s.currentHeight < wait.height

/-- At first nobody waits. -/
theorem attended_waitForHeightFactory (em : EventEmitter ChainEvent ChainListener)
    (hem : em.listeners .newBlock = []) : Attended (waitForHeightFactory em) [] where
  nodup := List.nodup_nil
  mem_iff := fun i => by simp [Waiting, waitForHeightFactory]
  listens := by simp [Listens, waitForHeightFactory, hem, setRegistration]
  above := fun i wait h => by cases h

/-- What else changes does not matter to the calls. -/
theorem Attended.of_eq {s' : HeightState} (h : Attended s ids)
    (hlisteners : s'.blockchainListener.listeners .newBlock =
      s.blockchainListener.listeners .newBlock)
    (hcurrent : s'.currentHeight = s.currentHeight) (hwaits : s'.waits = s.waits) :
    Attended s' ids where
  nodup := h.nodup
  mem_iff := fun i => by
    rw [Waiting, hwaits]
    exact h.mem_iff i
  listens := hlisteners.trans h.listens
  above := by
    rw [hwaits, hcurrent]
    exact h.above

/-! ## A call -/

@[simp] theorem waitForHeight_currentHeight (i height : ℕ) :
    (s.waitForHeight i height).currentHeight = s.currentHeight := by
  unfold waitForHeight
  split_ifs <;> rfl

/-- A wait is over at once when the height was reached before. -/
theorem waitForHeight_waits (i height : ℕ) :
    (s.waitForHeight i height).waits =
      Function.update s.waits i (some ⟨height, decide (height ≤ s.currentHeight)⟩) := by
  unfold waitForHeight
  split_ifs with hle <;> simp [hle]

/-- Only the call itself may start to wait. -/
theorem waiting_waitForHeight_iff (i height j : ℕ) :
    (s.waitForHeight i height).Waiting j ↔
      if j = i then s.currentHeight < height else s.Waiting j := by
  rw [Waiting, waitForHeight_waits]
  split_ifs with hji
  · rw [hji, Function.update_self]
    simp
  · rw [Function.update_of_ne hji, Waiting]

/-- A handler is attached when the height is not reached. -/
theorem Listens.waitForHeight (hl : s.Listens ids) (i height : ℕ) :
    (s.waitForHeight i height).Listens
      (if height ≤ s.currentHeight then ids else ids ++ [i]) := by
  unfold HeightState.waitForHeight
  split_ifs
  · exact hl
  · show (s.blockchainListener.on .newBlock (.heightHandler i)).listeners .newBlock = _
    rw [EventEmitter.listeners_on_self, hl, List.map_append]
    rfl

/-- A new call is resolved at once, or it is attended to from now on. -/
theorem Attended.waitForHeight (h : Attended s ids) (hi : s.waits i = none) (height : ℕ) :
    Attended (s.waitForHeight i height)
      (if height ≤ s.currentHeight then ids else ids ++ [i]) := by
  have hnot : i ∉ ids := by
    rw [h.mem_iff]
    rintro ⟨wait, hw, -⟩
    rw [hi] at hw
    cases hw
  refine ⟨?_, fun j => ?_, h.listens.waitForHeight i height, fun j wait hw hr => ?_⟩
  · split_ifs
    · exact h.nodup
    · exact h.nodup.append (List.nodup_singleton i) (by simpa using hnot)
  · -- the call itself waits when its height is not reached
    rw [waiting_waitForHeight_iff]
    by_cases hji : j = i
    · subst hji
      by_cases hle : height ≤ s.currentHeight
      · simp [hle, hnot, Nat.not_lt.mpr hle]
      · simp [hle, Nat.not_le.mp hle]
    · rw [if_neg hji, ← h.mem_iff]
      split_ifs <;> simp [hji]
  · rw [waitForHeight_currentHeight]
    rw [waitForHeight_waits] at hw
    by_cases hji : j = i
    · rw [hji, Function.update_self] at hw
      cases hw
      exact Nat.not_le.mp (of_decide_eq_false hr)
    · rw [Function.update_of_ne hji] at hw
      exact h.above j wait hw hr

/-! ## An event -/

/-- What an event with this height means to a call. -/
def settle (height : ℕ) (wait : HeightWait) : HeightWait :=
  { wait with isResolved := wait.isResolved || decide (wait.height ≤ height) }

/-- Whether an event with this height leaves the call waiting. -/
def outlasts (s : HeightState) (height i : ℕ) : Bool :=
  (s.waits i).any fun wait => decide (height < wait.height)

/-- The handler of a call that is next in turn. -/
theorem checkHeight_spec (hl : s.Listens (kept ++ i :: todo))
    (hnd : (kept ++ i :: todo).Nodup) {wait : HeightWait} (hw : s.waits i = some wait) :
    (s.checkHeight i).currentHeight = s.currentHeight ∧
      (s.checkHeight i).waits =
        Function.update s.waits i (some (settle s.currentHeight wait)) ∧
      (s.checkHeight i).Listens
        ((if s.currentHeight < wait.height then kept ++ [i] else kept) ++ todo) := by
  unfold checkHeight
  rw [hw]
  simp only
  by_cases hle : wait.height ≤ s.currentHeight
  · rw [if_pos hle, if_neg (Nat.not_lt.mpr hle)]
    refine ⟨rfl, by simp [settle, hle], ?_⟩
    show (s.blockchainListener.removeListener .newBlock (.heightHandler i)).listeners .newBlock = _
    rw [EventEmitter.listeners_removeListener_self, hl, List.map_append, List.map_cons,
      ← List.cons_append]
    -- the handler that runs detaches itself, the last registration of its call
    refine (Splice.removeLast_append_cons_of_pos ?_ ?_).trans ?_
    · simp [heightRegistration]
    · -- the handlers after it are those of other calls
      intro r hr
      obtain ⟨j, hj, rfl⟩ := List.mem_map.mp hr
      have hji : j ≠ i := by
        rintro rfl
        exact (List.nodup_cons.mp (List.nodup_append.mp hnd).2.1).1 hj
      simp [heightRegistration, hji]
    · rw [List.cons_append, ← List.map_append]
  · rw [if_neg hle, if_pos (Nat.not_le.mp hle)]
    refine ⟨rfl, ?_, ?_⟩
    · have hsame : settle s.currentHeight wait = wait := by
        simp [settle, hle]
      rw [hsame, ← hw, Function.update_eq_self]
    · rw [List.append_assoc]
      exact hl

/-- The handlers that are still to run, after some that stayed. -/
theorem foldl_checkHeight (hl : s.Listens (kept ++ todo)) (hnd : (kept ++ todo).Nodup)
    (hw : ∀ i ∈ todo, ∃ wait, s.waits i = some wait) :
    (todo.foldl (fun s i => s.checkHeight i) s).currentHeight = s.currentHeight ∧
      (∀ j, (todo.foldl (fun s i => s.checkHeight i) s).waits j =
        if j ∈ todo then (s.waits j).map (settle s.currentHeight) else s.waits j) ∧
      (todo.foldl (fun s i => s.checkHeight i) s).Listens
        (kept ++ todo.filter (s.outlasts s.currentHeight)) := by
  -- the handlers that stayed stand in `kept`, before those that are still to run
  induction todo generalizing s kept with
  | nil => exact ⟨rfl, fun j => by simp, by simpa using hl⟩
  | cons i todo ih =>
      obtain ⟨wait, hwait⟩ := hw i List.mem_cons_self
      obtain ⟨hcur, hwaits, hlistens⟩ := checkHeight_spec hl hnd hwait
      have hnot : i ∉ todo := (List.nodup_cons.mp (List.nodup_append.mp hnd).2.1).1
      have hsame : ∀ j ∈ todo, (s.checkHeight i).waits j = s.waits j := by
        intro j hj
        have hji : j ≠ i := by
          rintro rfl
          exact hnot hj
        rw [hwaits]
        exact Function.update_of_ne hji _ _
      have hnd' : ((if s.currentHeight < wait.height then kept ++ [i] else kept) ++
          todo).Nodup := by
        split_ifs
        · rwa [List.append_assoc]
        · exact hnd.sublist ((List.Sublist.refl kept).append (List.sublist_cons_self i todo))
      obtain ⟨hcur', hwaits', hlistens'⟩ := ih hlistens hnd' fun j hj => by
        rw [hsame j hj]
        exact hw j (List.mem_cons_of_mem i hj)
      rw [List.foldl_cons]
      refine ⟨hcur'.trans hcur, fun j => ?_, ?_⟩
      · rw [hwaits', hcur]
        by_cases hj : j ∈ todo
        · rw [if_pos hj, if_pos (List.mem_cons_of_mem i hj), hsame j hj]
        · rw [if_neg hj, hwaits]
          by_cases hji : j = i
          · subst hji
            rw [Function.update_self, if_pos List.mem_cons_self, hwait, Option.map_some]
          · rw [Function.update_of_ne hji, if_neg (by simp [hji, hj])]
      · -- the next handlers have not been touched, so they stay or go as they would have
        have hfilter : todo.filter ((s.checkHeight i).outlasts (s.checkHeight i).currentHeight) =
            todo.filter (s.outlasts s.currentHeight) := by
          refine List.filter_congr fun j hj => ?_
          rw [outlasts, outlasts, hcur, hsame j hj]
        rw [hfilter] at hlistens'
        have hhead : s.outlasts s.currentHeight i = decide (s.currentHeight < wait.height) := by
          rw [outlasts, hwait]
          rfl
        rw [List.filter_cons, hhead]
        by_cases hlt : s.currentHeight < wait.height
        · rw [if_pos hlt, List.append_assoc] at hlistens'
          rw [if_pos (by simpa using hlt)]
          exact hlistens'
        · rw [if_neg hlt] at hlistens'
          rw [if_neg (by simpa using hlt)]
          exact hlistens'

/-- The listener that sets the height runs first, then the handlers in turn. -/
theorem emitNewBlock_eq (hl : s.Listens ids) (height : ℕ) :
    s.emitNewBlock height =
      ids.foldl (fun s i => s.checkHeight i) { s with currentHeight := height } := by
  rw [emitNewBlock, EventEmitter.emit, hl, List.foldl_cons, List.foldl_map]
  rfl

/-- **An event releases the calls that it is high enough for**, all of them and no others. -/
theorem Attended.emitNewBlock (h : Attended s ids) (height : ℕ) :
    (s.emitNewBlock height).currentHeight = height ∧
      (∀ j, (s.emitNewBlock height).waits j = (s.waits j).map (settle height)) ∧
      Attended (s.emitNewBlock height) (ids.filter (s.outlasts height)) := by
  have hwaiting : ∀ i ∈ ids, ∃ wait, s.waits i = some wait := by
    intro i hi
    obtain ⟨wait, hw, -⟩ := (h.mem_iff i).mp hi
    exact ⟨wait, hw⟩
  -- no handler has run yet, and so none has stayed
  have hl : Listens { s with currentHeight := height } ([] ++ ids) := h.listens
  obtain ⟨hcur, hwaits, hlistens⟩ := foldl_checkHeight hl h.nodup hwaiting
  rw [← emitNewBlock_eq h.listens] at hcur hwaits hlistens
  have hall : ∀ j, (s.emitNewBlock height).waits j = (s.waits j).map (settle height) := by
    intro j
    rw [hwaits]
    split_ifs with hj
    · rfl
    · -- a call that is over stays as it is
      show s.waits j = _
      cases hw : s.waits j with
      | none => rfl
      | some wait =>
          have hr : wait.isResolved = true := by
            by_contra hr
            exact hj ((h.mem_iff j).mpr ⟨wait, hw, by simpa using hr⟩)
          rw [Option.map_some, settle, hr]
          obtain ⟨height', r⟩ := wait
          obtain rfl : r = true := hr
          rfl
  refine ⟨hcur, hall, h.nodup.filter _, fun j => ?_, hlistens, fun j wait hw hr => ?_⟩
  · rw [List.mem_filter, h.mem_iff, Waiting, Waiting, hall, outlasts]
    constructor
    · rintro ⟨⟨wait, hw, hr⟩, hlt⟩
      rw [hw] at hlt ⊢
      have hlt' : height < wait.height := by simpa using hlt
      exact ⟨_, rfl, by simp [settle, hr, Nat.not_le.mpr hlt']⟩
    · rintro ⟨wait', hw', hr'⟩
      obtain ⟨wait, hw, rfl⟩ := Option.map_eq_some_iff.mp hw'
      simp only [settle, Bool.or_eq_false_iff, decide_eq_false_iff_not, not_le] at hr'
      rw [hw]
      exact ⟨⟨wait, rfl, hr'.1⟩, by simpa using hr'.2⟩
  · rw [hall] at hw
    obtain ⟨wait', hw', rfl⟩ := Option.map_eq_some_iff.mp hw
    simp only [settle, Bool.or_eq_false_iff, decide_eq_false_iff_not, not_le] at hr
    rw [hcur]
    exact hr.2

/-! ## Runs -/

/-- What can happen: a `NEW_BLOCK` event, or the call number `i`. -/
inductive Action
  | newBlock (height : ℕ)
  | waitForHeight (i height : ℕ)

/-- The state after an action; a number names one call only. -/
def step (s : HeightState) : Action → HeightState
  | .newBlock height => s.emitNewBlock height
  | .waitForHeight i height => if s.waits i = none then s.waitForHeight i height else s

/-- A run, from the call of the factory on. -/
def run (as : List Action) : HeightState := Machine.run step (waitForHeightFactory .empty) as

/-- The height of the latest `NEW_BLOCK` event, and `0` before the first one. -/
def latestHeight : List Action → ℕ :=
  List.foldl (fun latest a =>
    match a with
    | .newBlock height => height
    | .waitForHeight _ _ => latest) 0

/-- **Every action keeps the calls attended to.** -/
theorem Attended.step (h : Attended s ids) (a : Action) : ∃ ids, Attended (s.step a) ids := by
  cases a with
  | newBlock height => exact ⟨_, (h.emitNewBlock height).2.2⟩
  | waitForHeight i height =>
      unfold HeightState.step
      simp only
      split_ifs with hi
      · exact ⟨_, h.waitForHeight hi height⟩
      · exact ⟨ids, h⟩

/-- **Every open wait has its listener**, in every run. -/
theorem exists_attended_run (as : List Action) : ∃ ids, Attended (run as) ids :=
  Machine.run_invariant (I := fun s => ∃ ids, Attended s ids) (fun _ a ⟨_, h⟩ => h.step a)
    ⟨[], attended_waitForHeightFactory .empty rfl⟩ as

theorem run_snoc (as : List Action) (a : Action) : run (as ++ [a]) = (run as).step a :=
  Machine.run_append step _ as [a]

/-- The current height is the one of the latest block. -/
theorem run_currentHeight (as : List Action) : (run as).currentHeight = latestHeight as := by
  induction as using List.reverseRecOn with
  | nil => rfl
  | append_singleton as a ih =>
      obtain ⟨ids, h⟩ := exists_attended_run as
      rw [run_snoc, latestHeight, List.foldl_append]
      cases a with
      | newBlock height => exact (h.emitNewBlock height).1
      | waitForHeight i height =>
          show (if (run as).waits i = none then _ else _ : HeightState).currentHeight = _
          split_ifs
          · rw [waitForHeight_currentHeight]
            exact ih
          · exact ih

/-- What becomes of a call. -/
theorem waits_run_of_some {before : List Action} {wait : HeightWait}
    (hw : (run before).waits i = some wait) (after : List Action) :
    ∃ wait', (run (before ++ after)).waits i = some wait' ∧ wait'.height = wait.height ∧
      (wait'.isResolved = true ↔ wait.isResolved = true ∨
        ∃ height, .newBlock height ∈ after ∧ wait.height ≤ height) := by
  induction after using List.reverseRecOn with
  | nil => exact ⟨wait, by rwa [List.append_nil], rfl, by simp⟩
  | append_singleton after a ih =>
      obtain ⟨wait', hw', hheight, hr⟩ := ih
      obtain ⟨ids, h⟩ := exists_attended_run (before ++ after)
      rw [← List.append_assoc, run_snoc]
      cases a with
      | newBlock height =>
          refine ⟨settle height wait', ?_, hheight, ?_⟩
          · show ((run (before ++ after)).emitNewBlock height).waits i = _
            rw [(h.emitNewBlock height).2.1, hw', Option.map_some]
          · simp only [settle, Bool.or_eq_true, hr, decide_eq_true_eq, hheight, List.mem_append,
              List.mem_singleton, Action.newBlock.injEq, or_and_right, exists_or, exists_eq_left,
              or_assoc]
      | waitForHeight j height =>
          refine ⟨wait', ?_, hheight, ?_⟩
          · show (if (run (before ++ after)).waits j = none then _ else _ : HeightState).waits i = _
            split_ifs with hj
            · have hij : i ≠ j := by
                rintro rfl
                rw [hw'] at hj
                cases hj
              rw [waits_waitForHeight_of_ne hij]
              exact hw'
            · exact hw'
          · rw [hr]
            simp

/-- **No waiter for a height is forgotten.**  A call is resolved at once when the height of the
latest `NEW_BLOCK` event is high enough, and otherwise at the first later event that is, so
that it is resolved at any later time exactly when one of the two has happened; whoever waits
does so for a height above the current one; and the `NEW_BLOCK` listeners are one more than
the calls that wait. -/
theorem waiters_served (as : List Action) :
    (∀ before i target after, as = before ++ .waitForHeight i target :: after →
        (run before).waits i = none →
          ∃ wait, (run as).waits i = some wait ∧ wait.height = target ∧
            (wait.isResolved = true ↔ target ≤ latestHeight before ∨
              ∃ height, .newBlock height ∈ after ∧ target ≤ height)) ∧
      (∀ i wait, (run as).waits i = some wait → wait.isResolved = false →
        latestHeight as < wait.height) ∧
      ((run as).blockchainListener.listeners .newBlock).length =
        1 + {i | (run as).Waiting i}.ncard := by
  obtain ⟨ids, h⟩ := exists_attended_run as
  refine ⟨?_, fun i wait hw hr => ?_, ?_⟩
  · rintro before i target after rfl hi
    have hcall : (run (before ++ [.waitForHeight i target])).waits i =
        some ⟨target, decide (target ≤ latestHeight before)⟩ := by
      rw [run_snoc]
      show (if (run before).waits i = none then _ else _ : HeightState).waits i = _
      rw [if_pos hi, waitForHeight_waits, Function.update_self, run_currentHeight]
    obtain ⟨wait, hw, hheight, hr⟩ := waits_run_of_some hcall after
    rw [List.append_assoc] at hw
    exact ⟨wait, hw, hheight, by simpa using hr⟩
  · rw [← run_currentHeight]
    exact h.above i wait hw hr
  · have hids : {i | (run as).Waiting i} = ↑ids.toFinset := by
      ext i
      simp [← h.mem_iff]
    rw [hids, Set.ncard_coe_finset, List.toFinset_card_of_nodup h.nodup, h.listens,
      List.length_cons, List.length_map, Nat.add_comm]

/-- Two calls wait for the same height, a third one for a higher one. -/
def threeWaiters : List Action :=
  [.newBlock 4, .waitForHeight 0 5, .waitForHeight 1 6, .waitForHeight 2 5, .newBlock 5]

/-- The event releases two of them at once. -/
theorem waiters_served_three :
    (∃ wait, (run threeWaiters).waits 2 = some wait ∧ wait.height = 5 ∧
        wait.isResolved = true) ∧
      ((run threeWaiters).blockchainListener.listeners .newBlock).length =
        1 + {i | (run threeWaiters).Waiting i}.ncard := by
  obtain ⟨hcall, -, hlength⟩ := waiters_served threeWaiters
  refine ⟨?_, hlength⟩
  obtain ⟨wait, hw, hheight, hr⟩ := hcall
    [.newBlock 4, .waitForHeight 0 5, .waitForHeight 1 6] 2 5 [.newBlock 5] rfl rfl
  exact ⟨wait, hw, hheight, hr.mpr (Or.inr ⟨5, by simp, le_rfl⟩)⟩

end HeightState

end Dapi
