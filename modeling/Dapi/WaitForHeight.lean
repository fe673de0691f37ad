/-
# Waiting for a height

`src/lib/externalApis/tenderdash/waitForHeightFactory.js` with the events of
`src/lib/externalApis/tenderdash/BlockchainListener.js`.

`waitForHeight` keeps the height of the latest `NEW_BLOCK` event, shared by all
its callers.  A call resolves at once, or attaches a handler that is asked at
every later `NEW_BLOCK` event, after the height was set.

* The calls are numbered; `HeightWait` is what a call waits for, with whether its
  promise was resolved.
* `Heard`: what is resolved, a `NEW_BLOCK` event was high enough for.
-/
import Dapi.EventEmitter

namespace Dapi

/-- The events of `BlockchainListener`: `NEW_BLOCK`, and one for each transaction hash,
`transaction:` with the hash. -/
inductive ChainEvent
  | newBlock
  | transaction (hashString : String)
  deriving DecidableEq

/-- The listeners of `BlockchainListener`, those of calls with the numbers of the calls. -/
inductive ChainListener
  | setCurrentHeight
  | heightHandler (i : ℕ)
  | transactionHandler (i : ℕ)
  deriving DecidableEq

/-- A call of `waitForHeight`: the height, and whether its promise was resolved. -/
structure HeightWait where
  height : ℕ
  isResolved : Bool
  deriving DecidableEq

/-- The blockchain listener and what `waitForHeightFactory` keeps. -/
structure HeightState where
  blockchainListener : EventEmitter ChainEvent ChainListener
  currentHeight : ℕ
  waits : ℕ → Option HeightWait

namespace HeightState

/-! ## The code -/

/-- The body of `waitForHeightFactory`. -/
def waitForHeightFactory (blockchainListener : EventEmitter ChainEvent ChainListener) :
    HeightState where
  blockchainListener := blockchainListener.on .newBlock .setCurrentHeight
  currentHeight := 0
  waits := fun _ => none

/-- `waitForHeight(height)`, call number `i`. -/
def waitForHeight (i height : ℕ) (s : HeightState) : HeightState :=
  if height ≤ s.currentHeight then
    { s with waits := Function.update s.waits i (some ⟨height, true⟩) }
  else
    { s with
      waits := Function.update s.waits i (some ⟨height, false⟩)
      blockchainListener := s.blockchainListener.on .newBlock (.heightHandler i) }

/-- The handler of a call, at a `NEW_BLOCK` event. -/
def checkHeight (i : ℕ) (s : HeightState) : HeightState :=
  match s.waits i with
  | some wait =>
    if wait.height ≤ s.currentHeight then
      { s with
        blockchainListener := s.blockchainListener.removeListener .newBlock (.heightHandler i)
        waits := Function.update s.waits i (some { wait with isResolved := true }) }
    else s
  | none => s

/-- One listener for blocks runs; those for transactions take no notice. -/
def runListener (height : ℕ) (listener : ChainListener) (s : HeightState) : HeightState :=
  match listener with
  | .setCurrentHeight => { s with currentHeight := height }
  | .heightHandler i => s.checkHeight i
  | .transactionHandler _ => s

/-- `blockchainListener.emit(NEW_BLOCK, message)`, with the height in the header of the block. -/
def emitNewBlock (height : ℕ) (s : HeightState) : HeightState :=
  EventEmitter.emit blockchainListener
    (fun blockchainListener s => { s with blockchainListener }) (runListener height) .newBlock s

/-! ## What the events and the calls keep -/

variable {s s' : HeightState} {heights : List ℕ} {i j height : ℕ}

/-- A wait is for its height. -/
theorem exists_waitForHeight (i height : ℕ) :
    ∃ wait, (s.waitForHeight i height).waits i = some wait ∧ wait.height = height := by
  unfold waitForHeight
  split_ifs
  · exact ⟨_, Function.update_self i _ s.waits, rfl⟩
  · exact ⟨_, Function.update_self i _ s.waits, rfl⟩

theorem waits_waitForHeight_of_ne (h : j ≠ i) (height : ℕ) :
    (s.waitForHeight i height).waits j = s.waits j := by
  unfold waitForHeight
  split_ifs
  · exact Function.update_of_ne h _ _
  · exact Function.update_of_ne h _ _

/-- **Rule for `NEW_BLOCK`.**  What is about the heights and the calls, and kept by setting the
height and by every handler, is kept by the event. -/
theorem emitNewBlock_invariant {I : ℕ → (ℕ → Option HeightWait) → Prop}
    (hset : ∀ currentHeight waits, I currentHeight waits → I height waits)
    (hresolve : ∀ currentHeight waits i wait, waits i = some wait → wait.height ≤ currentHeight →
      I currentHeight waits →
        I currentHeight (Function.update waits i (some { wait with isResolved := true })))
    (h : I s.currentHeight s.waits) :
    I (s.emitNewBlock height).currentHeight (s.emitNewBlock height).waits := by
  refine EventEmitter.emit_invariant (I := fun s : HeightState => I s.currentHeight s.waits)
    (fun _ _ _ h => h) ?_ h
  intro l s h
  cases l with
  | setCurrentHeight => exact hset _ _ h
  | heightHandler i =>
      show I (s.checkHeight i).currentHeight (s.checkHeight i).waits
      unfold checkHeight
      cases hw : s.waits i with
      | none => exact h
      | some wait =>
          simp only
          split_ifs with hle
          · exact hresolve _ _ i wait hw hle h
          · exact h
  | transactionHandler i => exact h

/-- What a call waits for does not change, and once it is resolved it stays so. -/
def Keeps (waits waits' : ℕ → Option HeightWait) (i : ℕ) : Prop :=
  ∀ wait, waits i = some wait → ∃ wait', waits' i = some wait' ∧ wait'.height = wait.height ∧
    (wait.isResolved = true → wait'.isResolved = true)

/-- A block leaves the heights of the waits. -/
theorem keeps_emitNewBlock (s : HeightState) (height i : ℕ) :
    Keeps s.waits (s.emitNewBlock height).waits i := by
  refine emitNewBlock_invariant (I := fun _ waits => Keeps s.waits waits i) (fun _ _ h => h) ?_ ?_
  · intro currentHeight waits j wait hw _ h wait₀ hw₀
    obtain ⟨wait₁, hw₁, hh, hr⟩ := h wait₀ hw₀
    by_cases hij : i = j
    · subst hij
      obtain rfl : wait = wait₁ := Option.some.inj (hw.symm.trans hw₁)
      exact ⟨_, Function.update_self i _ waits, hh, fun _ => rfl⟩
    · exact ⟨wait₁, (Function.update_of_ne hij _ waits).trans hw₁, hh, hr⟩
  · exact fun wait hw => ⟨wait, hw, rfl, id⟩

/-- The registrations for the transactions are not touched. -/
theorem mem_registrations_emitNewBlock {r : Registration ChainEvent ChainListener}
    (hr : r.event ≠ .newBlock) :
    r ∈ (s.emitNewBlock height).blockchainListener.registrations ↔
      r ∈ s.blockchainListener.registrations := by
  have hother : ∀ (em : EventEmitter ChainEvent ChainListener) l,
      r ∈ (em.removeListener .newBlock l).registrations ↔ r ∈ em.registrations :=
    fun em l => EventEmitter.mem_removeListener_iff fun h => hr h.1
  refine EventEmitter.emit_invariant (I := fun s' : HeightState =>
    r ∈ s'.blockchainListener.registrations ↔ r ∈ s.blockchainListener.registrations)
    ?_ ?_ Iff.rfl
  · intro r' s' hr' h
    show r ∈ (s'.blockchainListener.served r').registrations ↔ _
    unfold EventEmitter.served
    split_ifs
    · rw [hr', hother]
      exact h
    · exact h
  · intro l s' h
    cases l with
    | setCurrentHeight => exact h
    | heightHandler i =>
        show r ∈ (s'.checkHeight i).blockchainListener.registrations ↔ _
        unfold checkHeight
        cases hw : s'.waits i with
        | none => exact h
        | some wait =>
            simp only
            split_ifs
            · rw [hother]
              exact h
            · exact h
    | transactionHandler i => exact h

/-- The current height was heard of, and so was a height for every resolved call. -/
structure Heard (heights : List ℕ) (currentHeight : ℕ) (waits : ℕ → Option HeightWait) : Prop where
  current : currentHeight = 0 ∨ currentHeight ∈ heights
  resolved : ∀ i wait, waits i = some wait → wait.isResolved = true →
    wait.height = 0 ∨ ∃ h ∈ heights, wait.height ≤ h

variable {currentHeight : ℕ} {waits : ℕ → Option HeightWait}

/-- The current height is high enough for a call, so a height that was heard of is. -/
theorem Heard.exists_le (h : Heard heights currentHeight waits) (hle : height ≤ currentHeight) :
    height = 0 ∨ ∃ h ∈ heights, height ≤ h := by
  rcases h.current with hzero | hmem
  · exact Or.inl (by omega)
  · exact Or.inr ⟨_, hmem, hle⟩

theorem Heard.mono (h : Heard heights currentHeight waits) (hs : List ℕ) :
    Heard (heights ++ hs) currentHeight waits where
  current := h.current.imp_right fun hmem => List.mem_append_left _ hmem
  resolved := fun i wait hw hr => by
    refine (h.resolved i wait hw hr).imp_right ?_
    rintro ⟨h₁, hmem, hle⟩
    exact ⟨h₁, List.mem_append_left _ hmem, hle⟩

/-- One call changes. -/
theorem Heard.update (h : Heard heights currentHeight waits) {wait : HeightWait}
    (hwait : wait.isResolved = true → wait.height = 0 ∨ ∃ h ∈ heights, wait.height ≤ h) :
    Heard heights currentHeight (Function.update waits i (some wait)) := by
  refine ⟨h.current, fun j wait' hw hr => ?_⟩
  by_cases hji : j = i
  · rw [hji, Function.update_self] at hw
    cases hw
    exact hwait hr
  · rw [Function.update_of_ne hji] at hw
    exact h.resolved j wait' hw hr

/-- A wait that is over at once is for a height that was heard of. -/
theorem Heard.waitForHeight (h : Heard heights s.currentHeight s.waits) (i height : ℕ) :
    Heard heights (s.waitForHeight i height).currentHeight (s.waitForHeight i height).waits := by
  unfold HeightState.waitForHeight
  split_ifs with hle
  · exact h.update fun _ => h.exists_le hle
  · exact h.update fun hr => by cases hr

/-- **A `NEW_BLOCK` event is heard.** -/
theorem Heard.emitNewBlock (h : Heard heights s.currentHeight s.waits) (height : ℕ) :
    Heard (heights ++ [height]) (s.emitNewBlock height).currentHeight
      (s.emitNewBlock height).waits := by
  refine emitNewBlock_invariant (I := Heard (heights ++ [height])) ?_ ?_ (h.mono [height])
  · exact fun _ _ h₁ => ⟨Or.inr (by simp), h₁.resolved⟩
  · exact fun _ _ i wait _ hle h₁ => h₁.update fun _ => h₁.exists_le hle

end HeightState

end Dapi
