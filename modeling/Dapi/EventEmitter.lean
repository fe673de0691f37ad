/-
# Event emitters

The observer pattern of an event-driven runtime.  An emitter holds its
registrations in the order they were made; emitting an event takes a snapshot
of the listeners registered for it and runs them in order, each on the state
that the ones before it left.  A `once` registration is dropped right before
its listener runs.  Removing a listener drops its most recent registration.

Listeners are defunctionalised: `ℓ` is a type of listener names, and the state
transformer a name stands for is given where the event is emitted.

`forEach` is the array loop whose body may raise an exception, which ends the
loop; `emitThrowing` is `emit` for listeners that may raise.  In a `Distinct`
emitter the removal of a listener leaves no other registration of it.
-/
import Dapi.Splice

/-- One registration of a listener for an event. -/
structure Registration (ε ℓ : Type*) where
  event : ε
  listener : ℓ
  once : Bool
  deriving DecidableEq

/-- An event emitter: its registrations, oldest first. -/
structure EventEmitter (ε ℓ : Type*) where
  registrations : List (Registration ε ℓ)

/-! ## Loops whose body may raise -/

section ForEach

variable {α τ σ : Type*}

/-- `xs.forEach(f)`: the first exception ends the loop. -/
def forEach (f : α → σ → Except τ Unit × σ) : List α → σ → Except τ Unit × σ
  | [], s => (.ok (), s)
  | x :: xs, s =>
    match f x s with
    | (.ok (), s') => forEach f xs s'
    | (.error e, s') => (.error e, s')

/-- The loop goes on after a listener that raises nothing. -/
theorem forEach_cons_ok {f : α → σ → Except τ Unit × σ} {x : α} {xs : List α} {s s' : σ}
    (h : f x s = (.ok (), s')) : forEach f (x :: xs) s = forEach f xs s' := by
  rw [forEach, h]

/-- The loop stops at the listener that raises. -/
theorem forEach_cons_error {f : α → σ → Except τ Unit × σ} {x : α} {xs : List α} {s s' : σ}
    {e : τ} (h : f x s = (.error e, s')) : forEach f (x :: xs) s = (.error e, s') := by
  rw [forEach, h]

/-- **Loop rule.**  What every run of the body keeps, the loop keeps, however it ends. -/
theorem forEach_invariant {I : σ → Prop} {f : α → σ → Except τ Unit × σ} {xs : List α}
    (hf : ∀ x ∈ xs, ∀ s, I s → I (f x s).2) {s : σ} (hs : I s) : I (forEach f xs s).2 := by
  induction xs generalizing s with
  | nil => exact hs
  | cons x xs ih =>
      have hx := hf x List.mem_cons_self s hs
      rcases hfx : f x s with ⟨r, s'⟩
      rw [hfx] at hx
      cases r with
      | ok _ =>
          rw [forEach_cons_ok hfx]
          exact ih (fun y hy => hf y (List.mem_cons_of_mem _ hy)) hx
      | error e =>
          rw [forEach_cons_error hfx]
          exact hx

/-- A loop whose body never raises does not raise. -/
theorem forEach_result_ok {f : α → σ → Except τ Unit × σ} {xs : List α}
    (hf : ∀ x ∈ xs, ∀ s, (f x s).1 = .ok ()) (s : σ) : (forEach f xs s).1 = .ok () := by
  induction xs generalizing s with
  | nil => rfl
  | cons x xs ih =>
      have hx := hf x List.mem_cons_self s
      rcases hfx : f x s with ⟨r, s'⟩
      rw [hfx] at hx
      obtain rfl : r = .ok () := hx
      rw [forEach_cons_ok hfx]
      exact ih (fun y hy => hf y (List.mem_cons_of_mem _ hy)) s'

/-- **Loop rule for a loop that ends well.**  What the body keeps holds at the end, and so does
what the body achieves for each element and keeps for the earlier ones. -/
theorem forEach_ok {I : σ → Prop} {Q : α → σ → Prop} {f : α → σ → Except τ Unit × σ}
    {xs : List α} (hf : ∀ x ∈ xs, ∀ s s', I s → f x s = (.ok (), s') → I s' ∧ Q x s')
    (hQ : ∀ x y s s', I s → Q x s → f y s = (.ok (), s') → Q x s') {s : σ} (hs : I s)
    (hok : (forEach f xs s).1 = .ok ()) :
    I (forEach f xs s).2 ∧ ∀ x, x ∈ xs ∨ Q x s → Q x (forEach f xs s).2 := by
  induction xs generalizing s with
  | nil => exact ⟨hs, fun x h => h.resolve_left List.not_mem_nil⟩
  | cons y ys ih =>
      rcases hfy : f y s with ⟨r, s'⟩
      cases r with
      | ok _ =>
          obtain ⟨hs', hy⟩ := hf y List.mem_cons_self s s' hs hfy
          rw [forEach_cons_ok hfy] at hok ⊢
          obtain ⟨hend, hall⟩ := ih (fun x hx => hf x (List.mem_cons_of_mem _ hx)) hs' hok
          refine ⟨hend, fun x h => hall x ?_⟩
          rcases h with h | h
          · rcases List.mem_cons.mp h with rfl | h
            · exact Or.inr hy
            · exact Or.inl h
          · exact Or.inr (hQ x y s s' hs h hfy)
      | error e =>
          rw [forEach_cons_error hfy] at hok
          cases hok

/-- **Loop rule for two loops over the same elements**, whose rounds end alike in related states. -/
theorem forEach_related {ρ : Type*} {R : σ → ρ → Prop} {f : α → σ → Except τ Unit × σ}
    {g : α → ρ → Except τ Unit × ρ} {xs : List α}
    (hfg : ∀ x ∈ xs, ∀ s s', R s s' → (g x s').1 = (f x s).1 ∧ R (f x s).2 (g x s').2) {s : σ}
    {s' : ρ} (hR : R s s') : (forEach g xs s').1 = (forEach f xs s).1 ∧
      R (forEach f xs s).2 (forEach g xs s').2 := by
  induction xs generalizing s s' with
  | nil => exact ⟨rfl, hR⟩
  | cons x xs ih =>
      obtain ⟨hresult, hR₁⟩ := hfg x List.mem_cons_self s s' hR
      rcases hfx : f x s with ⟨r, s₁⟩
      rw [hfx] at hresult hR₁
      have hgx : g x s' = (r, (g x s').2) := Prod.ext hresult rfl
      cases r with
      | ok _ =>
          rw [forEach_cons_ok hfx, forEach_cons_ok hgx]
          exact ih (fun y hy => hfg y (List.mem_cons_of_mem x hy)) hR₁
      | error e =>
          rw [forEach_cons_error hfx, forEach_cons_error hgx]
          exact ⟨rfl, hR₁⟩

/-- **Loop rule for two loops.**  When the first loop ends well, so does the second one, which
leaves out some of the elements, and they end in related states. -/
theorem forEach_filter {ρ : Type*} {R : σ → ρ → Prop} {f : α → σ → Except τ Unit × σ}
    {g : α → ρ → Except τ Unit × ρ} {p : α → Bool}
    (hkept : ∀ x s s', p x = true → R s s' → (g x s').1 = (f x s).1 ∧ R (f x s).2 (g x s').2)
    (hdropped : ∀ x s s', p x = false → R s s' → R (f x s).2 s') {xs : List α} {s : σ} {s' : ρ}
    (hR : R s s') (hok : (forEach f xs s).1 = .ok ()) :
    (forEach g (xs.filter p) s').1 = .ok () ∧
      R (forEach f xs s).2 (forEach g (xs.filter p) s').2 := by
  induction xs generalizing s s' with
  | nil => exact ⟨rfl, hR⟩
  | cons x xs ih =>
      rcases hfx : f x s with ⟨r, s₁⟩
      cases r with
      | ok _ =>
          rw [forEach_cons_ok hfx] at hok ⊢
          cases hp : p x with
          | true =>
              obtain ⟨hresult, hR₁⟩ := hkept x s s' hp hR
              rw [hfx] at hresult hR₁
              have hgx : g x s' = (.ok (), (g x s').2) := Prod.ext hresult rfl
              rw [List.filter_cons_of_pos hp, forEach_cons_ok hgx]
              exact ih hR₁ hok
          | false =>
              have hR₁ := hdropped x s s' hp hR
              rw [hfx] at hR₁
              rw [List.filter_cons_of_neg (by simp [hp])]
              exact ih hR₁ hok
      | error e =>
          rw [forEach_cons_error hfx] at hok
          cases hok

/-- **Loop rule for independent rounds.**  Each round is about a part of its own: the loop ends well
exactly when all rounds do, and then each part is as its round leaves it. -/
theorem forEach_independent {β : Type*} (part : σ → α → β) (g : β → Except τ Unit × β)
    {f : α → σ → Except τ Unit × σ} (hresult : ∀ x s, (f x s).1 = (g (part s x)).1)
    (hself : ∀ x s, part (f x s).2 x = (g (part s x)).2)
    (hother : ∀ x y s, y ≠ x → part (f x s).2 y = part s y) {xs : List α} (hnd : xs.Nodup)
    (s : σ) : ((forEach f xs s).1 = .ok () ↔ ∀ x ∈ xs, (g (part s x)).1 = .ok ()) ∧
      ((forEach f xs s).1 = .ok () → ∀ x ∈ xs, part (forEach f xs s).2 x = (g (part s x)).2) := by
  induction xs generalizing s with
  | nil => exact ⟨iff_of_true rfl fun x hx => absurd hx List.not_mem_nil,
      fun _ x hx => absurd hx List.not_mem_nil⟩
  | cons x xs ih =>
      obtain ⟨hx, hnd'⟩ := List.nodup_cons.mp hnd
      have hround := hresult x s
      have hpart : part (f x s).2 x = (g (part s x)).2 := hself x s
      have hrest : ∀ y ∈ xs, part (f x s).2 y = part s y := by
        intro y hy
        refine hother x y s ?_
        rintro rfl
        exact hx hy
      rcases hfx : f x s with ⟨r, s'⟩
      rw [hfx] at hround hpart hrest
      cases r with
      | error e =>
          rw [forEach_cons_error hfx]
          refine ⟨iff_of_false (by simp) fun hall => ?_, fun hok => by cases hok⟩
          cases hround.trans (hall x List.mem_cons_self)
      | ok _ =>
          obtain ⟨hiff, hparts⟩ := ih hnd' s'
          rw [forEach_cons_ok hfx, List.forall_mem_cons]
          constructor
          · rw [hiff]
            constructor
            · exact fun hall => ⟨hround.symm, fun y hy => hrest y hy ▸ hall y hy⟩
            · exact fun hall y hy => (hrest y hy).symm ▸ hall.2 y hy
          · intro hok
            rw [List.forall_mem_cons]
            refine ⟨?_, fun y hy => (hparts hok y hy).trans (by rw [hrest y hy])⟩
            -- the rounds that follow are about other parts
            refine (forEach_invariant (I := fun s => part s x = part s' x) ?_ rfl).trans hpart
            intro y hy s₁ hs₁
            refine (hother y x s₁ ?_).trans hs₁
            rintro rfl
            exact hx hy

end ForEach

namespace EventEmitter

variable {ε ℓ σ τ : Type*}

/-- An emitter without listeners. -/
def empty : EventEmitter ε ℓ := ⟨[]⟩

/-- `emitter.on(ev, l)` -/
def on (em : EventEmitter ε ℓ) (ev : ε) (l : ℓ) : EventEmitter ε ℓ :=
  ⟨em.registrations ++ [⟨ev, l, false⟩]⟩

/-- `emitter.once(ev, l)` -/
def once (em : EventEmitter ε ℓ) (ev : ε) (l : ℓ) : EventEmitter ε ℓ :=
  ⟨em.registrations ++ [⟨ev, l, true⟩]⟩

/-- `emitter.removeAllListeners()` -/
def removeAllListeners (_ : EventEmitter ε ℓ) : EventEmitter ε ℓ := empty

/-- One more registration. -/
theorem mem_on_iff {em : EventEmitter ε ℓ} {ev : ε} {l : ℓ} {r : Registration ε ℓ} :
    r ∈ (em.on ev l).registrations ↔ r ∈ em.registrations ∨ r = ⟨ev, l, false⟩ := by
  simp [on]

/-- No listener is registered twice for an event. -/
def Distinct (em : EventEmitter ε ℓ) : Prop :=
  (em.registrations.map fun r => (r.event, r.listener)).Nodup

/-- A new listener keeps the registrations distinct. -/
theorem Distinct.on {em : EventEmitter ε ℓ} {ev : ε} {l : ℓ} (h : em.Distinct)
    (hnew : ∀ r ∈ em.registrations, ¬ (r.event = ev ∧ r.listener = l)) :
    (em.on ev l).Distinct := by
  unfold Distinct EventEmitter.on
  rw [List.map_append]
  refine h.append (List.nodup_singleton _) ?_
  rw [List.map_singleton, List.disjoint_singleton]
  intro hmem
  obtain ⟨r, hr, heq⟩ := List.mem_map.mp hmem
  exact hnew r hr (Prod.mk.inj heq)

variable [DecidableEq ε]

/-- The registrations for an event, in the order in which they are served. -/
def listeners (em : EventEmitter ε ℓ) (ev : ε) : List (Registration ε ℓ) :=
  em.registrations.filter (fun r => decide (r.event = ev))

@[simp] theorem listeners_on_self (em : EventEmitter ε ℓ) (ev : ε) (l : ℓ) :
    (em.on ev l).listeners ev = em.listeners ev ++ [⟨ev, l, false⟩] := by
  simp [listeners, on]

/-- The listeners of other events stay. -/
theorem listeners_on_of_ne (em : EventEmitter ε ℓ) {ev ev' : ε} (h : ev' ≠ ev) (l : ℓ) :
    (em.on ev' l).listeners ev = em.listeners ev := by
  simp [listeners, on, h]

/-- The listeners of an event are its registrations. -/
theorem mem_listeners_iff {em : EventEmitter ε ℓ} {ev : ε} {r : Registration ε ℓ} :
    r ∈ em.listeners ev ↔ r ∈ em.registrations ∧ r.event = ev := by
  simp [listeners]

variable [DecidableEq ℓ]

/-- `emitter.removeListener(ev, l)`: the most recent registration of `l` for `ev` goes. -/
def removeListener (em : EventEmitter ε ℓ) (ev : ε) (l : ℓ) : EventEmitter ε ℓ :=
  ⟨Splice.removeLast (fun r => decide (r.event = ev ∧ r.listener = l)) em.registrations⟩

/-- The last registration of the listener is removed. -/
theorem listeners_removeListener_self (em : EventEmitter ε ℓ) (ev : ε) (l : ℓ) :
    (em.removeListener ev l).listeners ev =
      Splice.removeLast (fun r => decide (r.event = ev ∧ r.listener = l)) (em.listeners ev) := by
  refine Splice.filter_removeLast (fun r hr => ?_) em.registrations
  simpa using (of_decide_eq_true hr).1

/-- The listeners of other events stay. -/
theorem listeners_removeListener_of_ne (em : EventEmitter ε ℓ) {ev ev' : ε} (h : ev' ≠ ev)
    (l : ℓ) : (em.removeListener ev' l).listeners ev = em.listeners ev := by
  refine Splice.filter_removeLast_of_neg (fun r hr => ?_) em.registrations
  have hev : r.event = ev' := (of_decide_eq_true hr).1
  simp [hev, h]

/-- What happens to the emitter right before a registration is served. -/
def served (em : EventEmitter ε ℓ) (r : Registration ε ℓ) : EventEmitter ε ℓ :=
  if r.once then em.removeListener r.event r.listener else em

/-- `emitter.emit(ev)`, for an emitter that lives in a larger state: every listener of the
snapshot runs, in order. -/
def emit (get : σ → EventEmitter ε ℓ) (set : EventEmitter ε ℓ → σ → σ) (run : ℓ → σ → σ)
    (ev : ε) (s : σ) : σ :=
  ((get s).listeners ev).foldl (fun s r => run r.listener (set ((get s).served r) s)) s

/-- `emitter.emit(ev)` for listeners that may raise: an exception skips the listeners after it
and reaches the caller of `emit`. -/
def emitThrowing (get : σ → EventEmitter ε ℓ) (set : EventEmitter ε ℓ → σ → σ)
    (run : ℓ → σ → Except τ Unit × σ) (ev : ε) (s : σ) : Except τ Unit × σ :=
  forEach (fun r s => run r.listener (set ((get s).served r) s)) ((get s).listeners ev) s

/-! ## Emitting on a known set of listeners -/

variable {get : σ → EventEmitter ε ℓ} {set : EventEmitter ε ℓ → σ → σ}

/-- Without a listener for the event nothing happens. -/
theorem emit_eq_self {run : ℓ → σ → σ} {ev : ε} {s : σ} (h : (get s).listeners ev = []) :
    emit get set run ev s = s := by
  rw [emit, h]
  rfl

/-- Without listeners nothing happens. -/
theorem emitThrowing_eq_self {run : ℓ → σ → Except τ Unit × σ} {ev : ε} {s : σ}
    (h : (get s).listeners ev = []) : emitThrowing get set run ev s = (.ok (), s) := by
  rw [emitThrowing, h]
  rfl

/-- A single persistent listener is simply called. -/
theorem emit_eq_run {run : ℓ → σ → σ} {ev : ε} {l : ℓ} {s : σ} (hset : set (get s) s = s)
    (h : (get s).listeners ev = [⟨ev, l, false⟩]) : emit get set run ev s = run l s := by
  rw [emit, h]
  simp [served, hset]

/-- With one listener, that one runs. -/
theorem emitThrowing_eq_run {run : ℓ → σ → Except τ Unit × σ} {ev : ε} {l : ℓ} {s : σ}
    (hset : set (get s) s = s) (h : (get s).listeners ev = [⟨ev, l, false⟩]) :
    emitThrowing get set run ev s = run l s := by
  rw [emitThrowing, h, forEach]
  have hbody : run l (set ((get s).served ⟨ev, l, false⟩) s) = run l s := by
    simp [served, hset]
  rw [hbody]
  rcases run l s with ⟨⟨⟩, s'⟩ <;> rfl

/-- A single `once` listener is dropped and then called. -/
theorem emit_eq_run_once {run : ℓ → σ → σ} {ev : ε} {l : ℓ} {s : σ}
    (h : (get s).listeners ev = [⟨ev, l, true⟩]) :
    emit get set run ev s = run l (set ((get s).removeListener ev l) s) := by
  rw [emit, h]
  rfl

/-! ## Emitting on an unknown set of listeners -/

/-- When no listener raises, the emission does not. -/
theorem emitThrowing_result_ok {run : ℓ → σ → Except τ Unit × σ}
    (hrun : ∀ l s, (run l s).1 = .ok ()) (ev : ε) (s : σ) :
    (emitThrowing get set run ev s).1 = .ok () :=
  forEach_result_ok (fun r _ s => hrun r.listener (set ((get s).served r) s)) s

/-- The removal of a listener leaves the registrations of others. -/
theorem mem_removeListener_iff {em : EventEmitter ε ℓ} {ev : ε} {l : ℓ} {r : Registration ε ℓ}
    (hr : ¬ (r.event = ev ∧ r.listener = l)) :
    r ∈ (em.removeListener ev l).registrations ↔ r ∈ em.registrations :=
  Splice.mem_removeLast_of_neg (by simpa using hr)

/-- What is left was there. -/
theorem mem_of_mem_removeListener {em : EventEmitter ε ℓ} {ev : ε} {l : ℓ}
    {r : Registration ε ℓ} (hr : r ∈ (em.removeListener ev l).registrations) :
    r ∈ em.registrations :=
  Splice.mem_of_mem_removeLast hr

/-! ## Listeners that are registered once -/

/-- A removal keeps the registrations distinct. -/
theorem Distinct.removeListener {em : EventEmitter ε ℓ} (h : em.Distinct) (ev : ε) (l : ℓ) :
    (em.removeListener ev l).Distinct :=
  h.sublist ((Splice.removeLast_sublist _ em.registrations).map _)

/-- The only registration of a listener is removed. -/
theorem Distinct.not_mem_removeListener {em : EventEmitter ε ℓ} {ev : ε} {l : ℓ}
    {r : Registration ε ℓ} (h : em.Distinct) (hev : r.event = ev) (hl : r.listener = l) :
    r ∉ (em.removeListener ev l).registrations := by
  intro hr
  have hperm := (Splice.perm_removeLast
    (fun r : Registration ε ℓ => decide (r.event = ev ∧ r.listener = l)) em.registrations).map
      fun r => (r.event, r.listener)
  rw [List.map_append] at hperm
  have hdisjoint := List.disjoint_of_nodup_append (hperm.nodup_iff.mp h)
  -- the registration that goes is for the same event and listener
  cases hf : em.registrations.reverse.find?
      (fun r => decide (r.event = ev ∧ r.listener = l)) with
  | none =>
      have hnone := List.find?_eq_none.mp hf r
        (List.mem_reverse.mpr (mem_of_mem_removeListener hr))
      exact hnone (by simp [hev, hl])
  | some r' =>
      have hr' : r'.event = ev ∧ r'.listener = l := by simpa using List.find?_some hf
      rw [hf] at hdisjoint
      refine hdisjoint (List.mem_map_of_mem hr) ?_
      simp [hev, hl, hr'.1, hr'.2]

/-! ## Rules for emissions -/

/-- **Emission rule.**  What every listener of the snapshot keeps, an emission keeps. -/
theorem emit_invariant_of_mem {I : σ → Prop} {run : ℓ → σ → σ} {ev : ε} {s : σ}
    (hrun : ∀ r ∈ (get s).listeners ev, ∀ s, I s → I (run r.listener (set ((get s).served r) s)))
    (hs : I s) : I (emit get set run ev s) := by
  have hfold : ∀ (rs : List (Registration ε ℓ)) (s' : σ), (∀ r ∈ rs, r ∈ (get s).listeners ev) →
      I s' → I (rs.foldl (fun s r => run r.listener (set ((get s).served r) s)) s') := by
    intro rs
    induction rs with
    | nil => exact fun _ _ hs => hs
    | cons r rs ih =>
        intro s' hrs hs'
        have hr := hrun r (hrs r List.mem_cons_self) s' hs'
        exact ih _ (fun r' hr' => hrs r' (List.mem_cons_of_mem _ hr')) hr
  exact hfold _ s (fun r hr => hr) hs

/-- What every listener keeps, and the removal of a `once` registration keeps, an emission
keeps. -/
theorem emit_invariant {I : σ → Prop} {run : ℓ → σ → σ} {ev : ε} {s : σ}
    (hserved : ∀ r s, r.event = ev → I s → I (set ((get s).served r) s))
    (hrun : ∀ l s, I s → I (run l s)) (hs : I s) : I (emit get set run ev s) := by
  refine emit_invariant_of_mem (fun r hr s' hs' => ?_) hs
  exact hrun r.listener _ (hserved r s' (mem_listeners_iff.mp hr).2 hs')

/-- **Every listener is served.**  What a registered listener achieves, and every listener keeps,
holds after the emission. -/
theorem emit_served {I Q : σ → Prop} {run : ℓ → σ → σ} {ev : ε} {s : σ} {r : Registration ε ℓ}
    (hr : r ∈ (get s).registrations) (hev : r.event = ev)
    (hserved : ∀ r s, r.event = ev → I s → I (set ((get s).served r) s))
    (hrun : ∀ l s, I s → I (run l s)) (hdone : ∀ s, I s → Q (run r.listener s))
    (hkept : ∀ r' s, Q s → Q (run r'.listener (set ((get s).served r') s)))
    (hs : I s) : Q (emit get set run ev s) := by
  have hrest : ∀ (rs : List (Registration ε ℓ)) (s : σ), Q s →
      Q (rs.foldl (fun s r => run r.listener (set ((get s).served r) s)) s) := by
    intro rs
    induction rs with
    | nil => exact fun _ hq => hq
    | cons r' rs ih => exact fun s hq => ih _ (hkept r' s hq)
  have hfold : ∀ (rs : List (Registration ε ℓ)) (s : σ), (∀ r' ∈ rs, r'.event = ev) → r ∈ rs →
      I s → Q (rs.foldl (fun s r => run r.listener (set ((get s).served r) s)) s) := by
    intro rs
    induction rs with
    | nil => exact fun _ _ hmem => absurd hmem List.not_mem_nil
    | cons r' rs ih =>
        intro s hrs hmem hs
        have hr' := hserved r' s (hrs r' List.mem_cons_self) hs
        rcases List.mem_cons.mp hmem with rfl | hmem
        · exact hrest rs _ (hdone _ hr')
        · exact ih _ (fun r'' hr'' => hrs r'' (List.mem_cons_of_mem _ hr'')) hmem
            (hrun r'.listener _ hr')
  refine hfold _ s (fun r hr => (mem_listeners_iff.mp hr).2) ?_ hs
  exact mem_listeners_iff.mpr ⟨hr, hev⟩

end EventEmitter
