/-
# Promises

A promise is pending until it is fulfilled with a value or rejected with a
reason, once.  It is locked when it was resolved with a promise that never
settles: it takes no other value, and never settles either.

Reactions to a settled promise run later, as jobs of their own.  A job resolves
the promise that the reaction belongs to with an outcome (`resolve`), or has a
race follow one of its contenders (`race`).  `Extends` is the order in which a
promise can change, and `Follows` relates a promise to the outcome it waits for.
-/
import Mathlib

/-- The state of a promise. -/
inductive Promise (ε α : Type*)
  | pending
  | fulfilled (a : α)
  | rejected (e : ε)
  | locked
  deriving DecidableEq

namespace Promise

variable {ε α β : Type*}

/-- The outcome of `p.then(f)`, as far as `p` is settled. -/
def thenDo (p : Promise ε α) (f : α → Promise ε β) : Promise ε β :=
  match p with
  | fulfilled a => f a
  | rejected e => rejected e
  | pending | locked => pending

/-- The outcome of `p.catch(g)`, as far as `p` is settled. -/
def catchDo (p : Promise ε α) (g : ε → Promise ε α) : Promise ε α :=
  match p with
  | fulfilled a => fulfilled a
  | rejected e => g e
  | pending | locked => pending

/-- A pending promise is resolved with an outcome. -/
def resolve (p outcome : Promise ε α) : Promise ε α :=
  match p with
  | pending => outcome
  | p => p

/-- A race follows a contender that settled. -/
def race (p contender : Promise ε α) : Promise ε α :=
  match p, contender with
  | pending, fulfilled a => fulfilled a
  | pending, rejected e => rejected e
  | p, _ => p

/-- A result, or an exception, of an async function. -/
def ofExcept : Except ε α → Promise ε α
  | .ok a => fulfilled a
  | .error e => rejected e

/-! ## Once -/

/-- A promise is settled once. -/
theorem resolve_of_ne {p : Promise ε α} (h : p ≠ pending) (outcome : Promise ε α) :
    p.resolve outcome = p := by
  cases p with
  | pending => exact absurd rfl h
  | _ => rfl

/-- What is resolved is settled. -/
theorem resolve_ne_pending (p : Promise ε α) {outcome : Promise ε α} (h : outcome ≠ pending) :
    p.resolve outcome ≠ pending := by
  cases p with
  | pending => exact h
  | _ => simp [resolve]

/-- A race is decided once. -/
theorem race_of_ne {p : Promise ε α} (h : p ≠ pending) (contender : Promise ε α) :
    p.race contender = p := by
  cases p with
  | pending => exact absurd rfl h
  | _ => rfl

/-- A promise has its outcome, or had one before. -/
theorem cases_resolve (p outcome : Promise ε α) :
    p.resolve outcome = p ∨ p.resolve outcome = outcome := by
  cases p with
  | pending => exact Or.inr rfl
  | _ => exact Or.inl rfl

/-- A race has its winner, or had one before. -/
theorem cases_race (p contender : Promise ε α) :
    p.race contender = p ∨ p.race contender = contender := by
  cases p with
  | pending =>
      cases contender with
      | fulfilled a => exact Or.inr rfl
      | rejected e => exact Or.inr rfl
      | _ => exact Or.inl rfl
  | _ => exact Or.inl rfl

/-- A race that is not changed by a contender that is fulfilled is decided. -/
theorem ne_pending_of_race_eq {p : Promise ε α} {a : α} (h : p.race (fulfilled a) = p) :
    p ≠ pending := by
  rintro rfl
  cases h

/-! ## What a promise may be fulfilled with -/

/-- Whatever the promise is fulfilled with satisfies `P`. -/
def All (P : α → Prop) (p : Promise ε α) : Prop := ∀ a, p = fulfilled a → P a

theorem all_pending (P : α → Prop) : All P (pending : Promise ε α) := fun _ h => by cases h

theorem all_rejected (P : α → Prop) (e : ε) : All P (rejected e) := fun _ h => by cases h

/-- What holds of the outcome holds of the promise. -/
theorem All.resolve {P : α → Prop} {p outcome : Promise ε α} (h : p.All P)
    (houtcome : outcome.All P) : (p.resolve outcome).All P := by
  rcases cases_resolve p outcome with heq | heq
  · rw [heq]
    exact h
  · rw [heq]
    exact houtcome

/-- What holds of both holds of the winner. -/
theorem All.race {P : α → Prop} {p contender : Promise ε α} (h : p.All P)
    (hcontender : contender.All P) : (p.race contender).All P := by
  rcases cases_race p contender with heq | heq
  · rw [heq]
    exact h
  · rw [heq]
    exact hcontender

theorem All.thenDo_fulfilled {P : α → Prop} {p : Promise ε α} (h : p.All P) :
    (p.thenDo fulfilled).All P := by
  cases p with
  | fulfilled a => exact h
  | _ => exact fun _ heq => by cases heq

/-- A failure that is caught is not turned into a value. -/
theorem All.catchDo {P : α → Prop} {p : Promise ε α} {g : ε → Promise ε α} (h : p.All P)
    (hg : ∀ e, (g e).All P) : (p.catchDo g).All P := by
  cases p with
  | fulfilled a => exact h
  | rejected e => exact hg e
  | _ => exact all_pending P

/-! ## How a promise changes -/

/-- The promise `p` may become `q`. -/
def Extends (p q : Promise ε α) : Prop := p = pending ∨ q = p

theorem Extends.refl (p : Promise ε α) : Extends p p := Or.inr rfl

/-- A promise stays settled. -/
theorem Extends.trans {p q r : Promise ε α} (h : Extends p q) (h' : Extends q r) :
    Extends p r := by
  rcases h with h | rfl
  · exact Or.inl h
  · exact h'

/-- To resolve a promise only settles it. -/
theorem extends_resolve (p outcome : Promise ε α) : Extends p (p.resolve outcome) := by
  cases p with
  | pending => exact Or.inl rfl
  | _ => exact Or.inr rfl

/-- A race only settles it. -/
theorem extends_race (p contender : Promise ε α) : Extends p (p.race contender) := by
  cases p with
  | pending => exact Or.inl rfl
  | _ => exact Or.inr rfl

/-- A settled promise stays as it is. -/
theorem Extends.eq_of_ne {p q : Promise ε α} (h : Extends p q) (hp : p ≠ pending) : q = p :=
  h.resolve_left hp

/-! ## A promise that follows another one -/

/-- The promise `q` is pending, or it has taken over the outcome. -/
def Follows (q outcome : Promise ε α) : Prop := q = pending ∨ q = outcome

/-- A settled follower has the outcome. -/
theorem Follows.eq_of_ne {q outcome : Promise ε α} (h : Follows q outcome) (hq : q ≠ pending) :
    q = outcome :=
  h.resolve_left hq

/-- A follower may be resolved with the outcome. -/
theorem Follows.resolve {q outcome : Promise ε α} (h : Follows q outcome) :
    Follows (q.resolve outcome) outcome := by
  rcases cases_resolve q outcome with heq | heq
  · rw [heq]
    exact h
  · exact Or.inr heq

/-- What follows a function of a promise still does so when the promise is resolved. -/
theorem Follows.resolve_arg {f : Promise ε α → Promise ε β} (hf : f pending = pending)
    {q : Promise ε β} {p : Promise ε α} (h : Follows q (f p)) (outcome : Promise ε α) :
    Follows q (f (p.resolve outcome)) := by
  by_cases hp : p = pending
  · rw [hp, hf] at h
    exact Or.inl (h.elim id id)
  · rw [resolve_of_ne hp]
    exact h

/-- A race follows the contender, as long as it was not decided. -/
theorem follows_race {p : Promise ε α} (hp : p = pending) (contender : Promise ε α) :
    Follows (p.race contender) contender := by
  rcases cases_race p contender with heq | heq
  · exact Or.inl (heq.trans hp)
  · exact Or.inr heq

/-- What follows a race still does so when the race is decided. -/
theorem Follows.race_arg {q p : Promise ε α} (h : Follows q p) (contender : Promise ε α) :
    Follows q (p.race contender) := by
  by_cases hp : p = pending
  · exact Or.inl (h.elim id fun hq => hq.trans hp)
  · rw [race_of_ne hp]
    exact h

/-- When nothing is left to take over, it was taken over. -/
theorem Follows.eq_of_resolve_eq {q outcome : Promise ε α} (h : Follows q outcome)
    (hq : q.resolve outcome = q) : q = outcome := by
  rcases h with rfl | h
  · exact hq.symm
  · exact h

end Promise
