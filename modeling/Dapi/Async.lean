/-
# Async functions

An async function runs until it awaits, is resumed with the answer to what it
awaits, and so on until it returns or throws.  `Program` is such a function as a
tree: it performs synchronous operations, each answered at once by the state of
the runtime, and awaits requests, each answered later; both may fail, and a
failure is an exception of the program.

* `advance` runs a program to its next `await`, `resume` hands it an answer.
* `eval` runs it to its end against fixed answers and logs what it does.
* `Obeys` is a rule-of-behaviour logic: the program keeps to a `Protocol`, a state
  machine over its operations, whatever it is answered.  It has a rule for each way of
  building programs (`obeys_bind`, `obeys_tryCatch`, `obeys_forEach`, ...), and
  `advance_obeys` and `resume_obeys` carry a relation between the protocol and
  the state of the runtime from one `await` to the next.
-/
import Mathlib

namespace Async

/-- What programs of a kind can do. -/
structure Signature where
  /-- Operations that are answered at once. -/
  Sync : Type
  SyncAnswer : Sync → Type
  /-- Requests, answered while the program is suspended. -/
  Request : Type
  Answer : Request → Type
  /-- Exceptions. -/
  Failure : Type

/-- An async function that returns an `α`. -/
inductive Program (S : Signature) (α : Type) : Type
  | done (a : α)
  | throw (e : S.Failure)
  | sync (op : S.Sync) (k : Except S.Failure (S.SyncAnswer op) → Program S α)
  | await (r : S.Request) (k : Except S.Failure (S.Answer r) → Program S α)

namespace Program

variable {S : Signature} {α β : Type}

/-! ## Building programs -/

/-- Sequencing: the second program goes on from the value of the first. -/
def bind : Program S α → (α → Program S β) → Program S β
  | done a, f => f a
  | throw e, _ => throw e
  | sync op k, f => sync op (fun answer => (k answer).bind f)
  | await r k, f => await r (fun answer => (k answer).bind f)

instance : Monad (Program S) where
  pure := done
  bind := bind

/-- `try { p } catch (e) { handler(e) }` -/
def tryCatch : Program S α → (S.Failure → Program S α) → Program S α
  | done a, _ => done a
  | throw e, handler => handler e
  | sync op k, handler => sync op (fun answer => (k answer).tryCatch handler)
  | await r k, handler => await r (fun answer => (k answer).tryCatch handler)

/-- A value, or an exception that is thrown. -/
def ofExcept : Except S.Failure α → Program S α
  | .ok a => done a
  | .error e => throw e

/-- Perform an operation. -/
def perform (op : S.Sync) : Program S (S.SyncAnswer op) := sync op ofExcept

/-- Issue a request and `await` its answer. -/
def issue (r : S.Request) : Program S (S.Answer r) := await r ofExcept

/-- `if (c) { p }` -/
def runIf (c : Bool) (p : Program S Unit) : Program S Unit := if c then p else done ()

/-- `for (const x of xs) { body(x) }` -/
def forEach (body : α → Program S Unit) : List α → Program S Unit
  | [] => done ()
  | x :: xs => (body x).bind (fun _ => forEach body xs)

@[simp] theorem bind_eq (p : Program S α) (f : α → Program S β) : p >>= f = p.bind f := rfl

@[simp] theorem pure_eq (a : α) : (pure a : Program S α) = done a := rfl

/-- Sequencing is associative. -/
theorem bind_bind {γ : Type} (p : Program S α) (f : α → Program S β) (g : β → Program S γ) :
    (p.bind f).bind g = p.bind fun a => (f a).bind g := by
  induction p with
  | done a => rfl
  | throw e => rfl
  | sync op k ih => exact congrArg (sync op) (funext ih)
  | await r k ih => exact congrArg (await r) (funext ih)

/-! ## Running programs -/

/-- Whether the program has returned or thrown. -/
def isOver : Program S α → Bool
  | done _ | throw _ => true
  | _ => false

section Runtime

variable {σ : Type} (exec : (op : S.Sync) → σ → Except S.Failure (S.SyncAnswer op) × σ)

/-- Run the program to its next `await`, or to its end. -/
def advance : Program S α → σ → Program S α × σ
  | sync op k, s => (k (exec op s).1).advance (exec op s).2
  | p, s => (p, s)

variable {exec} in
/-- What every operation keeps, the way to the next `await` keeps. -/
theorem advance_invariant {I : σ → Prop} (hexec : ∀ op s, I s → I (exec op s).2)
    (x : Program S α) {s : σ} (hs : I s) : I (x.advance exec s).2 := by
  induction x generalizing s with
  | done a => exact hs
  | throw e => exact hs
  | sync op k ih => exact ih _ (hexec op s hs)
  | await r k => exact hs

/-- Hand the program the answer to the request that it awaits. -/
def resume (answer : (r : S.Request) → Except S.Failure (S.Answer r)) :
    Program S α → Program S α
  | await r k => k (answer r)
  | p => p

end Runtime

/-! ## Evaluation against fixed answers -/

/-- What a program does, for the log of its evaluation. -/
inductive Event (S : Signature)
  | sync (op : S.Sync)
  | await (r : S.Request)

section Eval

variable (syncAnswer : (op : S.Sync) → Except S.Failure (S.SyncAnswer op))
  (answer : (r : S.Request) → Except S.Failure (S.Answer r))

/-- The outcome of the program and the log of what it did. -/
def eval : Program S α → Except S.Failure α × List (Event S)
  | done a => (.ok a, [])
  | throw e => (.error e, [])
  | sync op k => ((k (syncAnswer op)).eval.1, .sync op :: (k (syncAnswer op)).eval.2)
  | await r k => ((k (answer r)).eval.1, .await r :: (k (answer r)).eval.2)

/-- What is known already asks for nothing. -/
theorem eval_ofExcept (x : Except S.Failure α) :
    (ofExcept x : Program S α).eval syncAnswer answer = (x, []) := by
  cases x <;> rfl

/-- The evaluation goes on from the value. -/
theorem eval_bind_ok {p : Program S α} {f : α → Program S β} {a : α} {log : List (Event S)}
    (h : p.eval syncAnswer answer = (.ok a, log)) :
    (p.bind f).eval syncAnswer answer =
      (((f a).eval syncAnswer answer).1, log ++ ((f a).eval syncAnswer answer).2) := by
  induction p generalizing log with
  | done a' =>
      obtain ⟨h₁, rfl⟩ := Prod.mk.inj h
      cases h₁
      rfl
  | throw e =>
      obtain ⟨h₁, -⟩ := Prod.mk.inj h
      cases h₁
  | sync op k ih =>
      obtain ⟨h₁, rfl⟩ := Prod.mk.inj h
      rw [bind, eval, ih (syncAnswer op) (Prod.ext h₁ rfl)]
      rfl
  | await r k ih =>
      obtain ⟨h₁, rfl⟩ := Prod.mk.inj h
      rw [bind, eval, ih (answer r) (Prod.ext h₁ rfl)]
      rfl

/-- A handler is not used when nothing fails. -/
theorem eval_tryCatch_ok {p : Program S α} {handler : S.Failure → Program S α} {a : α}
    {log : List (Event S)} (h : p.eval syncAnswer answer = (.ok a, log)) :
    (p.tryCatch handler).eval syncAnswer answer = (.ok a, log) := by
  induction p generalizing log with
  | done a' => exact h
  | throw e =>
      obtain ⟨h₁, -⟩ := Prod.mk.inj h
      cases h₁
  | sync op k ih =>
      obtain ⟨h₁, rfl⟩ := Prod.mk.inj h
      rw [tryCatch, eval, ih (syncAnswer op) (Prod.ext h₁ rfl)]
  | await r k ih =>
      obtain ⟨h₁, rfl⟩ := Prod.mk.inj h
      rw [tryCatch, eval, ih (answer r) (Prod.ext h₁ rfl)]

/-- An operation is evaluated by its answer. -/
theorem eval_perform_ok {op : S.Sync} {a : S.SyncAnswer op} (h : syncAnswer op = .ok a) :
    (perform op).eval syncAnswer answer = (.ok a, [.sync op]) := by
  rw [perform, eval, h]
  rfl

/-- A request is evaluated by its answer. -/
theorem eval_issue_ok {r : S.Request} {a : S.Answer r} (h : answer r = .ok a) :
    (issue r).eval syncAnswer answer = (.ok a, [.await r]) := by
  rw [issue, eval, h]
  rfl

end Eval

/-! ## Protocols -/

/-- A state machine over what programs do: what is allowed, and where it leads. -/
structure Protocol (S : Signature) (P : Type) where
  syncOk : P → S.Sync → Prop
  syncNext : P → (op : S.Sync) → Except S.Failure (S.SyncAnswer op) → P
  requestOk : P → S.Request → Prop
  requestNext : P → (r : S.Request) → Except S.Failure (S.Answer r) → P

section Obeys

variable {P : Type} (T : Protocol S P)

/-- From the protocol state `p` on, the program does what is allowed, whatever it is answered; it
returns in a state that satisfies `post` and throws in one that satisfies `exc`. -/
def Obeys (post : α → P → Prop) (exc : S.Failure → P → Prop) : Program S α → P → Prop
  | done a, p => post a p
  | throw e, p => exc e p
  | sync op k, p => T.syncOk p op ∧ ∀ answer, (k answer).Obeys post exc (T.syncNext p op answer)
  | await r k, p =>
    T.requestOk p r ∧ ∀ answer, (k answer).Obeys post exc (T.requestNext p r answer)

variable {T} {post : α → P → Prop} {exc : S.Failure → P → Prop}

/-- A program obeys weaker conditions. -/
theorem Obeys.mono {post' : α → P → Prop} {exc' : S.Failure → P → Prop} {x : Program S α} {p : P}
    (h : x.Obeys T post exc p) (hpost : ∀ a p, post a p → post' a p)
    (hexc : ∀ e p, exc e p → exc' e p) : x.Obeys T post' exc' p := by
  induction x generalizing p with
  | done a => exact hpost a p h
  | throw e => exact hexc e p h
  | sync op k ih => exact ⟨h.1, fun answer => ih answer (h.2 answer)⟩
  | await r k ih => exact ⟨h.1, fun answer => ih answer (h.2 answer)⟩

/-- **Sequencing rule.** -/
theorem obeys_bind {post' : β → P → Prop} {x : Program S α} {f : α → Program S β} {p : P}
    (h : x.Obeys T (fun a p => (f a).Obeys T post' exc p) exc p) :
    (x.bind f).Obeys T post' exc p := by
  induction x generalizing p with
  | done a => exact h
  | throw e => exact h
  | sync op k ih => exact ⟨h.1, fun answer => ih answer (h.2 answer)⟩
  | await r k ih => exact ⟨h.1, fun answer => ih answer (h.2 answer)⟩

/-- **Exception rule.** -/
theorem obeys_tryCatch {x : Program S α} {handler : S.Failure → Program S α} {p : P}
    (h : x.Obeys T post (fun e p => (handler e).Obeys T post exc p) p) :
    (x.tryCatch handler).Obeys T post exc p := by
  induction x generalizing p with
  | done a => exact h
  | throw e => exact h
  | sync op k ih => exact ⟨h.1, fun answer => ih answer (h.2 answer)⟩
  | await r k ih => exact ⟨h.1, fun answer => ih answer (h.2 answer)⟩

/-- What is known already obeys in its value, or in its failure. -/
theorem obeys_ofExcept {x : Except S.Failure α} {p : P} (hok : ∀ a, x = .ok a → post a p)
    (herror : ∀ e, x = .error e → exc e p) : (ofExcept x : Program S α).Obeys T post exc p := by
  cases x with
  | ok a => exact hok a rfl
  | error e => exact herror e rfl

/-- **Operation rule.** -/
theorem obeys_perform {op : S.Sync} {post : S.SyncAnswer op → P → Prop} {p : P}
    (hop : T.syncOk p op) (hok : ∀ a, post a (T.syncNext p op (.ok a)))
    (herror : ∀ e, exc e (T.syncNext p op (.error e))) :
    (perform op).Obeys T post exc p := by
  refine ⟨hop, fun answer => obeys_ofExcept ?_ ?_⟩
  · rintro a rfl
    exact hok a
  · rintro e rfl
    exact herror e

/-- **Request rule.** -/
theorem obeys_issue {r : S.Request} {post : S.Answer r → P → Prop} {p : P}
    (hr : T.requestOk p r) (hok : ∀ a, post a (T.requestNext p r (.ok a)))
    (herror : ∀ e, exc e (T.requestNext p r (.error e))) :
    (issue r).Obeys T post exc p := by
  refine ⟨hr, fun answer => obeys_ofExcept ?_ ?_⟩
  · rintro a rfl
    exact hok a
  · rintro e rfl
    exact herror e

/-- **Conditional rule.** -/
theorem obeys_runIf {c : Bool} {x : Program S Unit} {post : Unit → P → Prop} {p : P}
    (htrue : c = true → x.Obeys T post exc p) (hfalse : c = false → post () p) :
    (runIf c x).Obeys T post exc p := by
  cases c with
  | true => exact htrue rfl
  | false => exact hfalse rfl

/-- **Loop rule.**  `I` holds before every round. -/
theorem obeys_forEach {I : P → Prop} {body : α → Program S Unit} {xs : List α} {p : P}
    (hp : I p) (hbody : ∀ x ∈ xs, ∀ p, I p → (body x).Obeys T (fun _ p => I p) exc p) :
    (forEach body xs).Obeys T (fun _ p => I p) exc p := by
  induction xs generalizing p with
  | nil => exact hp
  | cons x xs ih =>
      refine obeys_bind ((hbody x List.mem_cons_self p hp).mono ?_ (fun _ _ he => he))
      exact fun _ p hp => ih hp (fun y hy => hbody y (List.mem_cons_of_mem x hy))

/-! ### Programs that do only certain things -/

section Only

variable {okSync : S.Sync → Prop} {okRequest : S.Request → Prop}

/-- The protocol that allows certain operations and requests at any time. -/
def Protocol.static (okSync : S.Sync → Prop) (okRequest : S.Request → Prop) : Protocol S Unit where
  syncOk _ op := okSync op
  syncNext _ _ _ := ()
  requestOk _ r := okRequest r
  requestNext _ _ _ := ()

/-- Whatever it is answered, the program does only what is allowed. -/
def Only (okSync : S.Sync → Prop) (okRequest : S.Request → Prop) (x : Program S α) : Prop :=
  x.Obeys (Protocol.static okSync okRequest) (fun _ _ => True) (fun _ _ => True) ()

theorem only_done (a : α) : (done a : Program S α).Only okSync okRequest := trivial

theorem only_throw (e : S.Failure) : (throw e : Program S α).Only okSync okRequest := trivial

/-- A sequence does only what its parts do. -/
theorem only_bind {x : Program S α} {f : α → Program S β} (hx : x.Only okSync okRequest)
    (hf : ∀ a, (f a).Only okSync okRequest) : (x.bind f).Only okSync okRequest :=
  obeys_bind (hx.mono (fun a _ _ => hf a) (fun _ _ _ => trivial))

theorem only_perform {op : S.Sync} (h : okSync op) : (perform op).Only okSync okRequest :=
  obeys_perform h (fun _ => trivial) (fun _ => trivial)

theorem only_issue {r : S.Request} (h : okRequest r) : (issue r).Only okSync okRequest :=
  obeys_issue h (fun _ => trivial) (fun _ => trivial)

/-- A loop does only what its body does. -/
theorem only_forEach {body : α → Program S Unit} {xs : List α}
    (h : ∀ x ∈ xs, (body x).Only okSync okRequest) : (forEach body xs).Only okSync okRequest :=
  obeys_forEach (I := fun _ => True) trivial
    (fun x hx _ _ => (h x hx).mono (fun _ _ _ => trivial) (fun _ _ _ => trivial))
    |>.mono (fun _ _ _ => trivial) (fun _ _ _ => trivial)

/-- What such a program logs. -/
theorem Only.of_mem_log {x : Program S α} (h : x.Only okSync okRequest)
    (syncAnswer : (op : S.Sync) → Except S.Failure (S.SyncAnswer op))
    (answer : (r : S.Request) → Except S.Failure (S.Answer r)) :
    (∀ op, .sync op ∈ (x.eval syncAnswer answer).2 → okSync op) ∧
      ∀ r, .await r ∈ (x.eval syncAnswer answer).2 → okRequest r := by
  induction x with
  | done a => simp [eval]
  | throw e => simp [eval]
  | sync op k ih =>
      obtain ⟨ih₁, ih₂⟩ := ih _ (h.2 (syncAnswer op))
      refine ⟨fun op' hmem => ?_, fun r hmem => ?_⟩
      · rcases List.mem_cons.mp hmem with heq | hmem
        · obtain rfl : op' = op := by simpa using heq
          exact h.1
        · exact ih₁ op' hmem
      · rcases List.mem_cons.mp hmem with heq | hmem
        · cases heq
        · exact ih₂ r hmem
  | await r k ih =>
      obtain ⟨ih₁, ih₂⟩ := ih _ (h.2 (answer r))
      refine ⟨fun op hmem => ?_, fun r' hmem => ?_⟩
      · rcases List.mem_cons.mp hmem with heq | hmem
        · cases heq
        · exact ih₁ op hmem
      · rcases List.mem_cons.mp hmem with heq | hmem
        · obtain rfl : r' = r := by simpa using heq
          exact h.1
        · exact ih₂ r' hmem

end Only

/-! ### From one `await` to the next -/

variable {σ : Type} {exec : (op : S.Sync) → σ → Except S.Failure (S.SyncAnswer op) × σ}

/-- A program that obeys the protocol is taken to its next `await` in step with the state. -/
theorem advance_obeys {R : P → σ → Prop}
    (hexec : ∀ p op s, T.syncOk p op → R p s → R (T.syncNext p op (exec op s).1) (exec op s).2)
    {x : Program S α} {p : P} {s : σ} (h : x.Obeys T post exc p) (hR : R p s) :
    ∃ p', (x.advance exec s).1.Obeys T post exc p' ∧ R p' (x.advance exec s).2 := by
  induction x generalizing p s with
  | done a => exact ⟨p, h, hR⟩
  | throw e => exact ⟨p, h, hR⟩
  | sync op k ih => exact ih _ (h.2 _) (hexec p op s h.1 hR)
  | await r k => exact ⟨p, h, hR⟩

/-- Handing over an answer only moves the protocol. -/
theorem resume_obeys {R : P → σ → Prop}
    (hrequest : ∀ p r answer s, T.requestOk p r → R p s → R (T.requestNext p r answer) s)
    {answer : (r : S.Request) → Except S.Failure (S.Answer r)} {x : Program S α} {p : P} {s : σ}
    (h : x.Obeys T post exc p) (hR : R p s) :
    ∃ p', (x.resume answer).Obeys T post exc p' ∧ R p' s := by
  cases x with
  | done a => exact ⟨p, h, hR⟩
  | throw e => exact ⟨p, h, hR⟩
  | sync op k => exact ⟨p, h, hR⟩
  | await r k => exact ⟨_, h.2 _, hrequest p r _ s h.1 hR⟩

end Obeys

end Program

end Async
