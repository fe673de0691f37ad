/-
# Conversations

The conversation of an async function is the list of its requests with their answers,
oldest first.  What an async function returns is a matter of its conversation, whoever
answers and whatever happens in between.

* `Protocol.remembering` is the protocol whose states are the conversations, so that
  `Obeys` speaks of what was asked and answered so far.
* `Protocol.logging` is the same for the operations that are answered at once.
* `Obeys.advance_eval` and `GivesUp.resume` compare a run with an evaluation: a program does what
  the evaluation says, as far as it is answered as there.
* `Running` is a program at work with its conversation; `Running.Obeys` is kept by every answer.
* `HadIn` places a conversation in a run of a machine: each answer was given in a state of the run,
  and the states come in the order of the answers.
-/
import Dapi.Async
import Dapi.Trace

namespace Async

/-- A request with its answer. -/
structure Exchange (S : Signature) where
  request : S.Request
  answer : Except S.Failure (S.Answer request)

namespace Program

variable {S : Signature} {α : Type}

/-- The protocol that remembers the conversation; `requestOk` says what may be asked after what. -/
def Protocol.remembering (requestOk : List (Exchange S) → S.Request → Prop) :
    Protocol S (List (Exchange S)) where
  syncOk _ _ := True
  syncNext c _ _ := c
  requestOk := requestOk
  requestNext c r answer := c ++ [⟨r, answer⟩]

variable {requestOk : List (Exchange S) → S.Request → Prop}
  {exc : S.Failure → List (Exchange S) → Prop} {c : List (Exchange S)}

/-- **Request rule**, for a request whose failure is thrown as another one. -/
theorem obeys_issue_throw {r : S.Request} {post : S.Answer r → List (Exchange S) → Prop}
    {f : S.Failure → S.Failure} (hr : requestOk c r) (hok : ∀ a, post a (c ++ [⟨r, .ok a⟩]))
    (herror : ∀ e, exc (f e) (c ++ [⟨r, .error e⟩])) :
    ((issue r).tryCatch fun e => throw (f e)).Obeys (Protocol.remembering requestOk) post exc c :=
  obeys_tryCatch (obeys_issue hr hok herror)

end Program

/-! ## Logs of operations -/

namespace Program

variable {S : Signature} {α : Type}

/-- The protocol that remembers the operations; `syncOk` says what may be done after what. -/
def Protocol.logging (syncOk : List S.Sync → S.Sync → Prop) : Protocol S (List S.Sync) where
  syncOk := syncOk
  syncNext log op _ := log ++ [op]
  requestOk _ _ := True
  requestNext log _ _ := log

/-- The operations of a program on its way to the next `await`. -/
def operations {σ : Type} (exec : (op : S.Sync) → σ → Except S.Failure (S.SyncAnswer op) × σ) :
    Program S α → σ → List S.Sync
  | sync op k, s => op :: (k (exec op s).1).operations exec (exec op s).2
  | _, _ => []

variable {syncOk : List S.Sync → S.Sync → Prop} {post : α → List S.Sync → Prop}
  {exc : S.Failure → List S.Sync → Prop} {x : Program S α} {log : List S.Sync}

/-- **What a program does on its way is logged**, and was allowed when it was done. -/
theorem Obeys.advance_logging (h : x.Obeys (Protocol.logging syncOk) post exc log)
    (hlog : Trace.Always syncOk log) {σ : Type}
    (exec : (op : S.Sync) → σ → Except S.Failure (S.SyncAnswer op) × σ) (s : σ) :
    (x.advance exec s).1.Obeys (Protocol.logging syncOk) post exc (log ++ x.operations exec s) ∧
      Trace.Always syncOk (log ++ x.operations exec s) := by
  induction x generalizing log s with
  | sync op k ih =>
      have hk : (k (exec op s).1).Obeys (Protocol.logging syncOk) post exc (log ++ [op]) := h.2 _
      have hnext := ih _ hk (Trace.always_snoc.mpr ⟨hlog, h.1⟩) (exec op s).2
      rw [← List.append_cons] at hnext
      exact hnext
  | done a => simpa [operations, advance] using And.intro h hlog
  | throw e => simpa [operations, advance] using And.intro h hlog
  | await r k => simpa [operations, advance] using And.intro h hlog

/-- An answer is no operation. -/
theorem Obeys.resume_logging (h : x.Obeys (Protocol.logging syncOk) post exc log)
    (answer : (r : S.Request) → Except S.Failure (S.Answer r)) :
    (x.resume answer).Obeys (Protocol.logging syncOk) post exc log := by
  cases x with
  | await r k => exact h.2 (answer r)
  | _ => exact h

/-! ### Runs and evaluations -/

/-- The operations in the log of an evaluation. -/
def loggedOperations (log : List (Event S)) : List S.Sync :=
  log.filterMap fun e =>
    match e with
    | .sync op => some op
    | .await _ => none

section Eval

variable {syncAnswer : (op : S.Sync) → Except S.Failure (S.SyncAnswer op)}
  {answer : (r : S.Request) → Except S.Failure (S.Answer r)}

/-- What a program does in an evaluation was allowed. -/
theorem Obeys.eval_logging (h : x.Obeys (Protocol.logging syncOk) post exc log)
    (hlog : Trace.Always syncOk log) :
    Trace.Always syncOk (log ++ loggedOperations (x.eval syncAnswer answer).2) := by
  induction x generalizing log with
  | sync op k ih =>
      have hk : (k (syncAnswer op)).Obeys (Protocol.logging syncOk) post exc (log ++ [op]) := h.2 _
      have hnext := ih _ hk (Trace.always_snoc.mpr ⟨hlog, h.1⟩)
      rw [← List.append_cons] at hnext
      exact hnext
  | await r k ih => exact ih _ (h.2 _) hlog
  | done a => simpa [eval, loggedOperations] using hlog
  | throw e => simpa [eval, loggedOperations] using hlog

/-- The operations that come before the events. -/
theorem loggedOperations_append (ops : List S.Sync) (events : List (Event S)) :
    loggedOperations (ops.map Event.sync ++ events) = ops ++ loggedOperations events := by
  unfold loggedOperations
  rw [List.filterMap_append, List.filterMap_map]
  exact congrArg (· ++ _) (List.filterMap_some)

variable (answer) in
/-- **A program on its way does what its evaluation says**, when it is answered as there. -/
theorem Obeys.advance_eval {σ : Type}
    {exec : (op : S.Sync) → σ → Except S.Failure (S.SyncAnswer op) × σ} {R : σ → Prop}
    (hexec : ∀ log op s, log ≠ [] → syncOk log op → R s →
      (exec op s).1 = syncAnswer op ∧ R (exec op s).2)
    (h : x.Obeys (Protocol.logging syncOk) post exc log) (hne : log ≠ []) {s : σ} (hs : R s) :
    x.eval syncAnswer answer = (((x.advance exec s).1.eval syncAnswer answer).1,
        (x.operations exec s).map Event.sync ++
          ((x.advance exec s).1.eval syncAnswer answer).2) ∧ R (x.advance exec s).2 := by
  induction x generalizing log s with
  | sync op k ih =>
      obtain ⟨hanswer, hR⟩ := hexec log op s hne h.1 hs
      have hk : (k (exec op s).1).Obeys (Protocol.logging syncOk) post exc (log ++ [op]) := h.2 _
      obtain ⟨heval, hend⟩ := ih _ hk (by simp) hR
      refine ⟨?_, hend⟩
      have hcons : (sync op k).eval syncAnswer answer =
          (((k (syncAnswer op)).eval syncAnswer answer).1,
            .sync op :: ((k (syncAnswer op)).eval syncAnswer answer).2) := rfl
      rw [hcons, ← hanswer, heval]
      rfl
  | done a => exact ⟨rfl, hs⟩
  | throw e => exact ⟨rfl, hs⟩
  | await r k => exact ⟨rfl, hs⟩

end Eval

/-- When a request fails, the program throws at once. -/
def GivesUp : Program S α → Prop
  | sync _ k => ∀ answer, (k answer).GivesUp
  | await _ k => (∀ e, ∃ e', k (.error e) = throw e') ∧ ∀ a, (k (.ok a)).GivesUp
  | _ => True

theorem givesUp_ofExcept (x : Except S.Failure α) : (ofExcept x : Program S α).GivesUp := by
  cases x <;> exact trivial

/-- A sequence gives up when its parts do. -/
theorem givesUp_bind {β : Type} {f : α → Program S β} (hx : x.GivesUp) (hf : ∀ a, (f a).GivesUp) :
    (x.bind f).GivesUp := by
  induction x with
  | done a => exact hf a
  | throw e => exact trivial
  | sync op k ih => exact fun answer => ih answer (hx answer)
  | await r k ih =>
      refine ⟨fun e => ?_, fun a => ih (.ok a) (hx.2 a)⟩
      obtain ⟨e', he⟩ := hx.1 e
      refine ⟨e', ?_⟩
      show (k (.error e)).bind f = throw e'
      rw [he]
      rfl

theorem givesUp_perform (op : S.Sync) : (perform op).GivesUp := givesUp_ofExcept

theorem givesUp_issue (r : S.Request) : (issue r).GivesUp :=
  ⟨fun e => ⟨e, rfl⟩, fun a => givesUp_ofExcept (.ok a)⟩

/-- A failure that is thrown as another one. -/
theorem givesUp_issue_tryCatch {r : S.Request} {handler : S.Failure → Program S (S.Answer r)}
    (hhandler : ∀ e, ∃ e', handler e = throw e') : ((issue r).tryCatch handler).GivesUp :=
  ⟨hhandler, fun _ => trivial⟩

/-- A program that goes on still gives up. -/
theorem GivesUp.advance {σ : Type} (h : x.GivesUp)
    (exec : (op : S.Sync) → σ → Except S.Failure (S.SyncAnswer op) × σ) (s : σ) :
    (x.advance exec s).1.GivesUp := by
  induction x generalizing s with
  | sync op k ih => exact ih _ (h _) _
  | done a => exact h
  | throw e => exact h
  | await r k => exact h

/-- **An answer as in the evaluation**, or a failure, which is the end. -/
theorem GivesUp.resume {syncAnswer : (op : S.Sync) → Except S.Failure (S.SyncAnswer op)}
    {answer given : (r : S.Request) → Except S.Failure (S.Answer r)} (h : x.GivesUp)
    (hgiven : ∀ r, given r = answer r ∨ ∃ e, given r = .error e) :
    (∃ e, x.resume given = throw e) ∨ (x.resume given).GivesUp ∧
      loggedOperations ((x.resume given).eval syncAnswer answer).2 =
        loggedOperations (x.eval syncAnswer answer).2 := by
  cases x with
  | await r k =>
      rcases hgiven r with heq | ⟨e, heq⟩
      · right
        show (k (given r)).GivesUp ∧ _
        refine ⟨?_, ?_⟩
        · cases hanswer : given r with
          | ok a => exact h.2 a
          | error e =>
              obtain ⟨e', he⟩ := h.1 e
              rw [he]
              exact trivial
        · show loggedOperations ((k (given r)).eval syncAnswer answer).2 = _
          rw [heq]
          rfl
      · left
        obtain ⟨e', he⟩ := h.1 e
        refine ⟨e', ?_⟩
        show k (given r) = _
        rw [heq, he]
  | _ => exact Or.inr ⟨h, rfl⟩

/-! ### Progress -/

/-- The requests that an evaluation makes. -/
def requestCount (log : List (Event S)) : ℕ :=
  log.countP fun e =>
    match e with
    | .sync _ => false
    | .await _ => true

/-- Operations are no requests. -/
theorem requestCount_append (ops : List S.Sync) (events : List (Event S)) :
    requestCount (ops.map Event.sync ++ events) = requestCount events := by
  unfold requestCount
  rw [List.countP_append, List.countP_map]
  simp [Function.comp_def]

/-- The program awaits, or is over. -/
def IsAtRest : Program S α → Prop
  | sync _ _ => False
  | _ => True

/-- A program that has gone on waits, or is over. -/
theorem advance_isAtRest {σ : Type}
    (exec : (op : S.Sync) → σ → Except S.Failure (S.SyncAnswer op) × σ) (x : Program S α) (s : σ) :
    (x.advance exec s).1.IsAtRest := by
  induction x generalizing s with
  | sync op k ih => exact ih _ _
  | _ => exact trivial

section Progress

variable {syncAnswer : (op : S.Sync) → Except S.Failure (S.SyncAnswer op)}
  {answer : (r : S.Request) → Except S.Failure (S.Answer r)}

/-- **Every answer is a step to the end** of the evaluation. -/
theorem IsAtRest.resume_eval (h : x.IsAtRest)
    {given : (r : S.Request) → Except S.Failure (S.Answer r)}
    (hgiven : ∀ r, given r = answer r) :
    ((x.resume given).eval syncAnswer answer).1 = (x.eval syncAnswer answer).1 ∧
      requestCount ((x.resume given).eval syncAnswer answer).2 =
        requestCount (x.eval syncAnswer answer).2 - 1 := by
  cases x with
  | sync op k => exact h.elim
  | await r k =>
      have hk : (await r k).resume given = k (answer r) := congrArg k (hgiven r)
      rw [hk]
      refine ⟨rfl, ?_⟩
      show _ = requestCount (.await r :: ((k (answer r)).eval syncAnswer answer).2) - 1
      unfold requestCount
      rw [List.countP_cons_of_pos rfl, Nat.add_sub_cancel]
  | done a => exact ⟨rfl, rfl⟩
  | throw e => exact ⟨rfl, rfl⟩

/-- Without a request there is no more than the result. -/
theorem IsAtRest.eq_done (h : x.IsAtRest) {a : α} (hresult : (x.eval syncAnswer answer).1 = .ok a)
    (hcount : requestCount (x.eval syncAnswer answer).2 = 0) : x = done a := by
  cases x with
  | sync op k => exact h.elim
  | await r k =>
      have hpos : requestCount (.await r :: ((k (answer r)).eval syncAnswer answer).2) = 0 := hcount
      unfold requestCount at hpos
      rw [List.countP_cons_of_pos rfl] at hpos
      cases hpos
  | done a' =>
      cases hresult
      rfl
  | throw e => cases hresult

end Progress

end Program

/-! ## Programs at work -/

/-- A program that awaits, or is over, with its conversation so far. -/
structure Running (S : Signature) (α : Type) where
  program : Program S α
  conversation : List (Exchange S)

namespace Running

variable {S : Signature} {α : Type}

/-- The start of a program without synchronous operations. -/
def start (program : Program S α) : Running S α := ⟨program, []⟩

/-- The answer to what the program awaits arrives. -/
def resume (answer : (r : S.Request) → Except S.Failure (S.Answer r)) (x : Running S α) :
    Running S α :=
  match x.program with
  | .await r k => ⟨k (answer r), x.conversation ++ [⟨r, answer r⟩]⟩
  | _ => x

/-- The request that the program awaits. -/
def awaited (x : Running S α) : List S.Request :=
  match x.program with
  | .await r _ => [r]
  | _ => []

/-- All requests that the program has made. -/
def asked (x : Running S α) : List S.Request := x.conversation.map Exchange.request ++ x.awaited

/-- **The invariant of a program at work**: it obeys the rules, and has obeyed them. -/
structure Obeys (requestOk : List (Exchange S) → S.Request → Prop)
    (post : α → List (Exchange S) → Prop) (exc : S.Failure → List (Exchange S) → Prop)
    (x : Running S α) : Prop where
  program : x.program.Obeys (Program.Protocol.remembering requestOk) post exc x.conversation
  conversation : ∀ before y after, x.conversation = before ++ y :: after →
    requestOk before y.request

variable {requestOk : List (Exchange S) → S.Request → Prop} {post : α → List (Exchange S) → Prop}
  {exc : S.Failure → List (Exchange S) → Prop} {x : Running S α}

/-- A program that obeys is started. -/
theorem obeys_start {program : Program S α}
    (h : program.Obeys (Program.Protocol.remembering requestOk) post exc []) :
    (start program).Obeys requestOk post exc := by
  refine ⟨h, fun before y after heq => ?_⟩
  simp [start] at heq

/-- **Every answer keeps the invariant.** -/
theorem Obeys.resume (h : x.Obeys requestOk post exc)
    (answer : (r : S.Request) → Except S.Failure (S.Answer r)) :
    (x.resume answer).Obeys requestOk post exc := by
  obtain ⟨program, conversation⟩ := x
  cases program with
  | await r k =>
      refine ⟨h.program.2 (answer r), fun before y after heq => ?_⟩
      rcases List.snoc_eq_append_cons_iff.mp heq with ⟨-, rfl, rfl⟩ | ⟨after', -, heq'⟩
      · exact h.program.1
      · exact h.conversation before y after' heq'
  | _ => exact h

/-- Every request of the conversation was allowed when it was made. -/
theorem Obeys.requestOk_of_conversation (h : x.Obeys requestOk post exc)
    {before after : List S.Request} {r : S.Request}
    (heq : x.conversation.map Exchange.request = before ++ r :: after) :
    ∃ c, c.map Exchange.request = before ∧ requestOk c r := by
  obtain ⟨c, rest, hc, hbefore, hrest⟩ := List.map_eq_append_iff.mp heq
  obtain ⟨y, ys, rfl, rfl, -⟩ := List.map_eq_cons_iff.mp hrest
  exact ⟨c, hbefore, h.conversation c y ys hc⟩

/-- What was asked was allowed, after the conversation up to then. -/
theorem Obeys.requestOk_of_asked (h : x.Obeys requestOk post exc) {before after : List S.Request}
    {r : S.Request} (heq : x.asked = before ++ r :: after) :
    ∃ c, c.map Exchange.request = before ∧ requestOk c r := by
  unfold asked awaited at heq
  cases hprogram : x.program with
  | await q k =>
      rw [hprogram] at heq
      rcases List.snoc_eq_append_cons_iff.mp heq with ⟨-, hbefore, rfl⟩ | ⟨after', -, hmap⟩
      · have hobeys := h.program
        rw [hprogram] at hobeys
        exact ⟨x.conversation, hbefore, hobeys.1⟩
      · exact h.requestOk_of_conversation hmap
  | _ =>
      rw [hprogram, List.append_nil] at heq
      exact h.requestOk_of_conversation heq

/-- So was the one that is awaited. -/
theorem Obeys.requestOk_of_mem_asked (h : x.Obeys requestOk post exc) {r : S.Request}
    (hr : r ∈ x.asked) : ∃ c, requestOk c r := by
  obtain ⟨before, after, hsplit⟩ := List.append_of_mem hr
  obtain ⟨c, -, hrequest⟩ := h.requestOk_of_asked hsplit
  exact ⟨c, hrequest⟩

/-- A program that may ask only at its start asks once. -/
theorem Obeys.asked_eq_singleton (h : x.Obeys requestOk post exc)
    (hfirst : ∀ c r, requestOk c r → c = []) {r : S.Request} (hr : r ∈ x.asked) :
    x.asked = [r] ∧ requestOk [] r := by
  obtain ⟨before, after, hsplit⟩ := List.append_of_mem hr
  obtain ⟨c, hbefore, hrequest⟩ := h.requestOk_of_asked hsplit
  obtain rfl := hfirst c r hrequest
  obtain rfl : before = [] := hbefore.symm
  refine ⟨?_, hrequest⟩
  cases after with
  | nil => exact hsplit
  | cons r' rest =>
      have hsplit' : x.asked = [r] ++ r' :: rest := hsplit
      obtain ⟨c', hc', hrequest'⟩ := h.requestOk_of_asked hsplit'
      rw [hfirst c' r' hrequest'] at hc'
      cases hc'

end Running

/-! ## Conversations in a run -/

/-- **The conversation was had in the run**: what `answers` says of an exchange held after some
part of the run, and later exchanges come later. -/
inductive HadIn {S : Signature} {σ β : Type*} (step : σ → β → σ) (s : σ)
    (answers : σ → Exchange S → Prop) : List β → List (Exchange S) → Prop
  | nil (bs : List β) : HadIn step s answers bs []
  | snoc {bs : List β} {c : List (Exchange S)} {x : Exchange S} (h : HadIn step s answers bs c)
    (hx : answers (Machine.run step s bs) x) : HadIn step s answers bs (c ++ [x])
  | later {bs : List β} {c : List (Exchange S)} (h : HadIn step s answers bs c) (b : β) :
    HadIn step s answers (bs ++ [b]) c

/-- The last exchange came after some part of the run, and the others in that part. -/
theorem HadIn.exists_of_snoc {S : Signature} {σ β : Type*} {step : σ → β → σ} {s : σ}
    {answers : σ → Exchange S → Prop} {bs : List β} {c : List (Exchange S)} {x : Exchange S}
    (h : HadIn step s answers bs (c ++ [x])) :
    ∃ before after, bs = before ++ after ∧ HadIn step s answers before c ∧
      answers (Machine.run step s before) x := by
  generalize hc : c ++ [x] = cx at h
  induction h with
  | nil bs => simp at hc
  | @snoc bs c' x' h hx ih =>
      obtain ⟨rfl, hxx⟩ := List.append_inj' hc rfl
      obtain rfl : x = x' := by simpa using hxx
      exact ⟨bs, [], (List.append_nil bs).symm, h, hx⟩
  | later h b ih =>
      obtain ⟨before, after, rfl, hbefore, hx⟩ := ih hc
      exact ⟨before, after ++ [b], by simp, hbefore, hx⟩

/-- A program that is resumed goes on with its conversation. -/
theorem HadIn.resume {S : Signature} {α : Type} {σ β : Type*} {step : σ → β → σ} {s : σ}
    {answers : σ → Exchange S → Prop} {bs : List β} {x : Running S α}
    (h : HadIn step s answers bs x.conversation)
    {answer : (r : S.Request) → Except S.Failure (S.Answer r)}
    (hanswer : ∀ r, answers (Machine.run step s bs) ⟨r, answer r⟩) :
    HadIn step s answers bs (x.resume answer).conversation := by
  obtain ⟨program, conversation⟩ := x
  cases program with
  | await r k => exact h.snoc (hanswer r)
  | _ => exact h

end Async
