/-
# The service over Core

All calls of the core handlers and of the JSON RPC server, as they run beside each other
(`src/scripts/api.js`), over a Core whose best chain changes all the time.

* `Core` is what the code relies on: a block that Core has it keeps, also when the best chain goes
  on without it, and what it reports as missing is missing then.
* `CoreService` is Core and the calls; an answer comes at any time, and is made of what Core has
  then.  `handlers_step` and `node_step` say what a step can do.
* `run_sound`: every call keeps to its rules, and was answered by Core in states of the run.
* `block_of_moment`, `notFound_of_moment`: what `getBlock` returns and misses, one state of Core
  during the call has and misses.
* `sent_as_given`, `transactionId_of_moment`, `transaction_of_moment`, `generated_in_test_network`,
  `rpc_told`: what Core is asked, and what callers are told, in every run.
-/
import Dapi.RpcServer

namespace Dapi

open Async Program

/-! ## Core -/

/-- **Core**, as far as blocks are concerned: what its states have, and what they answer.  The
blocks of the best chain are there, and a block that Core has it keeps. -/
structure Core where
  State : Type
  /-- what happens to Core: blocks come in, the best chain is another one -/
  Event : Type
  next : State → Event → State
  /-- the answer to a request, and the state after it -/
  respond : State → (r : DashCoreRequest) → Except NodeError r.Answer × State
  /-- the hash at a height of the best chain -/
  hashAt : State → ℕ → Option String
  /-- the block with a hash -/
  block : State → String → Option Buffer
  stored : ∀ s height hash, hashAt s height = some hash → ∃ b, block s hash = some b
  kept_next : ∀ s event hash b, block s hash = some b → block (next s event) hash = some b
  kept_respond : ∀ s r hash b, block s hash = some b → block (respond s r).2 hash = some b
  hashAt_of_ok : ∀ s height hash,
    (respond s (.getBlockHash (heightArgument height))).1 = .ok hash → hashAt s height = some hash
  /-- "block height out of range" -/
  hashAt_of_error : ∀ s height err,
    (respond s (.getBlockHash (heightArgument height))).1 = .error err → err.code = some (-8) →
      hashAt s height = none
  block_of_ok : ∀ s hash b, (respond s (.getRawBlock hash)).1 = .ok b → block s hash = some b
  /-- "block not found" -/
  block_of_error : ∀ s hash err,
    (respond s (.getRawBlock hash)).1 = .error err → err.code = some (-5) → block s hash = none

/-- A Core that is told its blocks and its best chain. -/
structure ListedCore where
  active : List String
  blocks : List (String × Buffer)
  stored : ∀ hash ∈ active, (blocks.lookup hash).isSome = true

namespace ListedCore

/-- A Core without blocks and transactions. -/
def empty : ListedCore := ⟨[], [], fun _ h => absurd h List.not_mem_nil⟩

/-- Blocks come in, and the best chain is another one, as far as its blocks are there. -/
def extend (newBlocks : List (String × Buffer)) (active : List String) (s : ListedCore) :
    ListedCore where
  active := active.takeWhile fun hash => ((s.blocks ++ newBlocks).lookup hash).isSome
  blocks := s.blocks ++ newBlocks
  stored := fun hash h => by
    induction active with
    | nil => cases h
    | cons hash' active ih =>
        rw [List.takeWhile_cons] at h
        split_ifs at h with hsome
        · rcases List.mem_cons.mp h with rfl | h
          · exact hsome
          · exact ih h
        · cases h

/-- `getblockhash` -/
def hashAt (s : ListedCore) : Option Json → Except NodeError String
  | some (.number n) =>
    if (n.num.toNat : ℚ) = n then
      match s.active[n.num.toNat]? with
      | some hash => .ok hash
      | none => .error ⟨"Block height out of range", some (-8)⟩
    else .error ⟨"JSON integer out of range", some (-1)⟩
  | _ => .error ⟨"JSON value is not an integer as expected", some (-1)⟩

/-- `getblock`, without verbosity -/
def rawBlock (s : ListedCore) (blockhash : String) : Except NodeError Buffer :=
  match s.blocks.lookup blockhash with
  | some block => .ok block
  | none => .error ⟨"Block not found", some (-5)⟩

end ListedCore

/-- It is a Core, whatever it answers to requests that are not about blocks. -/
def listedCore (external : (r : DashCoreRequest) → Except NodeError r.Answer) : Core where
  State := ListedCore
  Event := List (String × Buffer) × List String
  next := fun s event => s.extend event.1 event.2
  respond := fun s r =>
    (match r with
      | .getBlockHash index => s.hashAt index
      | .getRawBlock blockhash => s.rawBlock blockhash
      | r => external r, s)
  hashAt := fun s height => s.active[height]?
  block := fun s hash => s.blocks.lookup hash
  stored := fun s height hash h =>
    Option.isSome_iff_exists.mp (s.stored hash (List.mem_of_getElem? h))
  kept_next := fun s event hash b h => (List.prefix_append s.blocks event.1).lookup_eq_some h
  kept_respond := fun _ _ _ _ h => h
  hashAt_of_ok := fun s height hash h => by
    simp only [heightArgument, ListedCore.hashAt, Rat.num_natCast, Int.toNat_natCast,
      if_true] at h
    split at h
    · rename_i heq
      exact heq.trans (congrArg some (Except.ok.inj h))
    · cases h
  hashAt_of_error := fun s height err h hcode => by
    simp only [heightArgument, ListedCore.hashAt, Rat.num_natCast, Int.toNat_natCast,
      if_true] at h
    split at h
    · cases h
    · assumption
  block_of_ok := fun s hash b h => by
    simp only [ListedCore.rawBlock] at h
    split at h
    · rename_i heq
      exact heq.trans (congrArg some (Except.ok.inj h))
    · cases h
  block_of_error := fun s hash err h hcode => by
    simp only [ListedCore.rawBlock] at h
    split at h
    · cases h
    · assumption

/-- One that accepts every transaction. -/
def plainCore : Core :=
  listedCore fun r =>
    match r with
    | .getBestBlockHash | .getBlockHash _ | .sendRawTransaction _ => .ok "ab"
    | .getMnListDiff _ _ | .generateToAddress _ _ => .ok .null
    | .getRawBlock _ | .getRawTransaction _ => .error ⟨"Not found", some (-5)⟩

/-- The promise of a method of `rpc.js`. -/
def toCoreFailure {α : Type} (answer : Except NodeError α) : Except CoreFailure α :=
  answer.mapError fun err => .dashCoreRpc err.toDashCoreRpcError

/-! ## Calls -/

/-- A call of a client. -/
inductive CoreCall
  | getBlock (request : GetBlockRequest)
  | getTransaction (id : String)
  | broadcastTransaction (transaction : BytesField)
  | rpc (method : String) (params : Option Json)

/-- What a client gets. -/
inductive CoreResponse
  | block (block : Buffer)
  | transaction (response : GetTransactionResponse)
  | transactionId (id : String)
  | result (result : Json)
  /-- a call of the JSON RPC server that is not answered -/
  | unanswered

/-- The libraries, and the network of the server. -/
structure CoreSetup (T : Type) where
  lib : TransactionLib T
  jayson : Jayson
  ajv : Ajv
  networkType : String

/-- A setup in which all bytes are valid transactions. -/
def plainCoreSetup : CoreSetup Buffer :=
  ⟨⟨.ok, fun _ => none, id⟩, plainJayson, plainAjv, "regtest"⟩

section

variable {T : Type} (setup : CoreSetup T)

/-- What a caller of the JSON RPC server gets. -/
def CoreResponse.ofServed : Option Json → CoreResponse
  | some json => .result json
  | none => .unanswered

namespace CoreCall

/-- The handler of a call. -/
def handle : CoreCall → CoreProgram CoreResponse
  | .getBlock request => do
    let block ← getBlockHandler request
    pure (.block block)
  | .getTransaction id => do
    let response ← getTransactionHandler setup.lib id
    pure (.transaction response)
  | .broadcastTransaction transaction => do
    let id ← broadcastTransactionHandler setup.lib transaction
    pure (.transactionId id)
  | .rpc method params => do
    let result ← serve setup.jayson setup.ajv setup.networkType method params
    pure (CoreResponse.ofServed result)

/-- What a call asks after a conversation. -/
def MayAsk : CoreCall → CoreConversation → DashCoreRequest → Prop
  | .getBlock request => GetBlock.MayAsk request
  | .getTransaction id => GetTransaction.MayAsk id
  | .broadcastTransaction transaction => BroadcastTransaction.MayAsk setup.lib transaction
  | .rpc method params => CallCommand.MayAsk setup.networkType method params

/-- What it returns after a conversation. -/
inductive Returns : CoreCall → CoreResponse → CoreConversation → Prop
  | getBlock {request : GetBlockRequest} {block : Buffer} {c : CoreConversation}
    (h : GetBlock.Returns request block c) : Returns (.getBlock request) (.block block) c
  | getTransaction {id : String} {response : GetTransactionResponse} {c : CoreConversation}
    (h : GetTransaction.Returns setup.lib id response c) :
    Returns (.getTransaction id) (.transaction response) c
  | broadcastTransaction {transaction : BytesField} {id : String} {c : CoreConversation}
    (h : BroadcastTransaction.Returns setup.lib transaction id c) :
    Returns (.broadcastTransaction transaction) (.transactionId id) c
  | rpc {method : String} {params result : Option Json} {c : CoreConversation}
    (h : CallCommand.Ends setup.jayson setup.ajv setup.networkType method params result c) :
    Returns (.rpc method params) (.ofServed result) c

/-- What it throws after a conversation. -/
def Fails : CoreCall → CoreFailure → CoreConversation → Prop
  | .getBlock request => GetBlock.Fails request
  | .getTransaction id => GetTransaction.Fails setup.lib id
  | .broadcastTransaction transaction => BroadcastTransaction.Fails setup.lib transaction
  | .rpc method params => CallCommand.Fails setup.jayson setup.ajv setup.networkType method params

/-- **Every handler keeps to its rules.** -/
theorem handle_obeys (call : CoreCall) :
    (call.handle setup).Obeys (Protocol.remembering (call.MayAsk setup)) (call.Returns setup)
      (call.Fails setup) [] := by
  cases call with
  | getBlock request =>
      exact obeys_bind ((getBlockHandler_obeys request).mono (fun _ _ h => .getBlock h)
        fun _ _ h => h)
  | getTransaction id =>
      exact obeys_bind ((getTransactionHandler_obeys setup.lib id).mono
        (fun _ _ h => .getTransaction h) fun _ _ h => h)
  | broadcastTransaction transaction =>
      exact obeys_bind ((broadcastTransactionHandler_obeys setup.lib transaction).mono
        (fun _ _ h => .broadcastTransaction h) fun _ _ h => h)
  | rpc method params =>
      exact obeys_bind ((serve_obeys setup.jayson setup.ajv setup.networkType method params).mono
        (fun _ _ h => .rpc h) fun _ _ h => h)

end CoreCall

/-! ## The system -/

/-- A call at work. -/
structure CoreHandler where
  call : CoreCall
  running : Running coreSignature CoreResponse

variable (core : Core)

/-- Core, and the calls. -/
structure CoreService where
  node : core.State
  handlers : ℕ → Option CoreHandler

namespace CoreService

variable {core}

/-- No handler runs yet. -/
def initial (node : core.State) : CoreService core := ⟨node, fun _ => none⟩

variable (core) in
/-- What can happen: a call comes in, something happens to Core, Core answers, or the connection to
it is lost, with an error that has no code. -/
inductive Action
  | request (i : ℕ) (call : CoreCall)
  | event (e : core.Event)
  | answer (i : ℕ)
  | lost (i : ℕ) (message : String)

/-- The call goes on with an answer. -/
def resume (s : CoreService core) (i : ℕ) (handler : CoreHandler)
    (answer : (r : DashCoreRequest) → Except CoreFailure r.Answer) : CoreService core :=
  { s with handlers :=
      Function.update s.handlers i (some ⟨handler.call, handler.running.resume answer⟩) }

/-- The state after an action. -/
def step (s : CoreService core) : Action core → CoreService core
  | .request i call =>
    match s.handlers i with
    | none => { s with handlers :=
        Function.update s.handlers i (some ⟨call, .start (call.handle setup)⟩) }
    | some _ => s
  | .event e => { s with node := core.next s.node e }
  | .answer i =>
    match s.handlers i with
    | some handler =>
      match handler.running.program with
      | .await r _ =>
        { s.resume i handler fun r => toCoreFailure (core.respond s.node r).1 with
          node := (core.respond s.node r).2 }
      | _ => s
    | none => s
  | .lost i message =>
    match s.handlers i with
    | some handler => s.resume i handler fun _ => .error (.dashCoreRpc ⟨message, none⟩)
    | none => s

/-- A run of the service. -/
abbrev run (node : core.State) : List (Action core) → CoreService core :=
  Machine.run (step setup) (initial node)

/-! ## The invariant -/

/-- The call is there. -/
def HasCall (i : ℕ) (call : CoreCall) (s : CoreService core) : Prop :=
  ∃ running, s.handlers i = some ⟨call, running⟩

end CoreService

variable {core}

/-- An exchange with Core in a state: the answer is Core's, or the connection was lost. -/
def Core.Gives (s : core.State) (x : Exchange coreSignature) : Prop :=
  x.answer = toCoreFailure (core.respond s x.request).1 ∨
    ∃ message, x.answer = .error (.dashCoreRpc ⟨message, none⟩)

namespace Core

variable {s : core.State} {r : DashCoreRequest}

/-- An answer is what Core responds. -/
theorem respond_of_gives {a : r.Answer}
    (h : Gives s (⟨r, .ok a⟩ : Exchange coreSignature)) : (core.respond s r).1 = .ok a := by
  rcases h with h | ⟨message, h⟩
  · have h' : Except.ok a = toCoreFailure (core.respond s r).1 := h
    cases hrespond : (core.respond s r).1 with
    | ok a' =>
        rw [hrespond] at h'
        exact congrArg Except.ok (Except.ok.inj h').symm
    | error err =>
        rw [hrespond] at h'
        cases h'
  · cases h

/-- What a method of `rpc.js` rejects with is an error of Core, and its code and its message are
the ones that Core has reported. -/
theorem error_of_gives {e : CoreFailure}
    (h : Gives s (⟨r, .error e⟩ : Exchange coreSignature)) :
    ∃ error, e = .dashCoreRpc error ∧ ∀ n, error.code = some n →
      ∃ err, (core.respond s r).1 = .error err ∧ err.code = some n ∧
        err.message = error.message := by
  rcases h with h | ⟨message, h⟩
  · have h' : Except.error e = toCoreFailure (core.respond s r).1 := h
    cases hrespond : (core.respond s r).1 with
    | ok a =>
        rw [hrespond] at h'
        cases h'
    | error err =>
        rw [hrespond] at h'
        refine ⟨err.toDashCoreRpcError, Except.error.inj h', fun n hn => ⟨err, rfl, ?_, rfl⟩⟩
        unfold NodeError.toDashCoreRpcError at hn
        split_ifs at hn
        exact hn
  · exact ⟨⟨message, none⟩, Except.error.inj h, fun n hn => by cases hn⟩

end Core

namespace CoreService

/-- An exchange of the call with Core in a state. -/
def Gives (i : ℕ) (call : CoreCall) (s : CoreService core) (x : Exchange coreSignature) : Prop :=
  s.HasCall i call ∧ Core.Gives s.node x

/-- **The invariant of a call.**  It keeps to its rules, and was answered by Core in states of the
run, in their order. -/
structure Sound (node : core.State) (as : List (Action core)) (i : ℕ) (handler : CoreHandler) :
    Prop where
  obeys : handler.running.Obeys (handler.call.MayAsk setup) (handler.call.Returns setup)
    (handler.call.Fails setup)
  had : HadIn (step setup) (initial node) (Gives i handler.call) as handler.running.conversation

variable {setup} {s : CoreService core} {i : ℕ} {handler : CoreHandler}

/-- **What a step can do to a call**: nothing, or start it, or answer it. -/
theorem handlers_step {a : Action core} (h : (s.step setup a).handlers i = some handler) :
    s.handlers i = some handler ∨
      (∃ call : CoreCall, handler = ⟨call, .start (call.handle setup)⟩) ∨
        ∃ handler' answer, s.handlers i = some handler' ∧
          handler = ⟨handler'.call, handler'.running.resume answer⟩ ∧
            ∀ r, Core.Gives s.node ⟨r, answer r⟩ := by
  have hupdate : ∀ j handler', Function.update s.handlers j (some handler') i = some handler →
      s.handlers i = some handler ∨ (j = i ∧ handler = handler') := by
    intro j handler' hj
    by_cases hij : i = j
    · subst hij
      rw [Function.update_self] at hj
      exact Or.inr ⟨rfl, (Option.some.inj hj).symm⟩
    · rw [Function.update_of_ne hij] at hj
      exact Or.inl hj
  cases a with
  | request j call =>
      cases hj : s.handlers j with
      | some handler' =>
          simp only [step, hj] at h
          exact Or.inl h
      | none =>
          simp only [step, hj] at h
          rcases hupdate j _ h with h | ⟨-, rfl⟩
          · exact Or.inl h
          · exact Or.inr (Or.inl ⟨call, rfl⟩)
  | event e => exact Or.inl h
  | answer j =>
      cases hj : s.handlers j with
      | none =>
          simp only [step, hj] at h
          exact Or.inl h
      | some handler' =>
          simp only [step, hj] at h
          split at h
          · rcases hupdate j _ h with h | ⟨rfl, rfl⟩
            · exact Or.inl h
            · exact Or.inr (Or.inr ⟨handler', _, hj, rfl, fun r => Or.inl rfl⟩)
          · exact Or.inl h
  | lost j message =>
      cases hj : s.handlers j with
      | none =>
          simp only [step, hj] at h
          exact Or.inl h
      | some handler' =>
          simp only [step, hj] at h
          rcases hupdate j _ h with h | ⟨rfl, rfl⟩
          · exact Or.inl h
          · exact Or.inr (Or.inr ⟨handler', _, hj, rfl, fun r => Or.inr ⟨message, rfl⟩⟩)

/-- **Every call of every run is sound.** -/
theorem run_sound (node : core.State) (as : List (Action core)) (i : ℕ) (handler : CoreHandler)
    (h : (run setup node as).handlers i = some handler) : Sound setup node as i handler := by
  induction as using List.reverseRecOn generalizing handler with
  | nil => cases h
  | append_singleton as a ih =>
      unfold run at h
      rw [Machine.run_append] at h
      rcases handlers_step h with h | ⟨call, rfl⟩ | ⟨handler', answer, hi, rfl, hanswer⟩
      · exact ⟨(ih handler h).obeys, (ih handler h).had.later a⟩
      · exact ⟨Running.obeys_start (call.handle_obeys setup), .nil _⟩
      · have hsound := ih handler' hi
        refine ⟨hsound.obeys.resume answer, ?_⟩
        have hcall : (run setup node as).HasCall i handler'.call := ⟨handler'.running, hi⟩
        exact (hsound.had.resume fun r => ⟨hcall, hanswer r⟩).later a

/-- What a step can do to Core. -/
theorem node_step (setup : CoreSetup T) (s : CoreService core) (a : Action core) :
    (s.step setup a).node = s.node ∨ (∃ e, (s.step setup a).node = core.next s.node e) ∨
      ∃ r, (s.step setup a).node = (core.respond s.node r).2 := by
  cases a with
  | request j call =>
      refine Or.inl ?_
      cases hj : s.handlers j <;> simp only [step, hj]
  | event e => exact Or.inr (Or.inl ⟨e, rfl⟩)
  | answer j =>
      cases hj : s.handlers j with
      | none =>
          refine Or.inl ?_
          simp only [step, hj]
      | some handler =>
          simp only [step, hj]
          cases handler.running.program with
          | await r k => exact Or.inr (Or.inr ⟨r, rfl⟩)
          | _ => exact Or.inl rfl
  | lost j message =>
      refine Or.inl ?_
      cases hj : s.handlers j <;> simp only [step, hj, resume]

/-- A block that Core has it keeps. -/
theorem block_run {hash : String} {b : Buffer} (h : core.block s.node hash = some b)
    (as : List (Action core)) : core.block (Machine.run (step setup) s as).node hash = some b := by
  refine Machine.run_invariant
    (I := fun s : CoreService core => core.block s.node hash = some b) ?_ h as
  intro s a h
  rcases node_step setup s a with heq | ⟨e, heq⟩ | ⟨r, heq⟩
  · rw [heq]
    exact h
  · rw [heq]
    exact core.kept_next s.node e hash b h
  · rw [heq]
    exact core.kept_respond s.node r hash b h

/-! ## Blocks -/

end CoreService

/-- The block that a request is about, in a state of Core. -/
def Core.HasBlock (s : core.State) (request : GetBlockRequest) (block : Buffer) : Prop :=
  (request.hash ≠ "" ∧ core.block s request.hash = some block) ∨
    (request.hash = "" ∧ ∃ hash, core.hashAt s request.height = some hash ∧
      core.block s hash = some block)

namespace CoreService

variable {setup} {node : core.State} {as : List (Action core)} {i : ℕ} {call : CoreCall}
  {c : CoreConversation}

/-- The last exchange of a conversation, and the part of the run before its answer. -/
theorem exists_moment {x : Exchange coreSignature}
    (h : HadIn (step setup) (initial node) (Gives i call) as (c ++ [x])) :
    ∃ before after, as = before ++ after ∧
      HadIn (step setup) (initial node) (Gives i call) before c ∧
        (run setup node before).HasCall i call ∧ Core.Gives (run setup node before).node x := by
  obtain ⟨before, after, heq, hbefore, hcall, hx⟩ := h.exists_of_snoc
  exact ⟨before, after, heq, hbefore, hcall, hx⟩

/-- The hash that a call has got for a height was the one at the height, and its block was there. -/
theorem hashAt_of_had {height : ℕ} {hash : String}
    (h : HadIn (step setup) (initial node) (Gives i call) as
      [⟨.getBlockHash (heightArgument height), .ok hash⟩]) :
    ∃ before after b, as = before ++ after ∧ (run setup node before).HasCall i call ∧
      core.hashAt (run setup node before).node height = some hash ∧
        core.block (run setup node before).node hash = some b ∧
          core.block (run setup node as).node hash = some b := by
  obtain ⟨before, after, rfl, -, hcall, hx⟩ := exists_moment (c := []) h
  have hhash := core.hashAt_of_ok _ _ _ (Core.respond_of_gives hx)
  obtain ⟨b, hb⟩ := core.stored _ _ _ hhash
  refine ⟨before, after, b, rfl, hcall, hhash, hb, ?_⟩
  unfold run
  rw [Machine.run_append]
  exact block_run hb after

/-- **A block is that of one moment.**  In every run, when a call returns a block, there was a
moment since the call came in at which Core had it under the given hash, or under the hash that was
then at the given height, however the best chain changed between the two requests. -/
theorem block_of_moment (setup : CoreSetup T) (core : Core) (node : core.State)
    (as : List (Action core)) (i : ℕ) (request : GetBlockRequest)
    (running : Running coreSignature CoreResponse) (block : Buffer)
    (hhandler : (run setup node as).handlers i = some ⟨.getBlock request, running⟩)
    (hdone : running.program = .done (.block block)) :
    ∃ before after, as = before ++ after ∧
      (run setup node before).HasCall i (.getBlock request) ∧
        Core.HasBlock (run setup node before).node request block := by
  have hsound := run_sound node as i _ hhandler
  have hobeys := hsound.obeys.program
  have hhad := hsound.had
  rw [hdone] at hobeys
  cases hobeys with
  | getBlock hreturns =>
      generalize running.conversation = c at hreturns hhad
      cases hreturns with
      | block hhash block =>
          obtain ⟨before, after, rfl, hbefore, hcall, hx⟩ := exists_moment hhad
          have hblock := core.block_of_ok _ _ _ (Core.respond_of_gives hx)
          cases hhash with
          | given hne => exact ⟨before, after, rfl, hcall, Or.inl ⟨hne, hblock⟩⟩
          | atHeight hempty hash =>
              obtain ⟨earlier, between, b, rfl, hcall', hat, hb, hb'⟩ := hashAt_of_had hbefore
              obtain rfl := Option.some.inj (hb'.symm.trans hblock)
              exact ⟨earlier, between ++ after, List.append_assoc _ _ _, hcall',
                Or.inr ⟨hempty, _, hat, hb⟩⟩

/-- The best chain changes between the two requests. -/
theorem block_of_moment_reorganized : ∃ before after,
    ([.event ([("a", [1]), ("b", [2])], ["a", "b"]), .request 0 (.getBlock ⟨1, ""⟩), .answer 0,
        .event ([("c", [3])], ["a", "c"]), .answer 0] : List (Action plainCore)) =
      before ++ after ∧
      (run plainCoreSetup ListedCore.empty before).HasCall 0 (.getBlock ⟨1, ""⟩) ∧
        Core.HasBlock (run plainCoreSetup ListedCore.empty before).node ⟨1, ""⟩ [2] :=
  block_of_moment plainCoreSetup plainCore ListedCore.empty _ 0 _ _ _ rfl rfl

/-- **What is not found is missing at one moment.**  In every run, when a call for a block is told
that it is not found, there was a moment since the call came in at which the height was out of
range, or, for a hash that was given, at which Core did not have the block. -/
theorem notFound_of_moment (setup : CoreSetup T) (core : Core) (node : core.State)
    (as : List (Action core)) (i : ℕ) (request : GetBlockRequest)
    (running : Running coreSignature CoreResponse) (message : String)
    (hhandler : (run setup node as).handlers i = some ⟨.getBlock request, running⟩)
    (hthrown : running.program = .throw (.common .NotFoundGrpcError message)) :
    ∃ before after, as = before ++ after ∧
      (run setup node before).HasCall i (.getBlock request) ∧
        ((message = "Invalid block height" ∧ request.hash = "" ∧
            core.hashAt (run setup node before).node request.height = none) ∨
          (message = "Block not found" ∧ request.hash ≠ "" ∧
            core.block (run setup node before).node request.hash = none)) := by
  have hsound := run_sound node as i _ hhandler
  have hobeys := hsound.obeys.program
  have hhad := hsound.had
  rw [hthrown] at hobeys
  have hfails : GetBlock.Fails request (.common .NotFoundGrpcError message)
    running.conversation := hobeys
  generalize running.conversation = c at hfails hhad
  generalize hfailure : CoreFailure.common .NotFoundGrpcError message = failure at hfails
  cases hfails with
  | unspecified => cases hfailure
  | hash hempty e =>
      obtain ⟨before, after, rfl, -, hcall, hx⟩ := exists_moment (c := []) hhad
      obtain ⟨error, rfl, hcode⟩ := Core.error_of_gives hx
      obtain ⟨hrange, rfl⟩ := heightFailure_eq_notFound hfailure.symm
      obtain ⟨err, herr, herrcode, -⟩ := hcode _ hrange
      exact ⟨before, after, rfl, hcall,
        Or.inl ⟨rfl, hempty, core.hashAt_of_error _ _ _ herr herrcode⟩⟩
  | block hhash e =>
      obtain ⟨before, after, rfl, hbefore, hcall, hx⟩ := exists_moment hhad
      obtain ⟨error, rfl, hcode⟩ := Core.error_of_gives hx
      obtain ⟨hmissing, rfl⟩ := notFoundFailure_eq_notFound hfailure.symm
      obtain ⟨err, herr, herrcode, -⟩ := hcode _ hmissing
      have hnone := core.block_of_error _ _ _ herr herrcode
      cases hhash with
      | given hne => exact ⟨before, after, rfl, hcall, Or.inr ⟨rfl, hne, hnone⟩⟩
      | atHeight hempty hash =>
          -- the block of a hash that Core has given does not go away
          obtain ⟨earlier, between, b, rfl, -, -, -, hb'⟩ := hashAt_of_had hbefore
          cases hb'.symm.trans hnone

/-- The block comes after the answer. -/
theorem notFound_of_moment_early : ∃ before after,
    ([.request 0 (.getBlock ⟨1, ""⟩), .answer 0, .event ([("a", [1]), ("b", [2])], ["a", "b"])] :
        List (Action plainCore)) = before ++ after ∧
      plainCore.hashAt (run plainCoreSetup ListedCore.empty before).node 1 = none := by
  obtain ⟨before, after, heq, -, ⟨-, -, hnone⟩ | ⟨hmessage, -⟩⟩ :=
    notFound_of_moment plainCoreSetup plainCore ListedCore.empty
      [.request 0 (.getBlock ⟨1, ""⟩), .answer 0, .event ([("a", [1]), ("b", [2])], ["a", "b"])]
      0 ⟨1, ""⟩ _ "Invalid block height" rfl rfl
  · exact ⟨before, after, heq, hnone⟩
  · exact absurd hmessage (by decide)

/-! ## Transactions, and the JSON RPC server -/

/-- **Core gets the transactions that are valid, as they were sent, once.**  In every run, a call
sends a transaction to Core only if it is the call of a client that broadcasts these bytes, they
are a valid transaction, and the call asks Core nothing else, at any time. -/
theorem sent_as_given (setup : CoreSetup T) (core : Core) (node : core.State)
    (as : List (Action core)) (i : ℕ) (handler : CoreHandler) (tx : Buffer)
    (hhandler : (run setup node as).handlers i = some handler)
    (hasked : .sendRawTransaction tx ∈ handler.running.asked) :
    handler.call = .broadcastTransaction (.bytes tx) ∧
      (∃ transaction, setup.lib.newTransaction tx = .ok transaction ∧
        setup.lib.verify transaction = none) ∧
        handler.running.asked = [.sendRawTransaction tx] := by
  have hobeys := (run_sound node as i _ hhandler).obeys
  obtain ⟨c, hmay⟩ := hobeys.requestOk_of_mem_asked hasked
  obtain ⟨call, running⟩ := handler
  cases call with
  | broadcastTransaction transaction =>
      obtain ⟨hsingle, hfirst⟩ := hobeys.asked_eq_singleton
        (fun c r h => by cases h with | send => rfl) hasked
      cases hfirst with
      | send tx hcheck =>
          obtain ⟨rfl, hvalid⟩ := checkTransaction_eq_ok hcheck
          exact ⟨rfl, hvalid, hsingle⟩
  | _ => cases hmay

/-- The bytes are those of a valid transaction. -/
theorem sent_as_given_valid : plainCoreSetup.lib.verify [7] = none := by
  obtain ⟨-, ⟨transaction, htransaction, hvalid⟩, -⟩ :=
    sent_as_given plainCoreSetup plainCore ListedCore.empty
      [.request 0 (.broadcastTransaction (.bytes [7]))] 0 _ [7] rfl List.mem_cons_self
  cases htransaction
  exact hvalid

/-- **What a client is told of its transaction, Core has said.**  In every run, a client gets the
identifier that Core has answered for its bytes at one moment of the call, and is told that the
transaction is there already only if that is what Core has reported for them. -/
theorem transactionId_of_moment (setup : CoreSetup T) (core : Core) (node : core.State)
    (as : List (Action core)) (i : ℕ) (transaction : BytesField)
    (running : Running coreSignature CoreResponse)
    (hhandler : (run setup node as).handlers i =
      some ⟨.broadcastTransaction transaction, running⟩) :
    (∀ id, running.program = .done (.transactionId id) →
      ∃ before after tx, as = before ++ after ∧ transaction = .bytes tx ∧
        (run setup node before).HasCall i (.broadcastTransaction transaction) ∧
          (core.respond (run setup node before).node (.sendRawTransaction tx)).1 = .ok id) ∧
      ∀ message, running.program = .throw (.common .AlreadyExistsGrpcError message) →
        ∃ before after tx err, as = before ++ after ∧ transaction = .bytes tx ∧
          (run setup node before).HasCall i (.broadcastTransaction transaction) ∧
            (core.respond (run setup node before).node (.sendRawTransaction tx)).1 = .error err ∧
              err.code = some (-27) ∧
                message = "Transaction already in chain: " ++ err.message := by
  have hsound := run_sound node as i _ hhandler
  have hobeys := hsound.obeys.program
  have hhad := hsound.had
  constructor
  · intro id hdone
    rw [hdone] at hobeys
    cases hobeys with
    | broadcastTransaction hreturns =>
        generalize running.conversation = c at hreturns hhad
        cases hreturns with
        | sent tx hcheck =>
            obtain ⟨before, after, rfl, -, hcall, hx⟩ := exists_moment (c := []) hhad
            exact ⟨before, after, tx, rfl, (checkTransaction_eq_ok hcheck).1, hcall,
              Core.respond_of_gives hx⟩
  · intro message hthrown
    rw [hthrown] at hobeys
    have hfails : BroadcastTransaction.Fails setup.lib transaction
      (.common .AlreadyExistsGrpcError message) running.conversation := hobeys
    generalize running.conversation = c at hfails hhad
    generalize hfailure : CoreFailure.common .AlreadyExistsGrpcError message = failure at hfails
    cases hfails with
    | invalid e hcheck =>
        obtain ⟨text, rfl⟩ := checkTransaction_eq_error hcheck
        cases hfailure
    | sent tx hcheck e =>
        obtain ⟨before, after, rfl, -, hcall, hx⟩ := exists_moment (c := []) hhad
        obtain ⟨error, rfl, hcode⟩ := Core.error_of_gives hx
        obtain ⟨hchain, rfl⟩ := broadcastFailure_eq_alreadyExists hfailure.symm
        obtain ⟨err, herr, herrcode, hmessage⟩ := hcode _ hchain
        rw [← hmessage]
        exact ⟨before, after, tx, err, rfl, (checkTransaction_eq_ok hcheck).1, hcall, herr,
          herrcode, rfl⟩

/-- The transaction is sent, and the identifier told. -/
theorem transactionId_of_moment_sent : ∃ before after tx,
    ([.request 0 (.broadcastTransaction (.bytes [7])), .answer 0] : List (Action plainCore)) =
      before ++ after ∧ .bytes [7] = BytesField.bytes tx ∧
        (run plainCoreSetup ListedCore.empty before).HasCall 0
          (.broadcastTransaction (.bytes [7])) ∧
          (plainCore.respond (run plainCoreSetup ListedCore.empty before).node
            (.sendRawTransaction tx)).1 = .ok "ab" :=
  (transactionId_of_moment plainCoreSetup plainCore ListedCore.empty _ 0 _ _ rfl).1 _ rfl

/-- **A transaction comes from one answer.**  In every run, all that a response says of a
transaction, Core has answered at one moment of the call; and a client is told that it is not found
only if Core has said so at one moment of the call. -/
theorem transaction_of_moment (setup : CoreSetup T) (core : Core) (node : core.State)
    (as : List (Action core)) (i : ℕ) (id : String) (running : Running coreSignature CoreResponse)
    (hhandler : (run setup node as).handlers i = some ⟨.getTransaction id, running⟩) :
    (∀ response, running.program = .done (.transaction response) →
      ∃ before after rawTransaction transaction, as = before ++ after ∧
        (run setup node before).HasCall i (.getTransaction id) ∧
          (core.respond (run setup node before).node (.getRawTransaction id)).1 =
            .ok rawTransaction ∧
            setup.lib.newTransaction rawTransaction.hex = .ok transaction ∧
              response = ⟨setup.lib.toBuffer transaction, rawTransaction.blockhash.getD [],
                rawTransaction.height, rawTransaction.confirmations,
                rawTransaction.instantlock_internal, rawTransaction.chainlock⟩) ∧
      ∀ message, running.program = .throw (.common .NotFoundGrpcError message) →
        ∃ before after err, as = before ++ after ∧
          (run setup node before).HasCall i (.getTransaction id) ∧
            (core.respond (run setup node before).node (.getRawTransaction id)).1 = .error err ∧
              err.code = some (-5) := by
  have hsound := run_sound node as i _ hhandler
  have hobeys := hsound.obeys.program
  have hhad := hsound.had
  constructor
  · intro response hdone
    rw [hdone] at hobeys
    cases hobeys with
    | getTransaction hreturns =>
        generalize running.conversation = c at hreturns hhad
        cases hreturns with
        | transaction rawTransaction transaction htransaction =>
            obtain ⟨before, after, rfl, -, hcall, hx⟩ := exists_moment (c := []) hhad
            exact ⟨before, after, rawTransaction, transaction, rfl, hcall,
              Core.respond_of_gives hx, htransaction, rfl⟩
  · intro message hthrown
    rw [hthrown] at hobeys
    have hfails : GetTransaction.Fails setup.lib id (.common .NotFoundGrpcError message)
      running.conversation := hobeys
    generalize running.conversation = c at hfails hhad
    generalize hfailure : CoreFailure.common .NotFoundGrpcError message = failure at hfails
    cases hfails with
    | unspecified => cases hfailure
    | library rawTransaction text htransaction => cases hfailure
    | transaction e =>
        obtain ⟨before, after, rfl, -, hcall, hx⟩ := exists_moment (c := []) hhad
        obtain ⟨error, rfl, hcode⟩ := Core.error_of_gives hx
        obtain ⟨hmissing, rfl⟩ := notFoundFailure_eq_notFound hfailure.symm
        obtain ⟨err, herr, herrcode, -⟩ := hcode _ hmissing
        exact ⟨before, after, err, rfl, hcall, herr, herrcode⟩

/-- Core does not know the identifier. -/
theorem transaction_of_moment_notFound : ∃ before after err,
    ([.request 0 (.getTransaction "ab"), .answer 0] : List (Action plainCore)) = before ++ after ∧
      (run plainCoreSetup ListedCore.empty before).HasCall 0 (.getTransaction "ab") ∧
        (plainCore.respond (run plainCoreSetup ListedCore.empty before).node
          (.getRawTransaction "ab")).1 = .error err ∧ err.code = some (-5) :=
  (transaction_of_moment plainCoreSetup plainCore ListedCore.empty _ 0 "ab" _ rfl).2 _ rfl

/-- **Blocks are generated in test networks only.**  In every run, Core is asked to generate blocks
only by a call of the JSON RPC server of a node of a regtest or a devnet, for the positive number
of blocks and the address of its parameters; and it is all that the call asks, at any time. -/
theorem generated_in_test_network (setup : CoreSetup T) (core : Core) (node : core.State)
    (as : List (Action core)) (i : ℕ) (handler : CoreHandler) (blocksNumber address : Option Json)
    (hhandler : (run setup node as).handlers i = some handler)
    (hasked : .generateToAddress blocksNumber address ∈ handler.running.asked) :
    (isRegtest setup.networkType = true ∨ isDevnet setup.networkType = true) ∧
      (∃ params, handler.call = .rpc "generateToAddress" params ∧
        blocksNumber = Json.get? "blocksNumber" params ∧ address = Json.get? "address" params) ∧
        (∃ n : ℕ, blocksNumber = some (.number n) ∧ 1 ≤ n) ∧ (∃ a, address = some (.string a)) ∧
          handler.running.asked = [.generateToAddress blocksNumber address] := by
  have hobeys := (run_sound node as i _ hhandler).obeys
  obtain ⟨c, hmay⟩ := hobeys.requestOk_of_mem_asked hasked
  obtain ⟨call, running⟩ := handler
  cases call with
  | rpc method params =>
      obtain ⟨hsingle, hfirst⟩ := hobeys.asked_eq_singleton (fun c r h => by cases h <;> rfl) hasked
      generalize hrequest : DashCoreRequest.generateToAddress blocksNumber address = r at hfirst
      cases hfirst with
      | generateToAddress hmethod hnetwork n hn a hnumber haddress =>
          cases hrequest
          rw [hmethod]
          exact ⟨hnetwork, ⟨params, rfl, hnumber.symm, haddress.symm⟩, ⟨n, rfl, hn⟩, ⟨a, rfl⟩,
            hsingle⟩
      | _ => cases hrequest
  | _ => cases hmay

/-- On regtest the call is served. -/
theorem generated_in_test_network_regtest :
    isRegtest plainCoreSetup.networkType = true ∨ isDevnet plainCoreSetup.networkType = true :=
  (generated_in_test_network plainCoreSetup plainCore ListedCore.empty
    [.request 0 (.rpc "generateToAddress"
      (some (.object [("blocksNumber", .number 1), ("address", .string "y")])))]
    0 _ _ _ rfl List.mem_cons_self).1

/-- **What a caller of the JSON RPC server is told.**  In every run, a result is what Core has
answered at one moment of the call, to the request that the method and the parameters say.  An error
is always one of the server: jayson refuses the call, and then Core was asked nothing; or the method
is one that the network has, and the parameters are wrong, and then Core was asked nothing; or it
has the message of what Core reported, or of the lost connection, at one moment of the call. -/
theorem rpc_told (setup : CoreSetup T) (core : Core) (node : core.State) (as : List (Action core))
    (i : ℕ) (method : String) (params : Option Json)
    (running : Running coreSignature CoreResponse)
    (hhandler : (run setup node as).handlers i = some ⟨.rpc method params, running⟩) :
    (∀ result, running.program = .done (.result result) → ∃ before after r a,
      as = before ++ after ∧ (run setup node before).HasCall i (.rpc method params) ∧
        CallCommand.MayAsk setup.networkType method params [] r ∧
          (core.respond (run setup node before).node r).1 = .ok a ∧
            CallCommand.Returns result [⟨r, .ok a⟩]) ∧
      ∀ e, running.program = .throw e → ∃ error, e = .rpc error ∧
        ((running.asked = [] ∧ setup.jayson.dispatch (commandNames setup.ajv setup.networkType)
            method params = .refuse error) ∨
          method ∈ commandNames setup.ajv setup.networkType ∧
            ((∃ text, error = ⟨-32602, "params" ++ text, none⟩ ∧ running.asked = []) ∨
              ∃ before after r coreError, as = before ++ after ∧
                (run setup node before).HasCall i (.rpc method params) ∧
                  Core.Gives (run setup node before).node ⟨r, .error (.dashCoreRpc coreError)⟩ ∧
                    error = ⟨-32602, coreError.message, none⟩)) := by
  have hsound := run_sound node as i _ hhandler
  have hobeys := hsound.obeys.program
  have hhad := hsound.had
  constructor
  · intro result hdone
    rw [hdone] at hobeys
    generalize hresponse : CoreResponse.result result = response at hobeys
    cases hobeys with
    | @rpc _ _ served _ hends =>
        cases served with
        | none => cases hresponse
        | some json =>
            obtain rfl : result = json := CoreResponse.result.inj hresponse
            obtain ⟨r, a, hc⟩ := hends.returns.exists_eq
            have hmay := hsound.obeys.conversation [] _ [] hc
            have hhad' : HadIn (step setup) (initial node) (Gives i (.rpc method params)) as
              ([] ++ [⟨r, .ok a⟩]) := hc ▸ hhad
            obtain ⟨before, after, rfl, -, hcall, hx⟩ := exists_moment hhad'
            exact ⟨before, after, r, a, rfl, hcall, hmay, Core.respond_of_gives hx,
              hc ▸ hends.returns⟩
  · intro e hthrown
    rw [hthrown] at hobeys
    have hfails : CallCommand.Fails setup.jayson setup.ajv setup.networkType method params e
        running.conversation := hobeys
    have hasked : running.asked = running.conversation.map Exchange.request := by
      unfold Running.asked Running.awaited
      rw [hthrown, List.append_nil]
    rw [hasked]
    generalize running.conversation = c at hfails hhad
    cases hfails with
    | refused error hrefused => exact ⟨error, rfl, Or.inl ⟨rfl, hrefused⟩⟩
    | command hmethod hfails =>
        cases hfails with
        | arguments text => exact ⟨_, rfl, Or.inr ⟨hmethod, Or.inl ⟨text, rfl, rfl⟩⟩⟩
        | core r e =>
            obtain ⟨before, after, rfl, -, hcall, hx⟩ := exists_moment (c := []) hhad
            obtain ⟨error, rfl, -⟩ := Core.error_of_gives hx
            exact ⟨_, rfl, Or.inr ⟨hmethod, Or.inr ⟨before, after, r, error, rfl, hcall, hx, rfl⟩⟩⟩

/-- The hash is the one of a moment. -/
theorem rpc_told_hash : ∃ before after r a,
    ([.request 0 (.rpc "getBestBlockHash" none), .answer 0] : List (Action plainCore)) =
      before ++ after ∧
      (run plainCoreSetup ListedCore.empty before).HasCall 0 (.rpc "getBestBlockHash" none) ∧
        CallCommand.MayAsk "regtest" "getBestBlockHash" none [] r ∧
          (plainCore.respond (run plainCoreSetup ListedCore.empty before).node r).1 = .ok a ∧
            CallCommand.Returns (.string "ab") [⟨r, .ok a⟩] :=
  (rpc_told plainCoreSetup plainCore ListedCore.empty _ 0 _ _ _ rfl).1 _ rfl

end CoreService

end

end Dapi
