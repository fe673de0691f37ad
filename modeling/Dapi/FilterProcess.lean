/-
# The process of the transaction filter stream

`src/scripts/tx-filter-stream.js`: the ZMQ client, the listeners for its messages
(`src/lib/transactionsFilter/testRawTransactionAgainstFilterCollectionFactory.js`,
`emitBlockEventToFilterCollectionFactory.js`, `emitInstantLockToFilterCollectionFactory.js`), and
the server with its calls (`StreamSystem`).  Nothing in the process catches what a listener of a
socket throws: such an exception ends the process.

* `readMessage` says what a message is read as, `FilterProcess.step` what an event does.
* `process_refines_system`: as long as the process lives, its calls are those of the server that
  gets the notifications which Core has written.
* `isDead_iff`: when the process has ended.
* `isDead_iff_outage`: it ends by nothing but a long outage, when all scripts parse.
* `rawTransaction_kills_iff`: which transactions end it.
-/
import Dapi.Interference
import Dapi.NullScripts
import Dapi.ZmqClient

namespace Dapi

/-! ## Messages -/

/-- What Core announces. -/
inductive Notification
  | rawTransaction (transaction : Transaction)
  | block (block : Block)
  | instantLock (transaction : Transaction) (instantLock : InstantLock)
  deriving DecidableEq

/-- The step of the streams that a notification causes. -/
def Notification.toAction : Notification → StreamSystem.Action
  | .rawTransaction tx => .rawTransaction tx
  | .block b => .block b
  | .instantLock tx lock => .instantLock tx lock

/-- What dashcore-lib reads messages with, beside `new Transaction(rawTransaction)`. -/
structure MessageLib where
  /-- `new Transaction().fromBuffer(buffer)`, with what its `toBuffer()` returns -/
  fromBuffer : Buffer → Except String (Transaction × Buffer)
  newBlock : Buffer → Except String Block
  newInstantLock : Buffer → Except String InstantLock

section

variable {F : Type} (lib : DashcoreLib F) (messages : MessageLib)

/-- `testRawTransactionAgainstFilterCollection`, up to the test. -/
def testRawTransactionAgainstFilterCollection (rawTransaction : Buffer) :
    Except String Notification :=
  (lib.newTransaction rawTransaction).map .rawTransaction

/-- `emitBlockEventToFilterCollection`, up to the event. -/
def emitBlockEventToFilterCollection (rawBlock : Buffer) : Except String Notification :=
  (messages.newBlock rawBlock).map .block

/-- `emitInstantLockToFilterCollection`, up to the event. -/
def emitInstantLockToFilterCollection (rawTransactionLock : Buffer) :
    Except String Notification := do
  let (transaction, txBuffer) ← messages.fromBuffer rawTransactionLock
  let txLockBuffer := rawTransactionLock.drop txBuffer.length
  let instantLock ← messages.newInstantLock txLockBuffer
  .ok (.instantLock transaction instantLock)

/-- The listener that the process has added for a topic. -/
def readMessage (topic : String) (payload : Buffer) : Option (Except String Notification) :=
  if topic = "rawtx" then some (testRawTransactionAgainstFilterCollection lib payload)
  else if topic = "rawblock" then some (emitBlockEventToFilterCollection messages payload)
  else if topic = "rawtxlocksig" then some (emitInstantLockToFilterCollection messages payload)
  else none

/-- The same for any event of the client; the other events are logged. -/
def readEmission : Option (String × ZmqArgument) → Option (Except String Notification)
  | some (topic, .frame payload) => readMessage lib messages topic payload
  | _ => none

end

/-! ## The process -/

/-- The process.  `isServing` says that the gRPC server has been started. -/
structure FilterProcess (F : Type) where
  zmq : ZmqClient
  isServing : Bool
  isDead : Bool
  system : StreamSystem F

/-- The actions of a server that are not notifications. -/
def StreamSystem.Action.isNotification : StreamSystem.Action → Bool
  | .rawTransaction _ | .block _ | .instantLock _ _ => true
  | _ => false

namespace FilterProcess

variable {F : Type}

/-- The process awaits `dashCoreZmqClient.start()`. -/
def initial : FilterProcess F := ⟨ZmqClient.new.start, false, false, .initial⟩

/-- What can happen: an event of the socket, a timer that restarts the monitor, the gRPC server is
bound, and what happens to its calls. -/
inductive Action
  | socket (event : SocketEvent)
  | restartMonitor
  | bound
  | server (a : StreamSystem.Action)

/-- The listeners of the client for an event of the socket. -/
def handle (p : FilterProcess F) (event : SocketEvent) : FilterProcess F :=
  match p.zmq.handle event with
  | (.ok (), zmq) => { p with zmq }
  | (.error _, zmq) => { p with zmq, isDead := true }

variable (env : Environment F) [BloomFilter F] (lib : DashcoreLib F) (messages : MessageLib)

/-- What is read of an event of the socket; the listeners are added after the first `connect`. -/
def read (p : FilterProcess F) (event : SocketEvent) : Option (Except String Notification) :=
  if p.zmq.isStarted then readEmission lib messages (ZmqClient.emission event) else none

/-- The listeners of the process for an event of the client. -/
def receive (p : FilterProcess F) : Option (Except String Notification) → FilterProcess F
  | none => p
  | some (.error _) => { p with isDead := true }
  | some (.ok notification) =>
    { p with
      system := p.system.step env lib notification.toAction
      isDead := decide (¬ p.system.Unraised env lib notification.toAction) }

/-- The state after an action; after the end nothing happens. -/
def step (p : FilterProcess F) (a : Action) : FilterProcess F :=
  if p.isDead then p
  else
    match a with
    | .socket event =>
      -- the client emits before it counts
      let p := p.receive env lib (p.read lib messages event)
      if p.isDead then p else p.handle event
    | .restartMonitor => { p with zmq := p.zmq.restartMonitor }
    | .bound => if p.zmq.isStarted then { p with isServing := true } else p
    | .server a =>
      if p.isServing ∧ a.isNotification = false then { p with system := p.system.step env lib a }
      else p

/-- A run of the process. -/
abbrev run : FilterProcess F → List Action → FilterProcess F := Machine.run (step env lib messages)

end FilterProcess

/-! ## What a notification raises -/

/-- The transactions that are tested for a notification. -/
def Notification.transactions : Notification → List Transaction
  | .rawTransaction tx => [tx]
  | .block b => b.transactions
  | .instantLock tx _ => [tx]

/-- The test of a transaction raises for no filter. -/
def Environment.Tests {F : Type} (env : Environment F) (tx : Transaction) : Prop :=
  ∀ filter, ∃ b, (env.testFunction filter tx).1 = .ok b

section

variable {F : Type} {env : Environment F} {tx : Transaction}

/-- A test that raises nothing leaves the listener to its end. -/
theorem Subscription.testBody_ok (h : env.Tests tx) (s : Subscription F) :
    (s.testBody env tx).1 = .ok () :=
  (testBody_spec env tx s).1.mpr (h s.filter)

/-- A block whose tests raise nothing is stored. -/
theorem Subscription.storeBlock_ok {block : Block} (h : ∀ tx ∈ block.transactions, env.Tests tx)
    (s : Subscription F) : (s.storeBlock env block).1 = .ok () := by
  have htest : (s.testBlock env block).1 = .ok () := by
    unfold testBlock
    split_ifs
    · exact forEach_result_ok (fun tx htx s => testBody_ok (h tx htx) s) s
    · rfl
  unfold storeBlock
  rcases hresult : s.testBlock env block with ⟨r, s'⟩
  rw [hresult] at htest
  obtain rfl : r = .ok () := htest
  rfl

/-- A lock whose test raises nothing is stored. -/
theorem Subscription.preMempoolSentInstantLockListener_ok (h : env.Tests tx)
    (instantLock : InstantLock) (s : Subscription F) :
    (s.preMempoolSentInstantLockListener env tx instantLock).1 = .ok () := by
  obtain ⟨b, hb⟩ := h s.filter
  unfold preMempoolSentInstantLockListener testTransaction
  rcases hresult : env.testFunction s.filter tx with ⟨r, filter⟩
  rw [hresult] at hb
  obtain rfl : r = .ok b := hb
  cases b <;> rfl

/-- A block whose tests raise nothing reaches the subscription. -/
theorem Subscription.emitBlock_ok {block : Block} (h : ∀ tx ∈ block.transactions, env.Tests tx)
    (s : Subscription F) : (s.emitBlock env block).1 = .ok () := by
  refine EventEmitter.emitThrowing_result_ok (fun l s => ?_) FilterEvent.block s
  cases l with
  | storeBlock => exact storeBlock_ok h s
  | _ => rfl

theorem Subscription.emitInstantLock_ok (h : env.Tests tx) (instantLock : InstantLock)
    (s : Subscription F) : (s.emitInstantLock env tx instantLock).1 = .ok () := by
  refine EventEmitter.emitThrowing_result_ok (fun l s => ?_) FilterEvent.instantLock s
  cases l with
  | preMempoolSentInstantLockListener =>
      exact preMempoolSentInstantLockListener_ok h instantLock s
  | _ => rfl

/-- What raises for no subscription, raises not at all. -/
theorem StreamSystem.forEachEmitter_ok {a : Subscription.Action}
    (h : ∀ s : Subscription F, (s.handle env a).1 = .ok ()) (sys : StreamSystem F) :
    (sys.forEachEmitter env a).1 = .ok () := by
  refine forEach_result_ok (fun i _ sys => ?_) sys
  show ((sys.calls i).act env a).1 = .ok ()
  unfold Call.act
  cases (sys.calls i).subscription with
  | none => rfl
  | some s => exact h s

/-- The test of a transaction raises when it is not harmless to some filter. -/
theorem StreamSystem.forEachEmitter_test_ok_iff [BloomFilter F] (build : MerkleBlockBuild)
    {sys : StreamSystem F} (hset : sys.bloomFilterEmitterCollection.Nodup) (tx : Transaction) :
    (sys.forEachEmitter (standardEnvironment build) (.test tx)).1 = .ok () ↔
      ∀ i ∈ sys.bloomFilterEmitterCollection, ∀ filter,
        (sys.calls i).currentFilter = some filter → Harmless filter tx := by
  rw [(forEachEmitter_independent (standardEnvironment build) (.test tx) hset).1]
  refine forall₂_congr fun i hi => ?_
  obtain ⟨s, hs⟩ := exists_subscription hi
  have hfilter : (sys.calls i).currentFilter = some s.filter := by
    unfold Call.currentFilter
    rw [hs]
    rfl
  rw [(act_test build hs tx).1]
  constructor
  · intro h filter hf
    obtain rfl := Option.some.inj (hfilter.symm.trans hf)
    exact h
  · intro h
    exact h s.filter hfilter

/-- A notification raises nothing when the tests of its transactions do not. -/
theorem StreamSystem.unraised_of_tests [BloomFilter F] (lib : DashcoreLib F) (n : Notification)
    (h : ∀ tx ∈ n.transactions, env.Tests tx) (sys : StreamSystem F) :
    sys.Unraised env lib n.toAction := by
  cases n with
  | rawTransaction tx =>
      exact forEachEmitter_ok (Subscription.testBody_ok (h tx List.mem_cons_self)) sys
  | block block => exact forEachEmitter_ok (Subscription.emitBlock_ok h) sys
  | instantLock tx instantLock =>
      exact forEachEmitter_ok
        (Subscription.emitInstantLock_ok (h tx List.mem_cons_self) instantLock) sys

end

/-! ## Steps of the process -/

namespace FilterProcess

variable {F : Type} {p : FilterProcess F} {event : SocketEvent}

/-- An event of the socket ends the process when the client raises. -/
theorem handle_isDead_iff (hp : p.isDead = false) :
    (p.handle event).isDead = true ↔ (p.zmq.handle event).1 ≠ .ok () := by
  unfold handle
  rcases p.zmq.handle event with ⟨_ | _, zmq⟩ <;> simp [hp]

/-- Otherwise only the client has changed. -/
theorem handle_eq (h : (p.zmq.handle event).1 = .ok ()) :
    p.handle event = { p with zmq := (p.zmq.handle event).2 } := by
  unfold handle
  rcases hresult : p.zmq.handle event with ⟨_ | _, zmq⟩
  · rw [hresult] at h
    cases h
  · rfl

variable {env : Environment F} [BloomFilter F] {lib : DashcoreLib F} {messages : MessageLib}
  {a : Action}

/-- What is read cannot be handled. -/
def Fails (env : Environment F) (lib : DashcoreLib F) (sys : StreamSystem F) :
    Except String Notification → Prop
  | .error _ => True
  | .ok notification => ¬ sys.Unraised env lib notification.toAction

/-- The server actions in an action. -/
def serverActions (lib : DashcoreLib F) (messages : MessageLib) : Action → List StreamSystem.Action
  | .socket event =>
    match readEmission lib messages (ZmqClient.emission event) with
    | some (.ok notification) => [notification.toAction]
    | _ => []
  | .server a => if a.isNotification then [] else [a]
  | .restartMonitor | .bound => []

/-- A notification leaves the client. -/
theorem receive_zmq (r : Option (Except String Notification)) :
    (p.receive env lib r).zmq = p.zmq := by
  unfold receive
  rcases r with _ | _ | n <;> rfl

/-- A notification starts no server. -/
theorem receive_isServing (r : Option (Except String Notification)) :
    (p.receive env lib r).isServing = p.isServing := by
  unfold receive
  rcases r with _ | _ | n <;> rfl

/-- A notification is a step of the streams. -/
theorem receive_system (r : Option (Except String Notification)) :
    (p.receive env lib r).system = StreamSystem.run env lib p.system
      (match r with
        | some (.ok notification) => [notification.toAction]
        | _ => []) := by
  unfold receive
  rcases r with _ | _ | n <;> rfl

/-- A notification ends the process when it cannot be read, or its handling raises. -/
theorem receive_isDead (hp : p.isDead = false) (r : Option (Except String Notification)) :
    (p.receive env lib r).isDead = true ↔ ∃ x, r = some x ∧ Fails env lib p.system x := by
  unfold receive Fails
  rcases r with _ | _ | n
  · simp [hp]
  · simp
  · simp

theorem step_of_isDead (hp : p.isDead = true) : p.step env lib messages a = p := if_pos hp

/-- A process that has ended does nothing. -/
theorem run_of_isDead (hp : p.isDead = true) (as : List Action) :
    p.run env lib messages as = p := by
  induction as with
  | nil => rfl
  | cons a as ih =>
      rw [run, Machine.run_cons, step_of_isDead hp]
      exact ih

/-- **An event of the socket**, for a process that lives. -/
theorem step_socket (hp : p.isDead = false) : p.step env lib messages (.socket event) =
    if (p.receive env lib (p.read lib messages event)).isDead then
      p.receive env lib (p.read lib messages event)
    else (p.receive env lib (p.read lib messages event)).handle event := by
  unfold step
  rw [if_neg (by simp [hp])]

/-- **The end**: a message cannot be handled, or a failure is one too many. -/
theorem step_socket_isDead_iff (hp : p.isDead = false) :
    (p.step env lib messages (.socket event)).isDead = true ↔
      (∃ x, p.read lib messages event = some x ∧ Fails env lib p.system x) ∨
        (p.zmq.handle event).1 ≠ .ok () := by
  rw [step_socket hp, ← receive_isDead hp]
  cases hdead : (p.receive env lib (p.read lib messages event)).isDead with
  | true => simp [hdead]
  | false =>
      rw [if_neg (by simp)]
      rw [handle_isDead_iff hdead, receive_zmq]
      simp

/-- Only an event of the socket ends the process. -/
theorem step_isDead_of_ne (hp : p.isDead = false) (ha : ∀ event, a ≠ .socket event) :
    (p.step env lib messages a).isDead = false := by
  unfold step
  rw [if_neg (by simp [hp])]
  cases a with
  | socket event => exact absurd rfl (ha event)
  | restartMonitor => exact hp
  | bound =>
      simp only
      split_ifs <;> exact hp
  | server a =>
      simp only
      split_ifs <;> exact hp

/-- An event that does not end the process. -/
theorem step_socket_of_alive (hp : p.isDead = false)
    (halive : (p.step env lib messages (.socket event)).isDead = false) :
    p.step env lib messages (.socket event) =
      { p.receive env lib (p.read lib messages event) with zmq := (p.zmq.handle event).2 } := by
  have hdead : ¬ (p.step env lib messages (.socket event)).isDead = true := by simp [halive]
  have hnot := mt (step_socket_isDead_iff hp).mpr hdead
  rw [not_or, not_not] at hnot
  have hreceive : ¬ (p.receive env lib (p.read lib messages event)).isDead = true :=
    mt (receive_isDead hp _).mp hnot.1
  rw [step_socket hp, if_neg hreceive, handle_eq (by rw [receive_zmq]; exact hnot.2), receive_zmq]

/-- A process that lives at the end has lived all along. -/
theorem isDead_of_run {as : List Action} (h : (p.run env lib messages as).isDead = false) :
    p.isDead = false := by
  by_contra hp
  rw [run_of_isDead (by simpa using hp)] at h
  exact hp h

/-! ## The server of a process -/

/-- The process has started its server. -/
structure Serving (p : FilterProcess F) : Prop where
  isStarted : p.zmq.isStarted = true
  isServing : p.isServing = true

omit [BloomFilter F] in
/-- A process that serves hears what the client emits. -/
theorem read_of_serving (h : p.Serving) (event : SocketEvent) :
    p.read lib messages event = readEmission lib messages (ZmqClient.emission event) :=
  if_pos h.isStarted

/-- An action that does not end the process is an action of its server, or none. -/
theorem Serving.step (h : p.Serving) (hp : p.isDead = false)
    (halive : (p.step env lib messages a).isDead = false) :
    (p.step env lib messages a).Serving ∧ (p.step env lib messages a).system =
      StreamSystem.run env lib p.system (serverActions lib messages a) := by
  cases a with
  | socket event =>
      rw [step_socket_of_alive hp halive, read_of_serving h]
      refine ⟨⟨?_, ?_⟩, ?_⟩
      · show (p.zmq.handle event).2.isStarted = true
        rw [(ZmqClient.handled p.zmq event).isStarted, h.isStarted]
        rfl
      · exact (receive_isServing _).trans h.isServing
      · exact receive_system _
  | restartMonitor =>
      unfold FilterProcess.step
      rw [if_neg (by simp [hp])]
      refine ⟨⟨?_, h.isServing⟩, rfl⟩
      show p.zmq.restartMonitor.isStarted = true
      unfold ZmqClient.restartMonitor
      split_ifs <;> exact h.isStarted
  | bound =>
      unfold FilterProcess.step
      rw [if_neg (by simp [hp]), if_pos h.isStarted]
      exact ⟨⟨h.isStarted, rfl⟩, rfl⟩
  | server a =>
      unfold FilterProcess.step serverActions
      rw [if_neg (by simp [hp])]
      cases ha : a.isNotification with
      | true =>
          simp only [ha, Bool.true_eq_false, and_false, if_false, if_true]
          exact ⟨h, rfl⟩
      | false =>
          simp only [ha, h.isServing, and_self, if_true, Bool.false_eq_true, if_false]
          exact ⟨⟨h.isStarted, rfl⟩, rfl⟩

/-- **The process runs the streams** while it lives. -/
theorem Serving.run (h : p.Serving) {as : List Action}
    (halive : (p.run env lib messages as).isDead = false) :
    (p.run env lib messages as).system =
      StreamSystem.run env lib p.system (as.flatMap (serverActions lib messages)) := by
  induction as generalizing p with
  | nil => rfl
  | cons a as ih =>
      have hp : p.isDead = false := isDead_of_run halive
      have hstep : (p.step env lib messages a).isDead = false := isDead_of_run halive
      obtain ⟨hserving, hsystem⟩ := h.step hp hstep
      rw [List.flatMap_cons, StreamSystem.run, Machine.run_append]
      exact (ih hserving halive).trans (congrArg (StreamSystem.run env lib · _) hsystem)

/-! ## When the process ends -/

/-- The events of the socket. -/
def socketEvents (as : List Action) : List SocketEvent :=
  as.filterMap fun
    | .socket event => some event
    | _ => none

/-- What ends the process, after the actions before it: a failure that is one too many, or a message
that cannot be handled. -/
def Fatal (env : Environment F) (lib : DashcoreLib F) (messages : MessageLib)
    (before : List Action) : Action → Prop
  | .socket event =>
    IsLastFailure ZmqClient.defaultMaxRetryCount (socketEvents before) event ∨
      .connect ∈ socketEvents before ∧
        ∃ x, readEmission lib messages (ZmqClient.emission event) = some x ∧
          Fails env lib (run env lib messages initial before).system x
  | _ => False

/-- **The client of a process that lives** follows the events. -/
structure Tracks (p : FilterProcess F) (events : List SocketEvent) : Prop where
  maxRetryCount : p.zmq.maxRetryCount = ZmqClient.defaultMaxRetryCount
  isStarted : p.zmq.isStarted = true ↔ .connect ∈ events
  count : p.zmq.connectionFailuresCount = failuresSinceConnect events

/-- An event of the socket is counted. -/
theorem Tracks.step {events : List SocketEvent} (h : p.Tracks events) (hp : p.isDead = false)
    (halive : (p.step env lib messages a).isDead = false) :
    (p.step env lib messages a).Tracks (events ++ socketEvents [a]) := by
  cases a with
  | socket event =>
      have hhandled := ZmqClient.handled p.zmq event
      rw [step_socket_of_alive hp halive]
      refine ⟨hhandled.maxRetryCount.trans h.maxRetryCount, ?_, hhandled.count events h.count⟩
      rw [hhandled.isStarted, Bool.or_eq_true, decide_eq_true_iff, h.isStarted, List.mem_append]
      simp [socketEvents, eq_comm]
  | restartMonitor =>
      rw [show events ++ socketEvents [.restartMonitor] = events from List.append_nil events]
      unfold FilterProcess.step
      rw [if_neg (by simp [hp])]
      unfold ZmqClient.restartMonitor
      split_ifs <;> exact ⟨h.maxRetryCount, h.isStarted, h.count⟩
  | bound =>
      rw [show events ++ socketEvents [.bound] = events from List.append_nil events]
      unfold FilterProcess.step
      rw [if_neg (by simp [hp])]
      simp only
      split_ifs <;> exact ⟨h.maxRetryCount, h.isStarted, h.count⟩
  | server a =>
      rw [show events ++ socketEvents [.server a] = events from List.append_nil events]
      unfold FilterProcess.step
      rw [if_neg (by simp [hp])]
      simp only
      split_ifs <;> exact ⟨h.maxRetryCount, h.isStarted, h.count⟩

theorem run_snoc (as : List Action) (a : Action) : p.run env lib messages (as ++ [a]) =
    (p.run env lib messages as).step env lib messages a :=
  Machine.run_append _ p as [a]

/-- The client has counted the failures of the run. -/
theorem tracks_run {as : List Action} (halive : (run env lib messages initial as).isDead = false) :
    (run env lib messages (initial : FilterProcess F) as).Tracks (socketEvents as) := by
  induction as using List.reverseRecOn with
  | nil => exact ⟨rfl, by simp [initial, socketEvents, ZmqClient.start, ZmqClient.new,
      ZmqClient.startMonitor], rfl⟩
  | append_singleton as a ih =>
      rw [run_snoc] at halive ⊢
      have hp : (run env lib messages initial as).isDead = false := by
        by_contra hdead
        rw [step_of_isDead (by simpa using hdead)] at halive
        exact hdead halive
      have hstep := (ih hp).step hp halive
      rwa [show socketEvents as ++ socketEvents [a] = socketEvents (as ++ [a]) from
        (List.filterMap_append).symm] at hstep

/-- The step that ends a process. -/
theorem step_isDead_iff {as : List Action}
    (hp : (run env lib messages (initial : FilterProcess F) as).isDead = false) :
    ((run env lib messages initial as).step env lib messages a).isDead = true ↔
      Fatal env lib messages as a := by
  have htracks := tracks_run hp
  cases a with
  | socket event =>
      rw [step_socket_isDead_iff hp, ZmqClient.handle_error_iff htracks.count,
        htracks.maxRetryCount, or_comm]
      refine or_congr Iff.rfl ?_
      unfold read
      by_cases hstarted : (run env lib messages (initial : FilterProcess F) as).zmq.isStarted = true
      · rw [if_pos hstarted]
        simp [htracks.isStarted.mp hstarted]
      · rw [if_neg hstarted]
        have hconnect := mt htracks.isStarted.mpr hstarted
        simp [hconnect]
  | _ =>
      refine iff_of_false ?_ id
      rw [step_isDead_of_ne hp (by simp)]
      simp

/-! ## What Core writes -/

/-- How Core writes its messages. -/
structure Encoding where
  rawTransaction : Transaction → Buffer
  rawBlock : Block → Buffer
  rawInstantLock : InstantLock → Buffer

namespace Encoding

/-- The message of a notification; a lock is written behind its transaction. -/
def message (encoding : Encoding) : Notification → SocketEvent
  | .rawTransaction tx => .message "rawtx" (encoding.rawTransaction tx)
  | .block b => .message "rawblock" (encoding.rawBlock b)
  | .instantLock tx lock =>
    .message "rawtxlocksig" (encoding.rawTransaction tx ++ encoding.rawInstantLock lock)

/-- **dashcore-lib reads what Core writes** of a notification; a transaction is read from the start
of a buffer, and written back as it was. -/
def IsRead (encoding : Encoding) (lib : DashcoreLib F) (messages : MessageLib) :
    Notification → Prop
  | .rawTransaction tx => lib.newTransaction (encoding.rawTransaction tx) = .ok tx
  | .block b => messages.newBlock (encoding.rawBlock b) = .ok b
  | .instantLock tx lock =>
    (∀ rest, messages.fromBuffer (encoding.rawTransaction tx ++ rest) =
        .ok (tx, encoding.rawTransaction tx)) ∧
      messages.newInstantLock (encoding.rawInstantLock lock) = .ok lock

omit [BloomFilter F] in
/-- **Round trip.**  A message of Core is read as the notification. -/
theorem readEmission_message (encoding : Encoding) {n : Notification}
    (h : encoding.IsRead lib messages n) :
    readEmission lib messages (ZmqClient.emission (encoding.message n)) = some (.ok n) := by
  cases n with
  | rawTransaction tx =>
      show some (testRawTransactionAgainstFilterCollection lib _) = _
      unfold testRawTransactionAgainstFilterCollection
      rw [show lib.newTransaction _ = _ from h]
      rfl
  | block b =>
      show some (emitBlockEventToFilterCollection messages _) = _
      unfold emitBlockEventToFilterCollection
      rw [show messages.newBlock _ = _ from h]
      rfl
  | instantLock tx lock =>
      show some (emitInstantLockToFilterCollection messages _) = _
      unfold emitInstantLockToFilterCollection
      rw [h.1]
      show some ((messages.newInstantLock (List.drop _ _)).bind _) = _
      rw [List.drop_left, h.2]
      rfl

/-- An event of the life of a process: a notification of Core, or something else. -/
def toAction (encoding : Encoding) : Notification ⊕ Action → Action
  | .inl n => .socket (encoding.message n)
  | .inr a => a

end Encoding

/-- What an event is for the server. -/
def toServerActions (lib : DashcoreLib F) (messages : MessageLib) :
    Notification ⊕ Action → List StreamSystem.Action
  | .inl n => [n.toAction]
  | .inr a => serverActions lib messages a

omit [BloomFilter F] in
/-- An encoded notification is read as it was meant. -/
theorem serverActions_toAction (encoding : Encoding) {e : Notification ⊕ Action}
    (h : ∀ n, e = .inl n → encoding.IsRead lib messages n) :
    serverActions lib messages (encoding.toAction e) = toServerActions lib messages e := by
  cases e with
  | inl n =>
      show (match readEmission lib messages (ZmqClient.emission (encoding.message n)) with
        | some (.ok notification) => [notification.toAction]
        | _ => []) = _
      rw [encoding.readEmission_message (h n rfl)]
      rfl
  | inr a => rfl

/-- **A process is its server.**  As long as a process lives that has started its server, with any
failures and recoveries of the connection to Core in between: its calls are exactly those of the
server that gets the notifications of Core themselves, in the order in which Core has written them.
So what holds in every run of the server holds of the process. -/
theorem process_refines_system (env : Environment F) (lib : DashcoreLib F) (messages : MessageLib)
    (encoding : Encoding) (p : FilterProcess F) (hserving : p.Serving)
    (es : List (Notification ⊕ Action))
    (hread : ∀ n, .inl n ∈ es → encoding.IsRead lib messages n)
    (halive : (run env lib messages p (es.map encoding.toAction)).isDead = false) :
    (run env lib messages p (es.map encoding.toAction)).system =
      StreamSystem.run env lib p.system (es.flatMap (toServerActions lib messages)) := by
  rw [hserving.run halive, List.flatMap_map]
  refine congrArg (StreamSystem.run env lib p.system) (List.flatMap_congr fun e he => ?_)
  exact serverActions_toAction encoding fun n heq => hread n (heq ▸ he)

/-- Transactions and locks start with a hash of one byte, and blocks have no transactions. -/
def paymentMessages : MessageLib where
  fromBuffer buffer := .ok (payment (buffer.take 1) [[1]], buffer.take 1)
  newBlock buffer := .ok ⟨⟨buffer⟩, []⟩
  newInstantLock buffer := .ok ⟨buffer.take 1, buffer.drop 1⟩

/-- Messages that hold no more than what tells them apart. -/
def paymentEncoding : Encoding where
  rawTransaction tx := tx.hash
  rawBlock block := block.hash
  rawInstantLock instantLock := instantLock.txid ++ instantLock.signature

/-- The process has connected, and serves. -/
def servingProcess : FilterProcess ExactFilter :=
  run paymentEnvironment paymentLib paymentMessages initial [.socket .connect, .bound]

/-- A call comes in, the connection is lost, and a lock comes after it is there again. -/
def lockEvents : List (Notification ⊕ Action) :=
  [.inr (.server (.call 0 paymentRequest)), .inr (.socket .disconnect), .inr (.socket .connect),
    .inl (.instantLock (payment [7] [[1]]) ⟨[7], [8]⟩)]

/-- The lock comes to the subscription that was called for. -/
theorem process_refines_system_lock :
    (run paymentEnvironment paymentLib paymentMessages servingProcess
        (lockEvents.map paymentEncoding.toAction)).system =
      StreamSystem.run paymentEnvironment paymentLib servingProcess.system
        [.call 0 paymentRequest, .instantLock (payment [7] [[1]]) ⟨[7], [8]⟩] := by
  refine process_refines_system paymentEnvironment paymentLib paymentMessages paymentEncoding
    servingProcess ⟨rfl, rfl⟩ lockEvents (fun n hn => ?_) (by decide +kernel)
  obtain rfl : n = .instantLock (payment [7] [[1]]) ⟨[7], [8]⟩ := by simpa [lockEvents] using hn
  exact ⟨fun rest => rfl, rfl⟩

/-- **When a process ends.**  In every run from the start, it has ended exactly when at some point
the connection failed for the twentieth time since the last `connect`, or after a `connect` a
message came that cannot be read, or whose handling raises. -/
theorem isDead_iff (env : Environment F) (lib : DashcoreLib F) (messages : MessageLib)
    (as : List Action) : (run env lib messages initial as).isDead = true ↔
      Trace.Sometime (Fatal env lib messages) as := by
  induction as using List.reverseRecOn with
  | nil => exact iff_of_false (by simp [initial]) (Trace.not_sometime_nil _)
  | append_singleton as a ih =>
      rw [run_snoc, Trace.sometime_snoc, ← ih]
      cases hp : (run env lib messages (initial : FilterProcess F) as).isDead with
      | true =>
          rw [step_of_isDead hp]
          simp [hp]
      | false =>
          rw [step_isDead_iff hp]
          simp

/-- The messages of a run can be read, and all scripts in them parse. -/
def Readable (lib : DashcoreLib F) (messages : MessageLib) (as : List Action) : Prop :=
  ∀ event ∈ socketEvents as, ∀ x,
    readEmission lib messages (ZmqClient.emission event) = some x →
      ∃ n, x = .ok n ∧ ∀ tx ∈ n.transactions, tx.Parseable

/-- **A process ends by an outage.**  In every run from the start in which the messages can be read
and the scripts in them parse, the process has ended exactly when the connection to Core has
failed twenty times without a `connect` in between. -/
theorem isDead_iff_outage (build : MerkleBlockBuild) (lib : DashcoreLib F) (messages : MessageLib)
    (as : List Action) (hreadable : Readable lib messages as) :
    (run (standardEnvironment build) lib messages initial as).isDead = true ↔
      ∃ outage, outage <:+: socketEvents as ∧ .connect ∉ outage ∧
        20 ≤ outage.countP SocketEvent.isFailure := by
  rw [isDead_iff, ← sometime_isLastFailure_iff (by decide : 0 < 20), socketEvents,
    Trace.sometime_filterMap]
  constructor
  · rintro ⟨before, a, after, heq, hfatal⟩
    refine ⟨before, a, after, heq, ?_⟩
    cases a with
    | socket event =>
        rcases hfatal with hlast | ⟨-, x, hread, hfails⟩
        · exact ⟨event, rfl, hlast⟩
        · obtain ⟨n, rfl, hparse⟩ := hreadable event (by simp [heq, socketEvents]) x hread
          have htests : ∀ tx ∈ n.transactions, (standardEnvironment (F := F) build).Tests tx :=
            fun tx htx filter => verdict_ok filter tx (hparse tx htx)
          exact absurd (StreamSystem.unraised_of_tests lib n htests _) hfails
    | _ => exact hfatal.elim
  · rintro ⟨before, a, after, heq, event, hevent, hlast⟩
    refine ⟨before, a, after, heq, ?_⟩
    cases a with
    | socket event' =>
        obtain rfl := Option.some.inj hevent
        exact Or.inl hlast
    | _ => cases hevent

/-- Nineteen failures, a `connect` and nineteen more do not end the process; the twentieth does. -/
theorem isDead_iff_outage_nineteen :
    (run paymentEnvironment paymentLib paymentMessages initial
      (List.replicate 19 (.socket .connectDelay) ++ [.socket .connect] ++
        List.replicate 20 (.socket .disconnect))).isDead = true := by
  refine (isDead_iff_outage _ paymentLib paymentMessages _ fun event hevent x hx => ?_).mpr
    ⟨List.replicate 20 .disconnect, ⟨List.replicate 19 .connectDelay ++ [.connect], [], by decide⟩,
      by decide, by decide⟩
  exfalso
  have hevents : event = .connectDelay ∨ event = .connect ∨ event = .disconnect := by
    simpa [socketEvents, List.filterMap_append, List.filterMap_replicate] using hevent
  rcases hevents with rfl | rfl | rfl <;> cases hx

/-- The server of a process has a run of its own. -/
theorem exists_system_run (as : List Action) : ∃ bs,
    (run env lib messages (initial : FilterProcess F) as).system =
      StreamSystem.run env lib .initial bs := by
  refine Machine.run_invariant (I := fun p : FilterProcess F => ∃ bs, p.system =
    StreamSystem.run env lib .initial bs) (fun p a hp => ?_) ⟨[], rfl⟩ as
  obtain ⟨bs, hbs⟩ := hp
  suffices h : ∃ cs, (p.step env lib messages a).system = StreamSystem.run env lib p.system cs by
    obtain ⟨cs, hcs⟩ := h
    exact ⟨bs ++ cs, by rw [hcs, hbs, StreamSystem.run, Machine.run_append]⟩
  cases hp : p.isDead with
  | true => exact ⟨[], by rw [step_of_isDead hp]; rfl⟩
  | false =>
      cases a with
      | socket event =>
          rw [step_socket hp]
          refine ⟨_, Eq.trans ?_ (receive_system (p.read lib messages event))⟩
          split_ifs
          · rfl
          · unfold handle
            rcases (p.receive env lib (p.read lib messages event)).zmq.handle event with
              ⟨_ | _, zmq⟩ <;> rfl
      | server a =>
          unfold step
          rw [if_neg (by simp [hp])]
          simp only
          split_ifs
          · exact ⟨[a], rfl⟩
          · exact ⟨[], rfl⟩
      | bound =>
          unfold step
          rw [if_neg (by simp [hp])]
          simp only
          split_ifs <;> exact ⟨[], rfl⟩
      | restartMonitor =>
          unfold step
          rw [if_neg (by simp [hp])]
          exact ⟨[], rfl⟩

/-- **A transaction that ends the process.**  When a `rawtx` message comes to a process that lives
and has connected, it ends exactly when the search in some subscribed filter reaches a script that
raises: that of an output, or of an input, that does not parse. -/
theorem rawTransaction_kills_iff (build : MerkleBlockBuild) (lib : DashcoreLib F)
    (messages : MessageLib) (as : List Action) (payload : Buffer) (tx : Transaction)
    (halive : (run (standardEnvironment build) lib messages initial as).isDead = false)
    (hconnect : .connect ∈ socketEvents as) (htx : lib.newTransaction payload = .ok tx) :
    (run (standardEnvironment build) lib messages initial
        (as ++ [.socket (.message "rawtx" payload)])).isDead = true ↔
      ∃ i ∈ (run (standardEnvironment build) lib messages
          initial as).system.bloomFilterEmitterCollection, ∃ filter,
        ((run (standardEnvironment build) lib messages initial as).system.calls i).currentFilter =
          some filter ∧ ¬ Harmless filter tx := by
  rw [run_snoc, step_isDead_iff halive]
  have hset : (run (standardEnvironment build) lib messages
      initial as).system.bloomFilterEmitterCollection.Nodup := by
    obtain ⟨bs, hbs⟩ : ∃ bs, (run (standardEnvironment build) lib messages initial as).system =
      StreamSystem.run (standardEnvironment build) lib .initial bs := exists_system_run as
    rw [hbs]
    exact StreamSystem.run_collection_nodup _ lib bs
  have hread : readEmission lib messages (ZmqClient.emission (.message "rawtx" payload)) =
      some (.ok (.rawTransaction tx)) := by
    show some (testRawTransactionAgainstFilterCollection lib payload) = _
    unfold testRawTransactionAgainstFilterCollection
    rw [htx]
    rfl
  have hfatal : Fatal (standardEnvironment build) lib messages as
      (.socket (.message "rawtx" payload)) ↔
        ¬ ((run (standardEnvironment build) lib messages initial as).system.forEachEmitter
          (standardEnvironment build) (.test tx)).1 = .ok () := by
    constructor
    · rintro (⟨hfailure, -⟩ | ⟨-, x, hx, hfails⟩)
      · cases hfailure
      · obtain rfl := Option.some.inj (hread.symm.trans hx)
        exact hfails
    · intro hraised
      exact Or.inr ⟨hconnect, _, hread, hraised⟩
  rw [hfatal, StreamSystem.forEachEmitter_test_ok_iff build hset]
  push Not
  rfl

/-- Every transaction is read as one with a null script. -/
def nullLib : DashcoreLib ExactFilter :=
  { paymentLib with newTransaction := fun _ => .ok StreamSystem.nullTransaction }

/-- A null script ends a process with one call. -/
theorem rawTransaction_kills_null :
    (run paymentEnvironment nullLib paymentMessages initial
      ([.socket .connect, .bound, .server (.call 0 paymentRequest)] ++
        [.socket (.message "rawtx" [7])])).isDead = true := by
  refine (rawTransaction_kills_iff _ nullLib paymentMessages _ [7] StreamSystem.nullTransaction
    (by decide +kernel) (by decide) rfl).mpr ⟨0, by decide +kernel,
      ⟨[[1]], BloomFilter.BLOOM_UPDATE_ALL⟩, by decide +kernel, fun hharmless => ?_⟩
  obtain ⟨b, hb⟩ := harmless_iff.mp hharmless
  revert hb
  cases b <;> decide

end FilterProcess

end Dapi
