/-
# What the steps of the client do

`src/lib/externalApis/tenderdash/WsClient.js`: the methods and the listeners of the client
are made of a few changes of its state.

* `Change` lists the changes that an action is made of, with what each requires of the
  action and of the state.
* `Keeps.step` is the rule that an action keeps what its changes keep.
-/
import Dapi.WsClient

namespace Dapi

namespace WsClient

/-! ## The changes that an action is made of -/

namespace Action

/-- The action makes a socket. -/
def Opens : Action → Prop
  | .connect _ | .timer => True
  | _ => False

/-- The action reports the loss of the socket. -/
def Loses (i : ℕ) : Action → Prop
  | .socketError i' .EAI_AGAIN | .socketError i' .ECONNREFUSED | .socketClose i' _ => i' = i
  | _ => False

/-- The action is an event of the socket, which changes so. -/
def Moves (i : ℕ) (socket socket' : Socket) : Action → Prop
  | .socketOpen i' => i' = i ∧ socket.canOpen = true ∧ socket' = socket.opened
  | .socketError i' code => i' = i ∧ socket.canFail = true ∧ socket' = socket.failed code
  | .socketClose i' code => i' = i ∧ socket.canClose code = true ∧ socket' = socket.closed
  | .socketMessage i' _ => i' = i ∧ socket.readyState = .OPEN ∧ socket' = socket
  | _ => False

/-- The action may emit the event, which holds the `url` of the client when it is about the
connection. -/
def Emits (url : String) (event : ClientEvent) : Action → Prop
  | .socketOpen _ => event = .connect url
  | .socketError _ (.other code) => event = .error (.other code)
  | .socketError _ _ | .socketClose _ _ => event = .connectMaxRetryExceeded url
  | .socketMessage _ message => ∃ query, message = .result query ∧ event = .result query
  | _ => False

/-- The action sends a request for the query: a user subscribes, or a socket opens while the query
is a key. -/
def Requests (query : String) (s : WsClient) : Action → Prop
  | .subscribe query' => query' = query
  | .socketOpen _ => query ∈ s.subscribedQueries.keys
  | _ => False

variable {a : Action} {i : ℕ}

/-- A loss after the last retry is reported. -/
theorem Loses.emits (h : a.Loses i) (url : String) :
    a.Emits url (.connectMaxRetryExceeded url) := by
  cases a with
  | socketError i' code =>
      cases code with
      | other code => exact h.elim
      | _ => rfl
  | socketClose i' code => rfl
  | _ => exact h.elim

end Action

/-- The changes that the methods and the listeners make during an action, one at a time. -/
inductive Change (a : Action) (s : WsClient) : WsClient → Prop
  | reset (maxRetries : ℤ) (connects : List ConnectPromise) (ha : ∃ n, a = .connect n) :
    Change a s { s with
      maxRetries := maxRetries
      connectionRetries := 0
      subscribedQueries := .empty
      connects := connects }
  | released (ha : a = .close) : Change a s { s with ws := none, subscribedQueries := .empty }
  | fired (i : ℕ) (timers : List ℕ) (ha : a = .timer) (htimers : s.timers = i :: timers) :
    Change a s { s with timers := timers }
  | left (i : ℕ) (hws : s.ws = some i) : Change a s (s.leaveSocket i)
  | made (ha : a.Opens) :
    Change a s { s with ws := some s.sockets.length, sockets := s.sockets ++ [.new] }
  | moved (i : ℕ) (socket socket' : Socket) (ha : a.Moves i socket socket')
    (hi : s.sockets[i]? = some socket) : Change a s (s.setSocket i socket')
  | connected (i : ℕ) (ha : a = .socketOpen i) : Change a s { s with isConnected := true }
  | requested (query : String) (ha : a.Requests query s) :
    Change a s { s.record (.sent (subscribeRequest query)) with
      subscribedQueries := s.subscribedQueries.set query
        ((s.subscribedQueries.get? query).getD 0 + 1) }
  | lowered (query : String) (ha : a = .unsubscribe query)
    (hcount : 1 < (s.subscribedQueries.get? query).getD 0) :
    Change a s { s with
      subscribedQueries := s.subscribedQueries.set query
        ((s.subscribedQueries.get? query).getD 0 - 1) }
  | dropped (query : String) (ha : a = .unsubscribe query)
    (hcount : (s.subscribedQueries.get? query).getD 0 ≤ 1) :
    Change a s { s.record (.sent (unsubscribeRequest query)) with
      subscribedQueries := s.subscribedQueries.delete query }
  | scheduled (i retries : ℕ) (events : List WsEvent) (ha : a.Loses i) (hretries : s.HasRetries)
    (hevents : events = [] ∨ events = [.retryConsumed i]) :
    Change a s { s with
      connectionRetries := retries
      timers := s.timers ++ [i]
      log := s.log ++ events ++ [.reconnectScheduled i] }
  | emitted (event : ClientEvent) (ha : a.Emits s.url event) : Change a s (s.emit event)
  | closeHeard (i code : ℕ) (ha : a = .socketClose i code) : Change a s (s.record (.closed i code))
  | thrown (e : WsException) (ha : a.IsOfConnection) : Change a s (s.record (.uncaught e))
  | subscribed (query : String) (ha : a = .subscribe query) :
    Change a s (s.record (.subscribed query))
  | unsubscribed (query : String) (ha : a = .unsubscribe query) :
    Change a s (s.record (.unsubscribed query))

/-- Every change that the action is made of keeps `I`. -/
def Keeps (a : Action) (I : WsClient → Prop) : Prop :=
  ∀ ⦃s s' : WsClient⦄, I s → Change a s s' → I s'

/-! ## The methods and the listeners -/

namespace Keeps

variable {a : Action} {I : WsClient → Prop} {s : WsClient} {i : ℕ}

/-- What a step that opens a socket keeps is kept by `openSocket`. -/
theorem openSocket (hI : Keeps a I) (ha : a.Opens) (h : I s) : I s.openSocket := by
  unfold WsClient.openSocket
  -- a socket that is still in `ws` is left first
  cases hws : s.ws with
  | some i => exact hI (hI h (.left i hws)) (.made ha)
  | none => exact hI h (.made ha)

/-- What a step that sends a query keeps is kept by `subscribe`. -/
theorem subscribe (hI : Keeps a I) {query : String} (ha : a.Requests query s) (h : I s) :
    I (s.subscribe query).2 := by
  rcases subscribe_cases query s with ⟨e, heq⟩ | heq
  · rw [heq]
    exact h
  · rw [heq]
    exact hI h (.requested query ha)

/-- What `unsubscribe` keeps as a step is kept by the method. -/
theorem unsubscribe {query : String} (hI : Keeps (.unsubscribe query) I) (h : I s) :
    I (s.unsubscribe query).2 := by
  rcases unsubscribe_cases query s with ⟨hcount, heq⟩ | ⟨hcount, ⟨e, heq⟩ | heq⟩
  · rw [heq]
    exact hI h (.lowered query rfl hcount)
  · rw [heq]
    exact h
  · rw [heq]
    exact hI h (.dropped query rfl hcount)

/-- What `close` keeps as a step is kept by the method. -/
theorem close (hI : Keeps .close I) (h : I s) : I s.close.2 := by
  unfold WsClient.close
  cases hws : s.ws with
  | none => exact h
  | some i =>
      simp only
      split_ifs
      · exact hI (hI h (.left i hws)) (.released rfl)
      · exact hI h (.released rfl)

/-- The loop requests the queries that are keys, and they stay keys all along. -/
theorem onOpenListener (hI : Keeps (.socketOpen i) I) (h : I s) : I s.onOpenListener.2 := by
  have hemit : I (emit (.connect s.url) { s with isConnected := true }) :=
    hI (hI h (.connected i rfl)) (.emitted _ rfl)
  unfold WsClient.onOpenListener
  rw [resubscribe_eq]
  refine (forEach_invariant
    (I := fun s' => I s' ∧ s'.subscribedQueries.keys = s.subscribedQueries.keys)
    (fun query hmem s' h' => ?_) ⟨hemit, rfl⟩).1
  -- the loop is over the keys at its start, and an earlier round took none of them away
  have hmem' : query ∈ s'.subscribedQueries.keys := h'.2 ▸ hmem
  exact ⟨hI.subscribe hmem' h'.1, (keys_subscribe hmem').trans h'.2⟩

/-- What a step that loses the socket keeps is kept by `reconnect`. -/
theorem reconnect (hI : Keeps a I) (ha : a.Loses i) (h : I s) : I (s.reconnect i).2 := by
  rcases reconnect_cases i s with
    ⟨hretries, retries, events, hevents, heq⟩ | ⟨-, ⟨j, hws, heq⟩ | ⟨-, heq⟩⟩
  · rw [heq]
    exact hI h (.scheduled i retries events ha hretries hevents)
  · rw [heq]
    exact hI (hI h (.left j hws)) (.emitted _ (ha.emits s.url))
  · rw [heq]
    exact h

/-- What an error of a socket keeps is kept by its listener. -/
theorem onErrorListener {code : SocketErrorCode} (hI : Keeps (.socketError i code) I) (h : I s) :
    I (s.onErrorListener i code).2 := by
  cases code with
  | other code =>
      unfold WsClient.onErrorListener
      rcases disconnect_cases s with ⟨j, hws, heq⟩ | ⟨-, heq⟩
      · rw [heq]
        exact hI (hI h (.left j hws)) (.emitted _ rfl)
      · rw [heq]
        exact h
  | _ => exact hI.reconnect rfl h

/-- What a message of a socket keeps is kept by its listener. -/
theorem onMessageListener {message : WsMessage} (hI : Keeps (.socketMessage i message) I)
    (h : I s) : I (s.onMessageListener message).2 := by
  cases message with
  | result query => exact hI h (.emitted _ ⟨query, rfl, rfl⟩)
  | _ => exact h

/-- A socket changes and its listener runs. -/
theorem socketEvent (hI : Keeps a I) (ha : a.IsOfConnection) {can : Socket → Bool}
    {f : Socket → Socket} {listener : WsClient → Except WsException Unit × WsClient}
    (hmoves : ∀ socket, can socket = true → a.Moves i socket (f socket))
    (hlistener : ∀ s, I s → I (listener s).2) (h : I s) :
    I (s.socketEvent i can f listener) := by
  rcases socketEvent_cases i can f listener s with heq | ⟨socket, hi, hcan, heq⟩
  · rw [heq]
    exact h
  · have hset : I (s.setSocket i (f socket)) :=
      hI h (.moved i socket (f socket) (hmoves socket hcan) hi)
    rw [heq]
    rcases hear_cases socket listener (s.setSocket i (f socket)) with
      ⟨-, heq⟩ | ⟨-, ⟨-, heq⟩ | ⟨e, -, heq⟩⟩
    · rw [heq]
      exact hset
    · rw [heq]
      exact hlistener _ hset
    · rw [heq]
      exact hI (hlistener _ hset) (.thrown e ha)

/-- **Rule for an action.**  What its changes keep, it keeps. -/
theorem step (hI : Keeps a I) (h : I s) : I (s.step a) := by
  cases a with
  | connect maxRetries => exact hI.openSocket trivial (hI h (.reset _ _ ⟨maxRetries, rfl⟩))
  | close => exact hI.close h
  | subscribe query =>
      have hcalled : I (s.subscribe query).2 := hI.subscribe rfl h
      rcases step_subscribe_cases query s with heq | heq
      · rw [heq]
        exact hI hcalled (.subscribed query rfl)
      · rw [heq]
        exact hcalled
  | unsubscribe query =>
      have hcalled : I (s.unsubscribe query).2 := hI.unsubscribe h
      rcases step_unsubscribe_cases query s with heq | heq
      · rw [heq]
        exact hI hcalled (.unsubscribed query rfl)
      · rw [heq]
        exact hcalled
  | timer =>
      rw [WsClient.step]
      cases htimers : s.timers with
      | nil => exact h
      | cons i timers => exact hI.openSocket trivial (hI h (.fired i timers rfl htimers))
  | socketOpen i =>
      exact hI.socketEvent trivial (fun _ hcan => ⟨rfl, hcan, rfl⟩) (fun _ => hI.onOpenListener) h
  | socketError i code =>
      exact hI.socketEvent trivial (fun _ hcan => ⟨rfl, hcan, rfl⟩) (fun _ => hI.onErrorListener) h
  | socketClose i code =>
      refine hI.socketEvent trivial (fun _ hcan => ⟨rfl, hcan, rfl⟩) (fun s h => ?_) h
      rw [onCloseListener_eq]
      exact hI.reconnect rfl (hI h (.closeHeard i code rfl))
  | socketMessage i message =>
      exact hI.socketEvent trivial (fun _ hcan => ⟨rfl, of_decide_eq_true hcan, rfl⟩)
        (fun _ => hI.onMessageListener) h

end Keeps

end WsClient

end Dapi
