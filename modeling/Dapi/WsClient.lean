/-
# The WebSocket client

`src/lib/externalApis/tenderdash/WsClient.js`, with the sockets of the `ws` package.

The client opens a socket for each attempt to connect, and follows it with four
listeners until a later attempt, or a disconnect, takes them away.  A lost socket
schedules the next attempt by a timer.

* The sockets are numbered in the order in which they were made; a socket that the
  client has left goes on living, without listeners.
* A socket tells its end by `close`, with a code and a reason; an attempt that fails
  tells it by `error`, and then by `close`.
* `ws.send` throws while the socket is connecting, and drops what it is given once
  the socket is closing.
* The listeners that users have on the client act in actions of their own.
* The log of a client is the trace of what it did.
-/
import Dapi.OrderedMap
import Dapi.Promise
import Dapi.Trace

namespace Dapi

/-! ## Sockets -/

/-- The `code` of the error that a socket reports. -/
inductive SocketErrorCode
  | EAI_AGAIN
  | ECONNREFUSED
  | other (code : Option String)
  deriving DecidableEq

/-- `readyState` of a socket; when it is over, with the error that it has reported. -/
inductive ReadyState
  | CONNECTING
  | OPEN
  | CLOSING (error : Option SocketErrorCode)
  | CLOSED (error : Option SocketErrorCode)
  deriving DecidableEq

/-- A socket, with whether the listeners of the client are there. -/
structure Socket where
  readyState : ReadyState
  isListened : Bool
  deriving DecidableEq

namespace Socket

/-- `new WebSocket(url)`, with the four listeners. -/
def new : Socket := ⟨.CONNECTING, true⟩

/-- `ws.removeAllListeners()` and `ws.terminate()` -/
def terminate (socket : Socket) : Socket where
  readyState :=
    match socket.readyState with
    | .CONNECTING | .OPEN => .CLOSING none
    | readyState => readyState
  isListened := false

/-! The socket may open, report an error, or close; an attempt that failed does not close
normally. -/

/-- Only a socket that connects may open. -/
def canOpen (socket : Socket) : Bool := decide (socket.readyState = .CONNECTING)

/-- A socket may report an error until it is over. -/
def canFail (socket : Socket) : Bool :=
  decide (socket.readyState = .CONNECTING) || decide (socket.readyState = .OPEN)

/-- An open socket may close, and one that is over; the latter not normally. -/
def canClose (code : ℕ) (socket : Socket) : Bool :=
  match socket.readyState with
  | .OPEN => true
  | .CLOSING _ => decide (code ≠ 1000)
  | .CONNECTING | .CLOSED _ => false

/-- The socket once it is open. -/
def opened (socket : Socket) : Socket := { socket with readyState := .OPEN }

/-- The socket once it has reported an error. -/
def failed (code : SocketErrorCode) (socket : Socket) : Socket :=
  { socket with readyState := .CLOSING (some code) }

/-- The socket once it is closed. -/
def closed (socket : Socket) : Socket :=
  { socket with
    readyState :=
      match socket.readyState with
      | .CLOSING error => .CLOSED error
      | _ => .CLOSED none }

end Socket

/-- What a socket delivers, as `JSON.parse` reads it. -/
inductive WsMessage
  | malformed
  | withoutResult
  | emptyResult
  | result (query : String)
  deriving DecidableEq

/-! ## The client -/

/-- A JSON RPC request for a query. -/
structure WsRequest where
  jsonrpc : String
  method : String
  id : ℕ
  query : String
  deriving DecidableEq

/-- What `subscribe` sends. -/
def subscribeRequest (query : String) : WsRequest := ⟨"2.0", "subscribe", 0, query⟩

/-- What `unsubscribe` sends. -/
def unsubscribeRequest (query : String) : WsRequest := ⟨"2.0", "unsubscribe", 0, query⟩

/-- What the client emits to its users. -/
inductive ClientEvent
  | connect (address : String)
  | connectMaxRetryExceeded (address : String)
  | error (code : SocketErrorCode)
  | result (query : String)
  deriving DecidableEq

/-- Why code of the client throws: a property of the null `ws` is read, `ws.send` throws, a message
is not what it should be.  A loop that was cut off is `unfinished`. -/
inductive WsException
  | nullSocket
  | notOpen
  | malformedMessage
  | unfinished
  deriving DecidableEq

/-- What the client did.  The calls of users are there when they did not throw. -/
inductive WsEvent
  | sent (request : WsRequest)
  | emitted (event : ClientEvent)
  | closed (i code : ℕ)
  | retryConsumed (i : ℕ)
  | reconnectScheduled (i : ℕ)
  | subscribed (query : String)
  | unsubscribed (query : String)
  | uncaught (exception : WsException)
  deriving DecidableEq

/-- The promise of a `connect()`, and whether it is rejected when the retries are exceeded. -/
structure ConnectPromise where
  rejectsOnMaxRetry : Bool
  promise : Promise String Unit
  deriving DecidableEq

/-- What the listeners that `connect()` has on the client do at an event. -/
def ConnectPromise.settle (event : ClientEvent) (connect : ConnectPromise) : ConnectPromise :=
  match event with
  | .connect _ => { connect with promise := connect.promise.resolve (.fulfilled ()) }
  | .connectMaxRetryExceeded _ =>
    if connect.rejectsOnMaxRetry then
      { connect with
        promise := connect.promise.resolve
          (.rejected "Connection dropped. Max retries exceeded.") }
    else connect
  | .error _ | .result _ => connect

/-- The options of the constructor. -/
structure WsOptions where
  protocol : Option String
  host : Option String
  port : Option String
  path : Option String

/-- The client, the sockets that it made, and its timers.  A timer has the number of the socket
whose loss it was set for. -/
structure WsClient where
  url : String
  isConnected : Bool
  subscribedQueries : OrderedMap String ℕ
  ws : Option ℕ
  maxRetries : ℤ
  connectionRetries : ℕ
  sockets : List Socket
  timers : List ℕ
  connects : List ConnectPromise
  log : List WsEvent

namespace WsClient

/-- `option ? option.toString() : value` -/
def optionOr (option : Option String) (value : String) : String :=
  if option.getD "" = "" then value else option.getD ""

/-- The constructor.  The retries are set by `connect`, before anything reads them. -/
def new (options : WsOptions) : WsClient where
  url := optionOr options.protocol "ws" ++ "://" ++ optionOr options.host "0.0.0.0" ++ ":" ++
    optionOr options.port "26657" ++ "/" ++ optionOr options.path "websocket"
  isConnected := false
  subscribedQueries := .empty
  ws := none
  maxRetries := -1
  connectionRetries := 0
  sockets := []
  timers := []
  connects := []
  log := []

/-- An event is put into the log. -/
def record (event : WsEvent) (s : WsClient) : WsClient := { s with log := s.log ++ [event] }

/-- The socket number `i` is replaced. -/
def setSocket (i : ℕ) (socket : Socket) (s : WsClient) : WsClient :=
  { s with sockets := s.sockets.set i socket }

/-- `this.emit(event.type, event)` -/
def emit (event : ClientEvent) (s : WsClient) : WsClient :=
  record (.emitted event) { s with connects := s.connects.map (ConnectPromise.settle event) }

/-- The body of `disconnect`, for the socket number `i` in `ws`. -/
def leaveSocket (i : ℕ) (s : WsClient) : WsClient :=
  { s with
    sockets := s.sockets.modify i Socket.terminate
    isConnected := false }

/-- The method `disconnect`, which fails when there is no socket. -/
def disconnect (s : WsClient) : Except WsException Unit × WsClient :=
  match s.ws with
  | some i => (.ok (), s.leaveSocket i)
  | none => (.error .nullSocket, s)

/-- The method `open`. -/
def openSocket (s : WsClient) : WsClient :=
  let s :=
    match s.ws with
    | some i => s.leaveSocket i
    | none => s
  { s with
    ws := some s.sockets.length
    sockets := s.sockets ++ [.new] }

/-- `this.ws.send(JSON.stringify(request))` -/
def send (request : WsRequest) (s : WsClient) : Except WsException Unit × WsClient :=
  match s.ws with
  | none => (.error .nullSocket, s)
  | some i =>
    if (s.sockets[i]?).any (fun socket => decide (socket.readyState = .CONNECTING)) then
      (.error .notOpen, s)
    else (.ok (), s.record (.sent request))

/-- The method `subscribe`: the query is sent, and then counted. -/
def subscribe (query : String) (s : WsClient) : Except WsException Unit × WsClient :=
  match s.send (subscribeRequest query) with
  | (.error e, s) => (.error e, s)
  | (.ok (), s) =>
    let count := (s.subscribedQueries.get? query).getD 0
    (.ok (), { s with subscribedQueries := s.subscribedQueries.set query (count + 1) })

/-- The count of a query that is not there is `NaN`, which is not positive. -/
def unsubscribe (query : String) (s : WsClient) : Except WsException Unit × WsClient :=
  let count := (s.subscribedQueries.get? query).getD 0 - 1
  if count > 0 then
    (.ok (), { s with subscribedQueries := s.subscribedQueries.set query count })
  else
    match s.send (unsubscribeRequest query) with
    | (.error e, s) => (.error e, s)
    | (.ok (), s) => (.ok (), { s with subscribedQueries := s.subscribedQueries.delete query })

/-- `connect({ maxRetries })` -/
def connect (maxRetries : Option ℤ) (s : WsClient) : WsClient :=
  let maxRetries := if maxRetries.getD 0 = 0 then -1 else maxRetries.getD 0
  openSocket
    { s with
      maxRetries := maxRetries
      connectionRetries := 0
      subscribedQueries := .empty
      connects := s.connects ++ [⟨decide (maxRetries ≠ -1), .pending⟩] }

/-- The method `close`: the socket is left if it was connected, and everything forgotten. -/
def close (s : WsClient) : Bool × WsClient :=
  match s.ws with
  | some i =>
    let s := if s.isConnected then s.leaveSocket i else s
    (true, { s with ws := none, subscribedQueries := .empty })
  | none => (false, s)

/-! ## The listeners of a socket -/

/-- The test of `reconnect`. -/
def HasRetries (s : WsClient) : Prop := s.connectionRetries ≤ s.maxRetries ∨ s.maxRetries = -1

instance (s : WsClient) : Decidable s.HasRetries := inferInstanceAs (Decidable (_ ∨ _))

/-- The closure `reconnect` of socket number `i`. -/
def reconnect (i : ℕ) (s : WsClient) : Except WsException Unit × WsClient :=
  if s.HasRetries then
    let s :=
      if s.maxRetries ≠ -1 then
        record (.retryConsumed i) { s with connectionRetries := s.connectionRetries + 1 }
      else s
    (.ok (), record (.reconnectScheduled i) { s with timers := s.timers ++ [i] })
  else
    match s.disconnect with
    | (.error e, s) => (.error e, s)
    | (.ok (), s) => (.ok (), s.emit (.connectMaxRetryExceeded s.url))

/-- The loop over the keys of `subscribedQueries`; the rounds are enough for the keys and the
end. -/
def resubscribe (s : WsClient) : Except WsException Unit × WsClient :=
  (OrderedMap.forKeys subscribedQueries subscribe (s.subscribedQueries.keys.length + 1) 0
    s).getD (.error .unfinished, s)

/-- The listener for `open`: `connect` is emitted, and then the queries are sent again. -/
def onOpenListener (s : WsClient) : Except WsException Unit × WsClient :=
  resubscribe (emit (.connect s.url) { s with isConnected := true })

/-- `e.code`, where `e` is the number that the listener receives. -/
def codeOfNumber (_ : ℕ) : Option ℕ := none

/-- The listener for `close`, which receives the number `e`. -/
def onCloseListener (i e : ℕ) (s : WsClient) : Except WsException Unit × WsClient :=
  let s := s.record (.closed i e)
  if codeOfNumber e = some 1000 then s.disconnect else s.reconnect i

/-- The listener for `error`: some errors are worth another attempt. -/
def onErrorListener (i : ℕ) (code : SocketErrorCode) (s : WsClient) :
    Except WsException Unit × WsClient :=
  match code with
  | .EAI_AGAIN | .ECONNREFUSED => s.reconnect i
  | .other _ =>
    match s.disconnect with
    | (.error e, s) => (.error e, s)
    | (.ok (), s) => (.ok (), s.emit (.error code))

/-- The listener for `message`. -/
def onMessageListener (message : WsMessage) (s : WsClient) : Except WsException Unit × WsClient :=
  match message with
  | .malformed => (.error .malformedMessage, s)
  | .withoutResult | .emptyResult => (.ok (), s)
  | .result query => (.ok (), s.emit (.result query))

/-- A socket emits an event: its listener runs, when it has one.  Nobody catches what the listener
throws. -/
def hear (socket : Socket) (listener : WsClient → Except WsException Unit × WsClient)
    (s : WsClient) : WsClient :=
  if socket.isListened then
    match listener s with
    | (.ok (), s) => s
    | (.error e, s) => s.record (.uncaught e)
  else s

/-! ## Runs -/

/-- What can happen to the client and its sockets. -/
inductive Action
  | connect (maxRetries : Option ℤ)
  | close
  | subscribe (query : String)
  | unsubscribe (query : String)
  | timer
  | socketOpen (i : ℕ)
  | socketError (i : ℕ) (code : SocketErrorCode)
  | socketClose (i code : ℕ)
  | socketMessage (i : ℕ) (message : WsMessage)

/-- The action is one of the connection, not a call of a user. -/
def Action.IsOfConnection : Action → Prop
  | .timer | .socketOpen _ | .socketError _ _ | .socketClose _ _ | .socketMessage _ _ => True
  | .connect _ | .close | .subscribe _ | .unsubscribe _ => False

/-- The socket `i` changes by `f` and its listener runs, when it is in a state in which that can
happen. -/
def socketEvent (i : ℕ) (can : Socket → Bool) (f : Socket → Socket)
    (listener : WsClient → Except WsException Unit × WsClient) (s : WsClient) : WsClient :=
  match s.sockets[i]? with
  | some socket => if can socket then (s.setSocket i (f socket)).hear socket listener else s
  | none => s

/-- The state after an action. -/
def step (s : WsClient) : Action → WsClient
  | .connect maxRetries => s.connect maxRetries
  | .close => s.close.2
  | .subscribe query =>
    match s.subscribe query with
    | (.ok (), s) => s.record (.subscribed query)
    | (.error _, s) => s
  | .unsubscribe query =>
    match s.unsubscribe query with
    | (.ok (), s) => s.record (.unsubscribed query)
    | (.error _, s) => s
  | .timer =>
    match s.timers with
    | _ :: timers => openSocket { s with timers := timers }
    | [] => s
  | .socketOpen i => s.socketEvent i Socket.canOpen Socket.opened onOpenListener
  | .socketError i code =>
    s.socketEvent i Socket.canFail (Socket.failed code) (onErrorListener i code)
  | .socketClose i code =>
    s.socketEvent i (Socket.canClose code) Socket.closed (onCloseListener i code)
  | .socketMessage i message =>
    s.socketEvent i (fun socket => decide (socket.readyState = .OPEN)) id
      (onMessageListener message)

/-- A run of the client. -/
abbrev run : WsClient → List Action → WsClient := Machine.run step

/-! ## What the methods do -/

variable {s : WsClient} {i j : ℕ}

/-- A socket, after one was set: it is this one, or as it was. -/
theorem setSocket_cases {socket socket' : Socket}
    (h : (s.setSocket i socket).sockets[j]? = some socket') :
    (i = j ∧ socket' = socket) ∨
      (i ≠ j ∧ s.sockets[j]? = some socket') := by
  have hget : (s.sockets.set i socket)[j]? = some socket' := h
  by_cases hij : i = j
  · subst hij
    have hlt : i < s.sockets.length := by
      have hlt := (List.getElem?_eq_some_iff.mp hget).1
      rwa [List.length_set] at hlt
    rw [List.getElem?_set_self hlt] at hget
    exact Or.inl ⟨rfl, (Option.some.inj hget).symm⟩
  · rw [List.getElem?_set_ne hij] at hget
    exact Or.inr ⟨hij, hget⟩

/-- A socket, after one was left: it is terminated, or as it was. -/
theorem leaveSocket_cases {socket : Socket}
    (h : (s.leaveSocket i).sockets[j]? = some socket) :
    (i = j ∧ ∃ socket' : Socket, socket = socket'.terminate) ∨
      (i ≠ j ∧ s.sockets[j]? = some socket) := by
  have hget : (s.sockets.modify i Socket.terminate)[j]? = some socket := h
  rw [List.getElem?_modify] at hget
  obtain ⟨socket', hj, heq⟩ := Option.map_eq_some_iff.mp hget
  by_cases hij : i = j
  · rw [if_pos hij] at heq
    exact Or.inl ⟨hij, socket', heq.symm⟩
  · rw [if_neg hij] at heq
    exact Or.inr ⟨hij, hj.trans (congrArg some heq)⟩

/-- A request is sent, or the call throws and changes nothing. -/
theorem send_cases (request : WsRequest) (s : WsClient) :
    (∃ e, s.send request = (.error e, s)) ∨
      s.send request = (.ok (), s.record (.sent request)) := by
  unfold send
  cases s.ws with
  | none => exact Or.inl ⟨_, rfl⟩
  | some i =>
      simp only
      split_ifs
      · exact Or.inl ⟨_, rfl⟩
      · exact Or.inr rfl

/-- The query is sent and counted, or the client fails. -/
theorem subscribe_cases (query : String) (s : WsClient) :
    (∃ e, s.subscribe query = (.error e, s)) ∨
      s.subscribe query = (.ok (),
        { s.record (.sent (subscribeRequest query)) with
          subscribedQueries := s.subscribedQueries.set query
            ((s.subscribedQueries.get? query).getD 0 + 1) }) := by
  unfold subscribe
  rcases send_cases (subscribeRequest query) s with ⟨e, heq⟩ | heq
  · rw [heq]
    exact Or.inl ⟨e, rfl⟩
  · rw [heq]
    exact Or.inr rfl

/-- **A released query.**  The count goes down; at zero a request is sent, or the call throws. -/
theorem unsubscribe_cases (query : String) (s : WsClient) :
    (1 < (s.subscribedQueries.get? query).getD 0 ∧ s.unsubscribe query = (.ok (),
        { s with
          subscribedQueries := s.subscribedQueries.set query
            ((s.subscribedQueries.get? query).getD 0 - 1) })) ∨
      ((s.subscribedQueries.get? query).getD 0 ≤ 1 ∧
        ((∃ e, s.unsubscribe query = (.error e, s)) ∨
          s.unsubscribe query = (.ok (),
            { s.record (.sent (unsubscribeRequest query)) with
              subscribedQueries := s.subscribedQueries.delete query }))) := by
  unfold unsubscribe
  simp only
  split_ifs with hcount
  · exact Or.inl ⟨by omega, rfl⟩
  · refine Or.inr ⟨by omega, ?_⟩
    rcases send_cases (unsubscribeRequest query) s with ⟨e, heq⟩ | heq
    · rw [heq]
      exact Or.inl ⟨e, rfl⟩
    · rw [heq]
      exact Or.inr rfl

/-- The user hears of a call that returned. -/
theorem step_subscribe_cases (query : String) (s : WsClient) :
    s.step (.subscribe query) = (s.subscribe query).2.record (.subscribed query) ∨
      s.step (.subscribe query) = (s.subscribe query).2 := by
  rw [step]
  rcases s.subscribe query with ⟨_ | _, s'⟩
  · exact Or.inr rfl
  · exact Or.inl rfl

/-- Only an `unsubscribe` that raises nothing is told. -/
theorem step_unsubscribe_cases (query : String) (s : WsClient) :
    s.step (.unsubscribe query) = (s.unsubscribe query).2.record (.unsubscribed query) ∨
      s.step (.unsubscribe query) = (s.unsubscribe query).2 := by
  rw [step]
  rcases s.unsubscribe query with ⟨_ | _, s'⟩
  · exact Or.inr rfl
  · exact Or.inl rfl

/-- **What `reconnect` does.**  It sets a timer; or it leaves the current socket, when the retries
are exceeded. -/
theorem reconnect_cases (i : ℕ) (s : WsClient) :
    (s.HasRetries ∧ ∃ retries events, (events = [] ∨ events = [WsEvent.retryConsumed i]) ∧
        s.reconnect i = (.ok (),
          { s with
            connectionRetries := retries
            timers := s.timers ++ [i]
            log := s.log ++ events ++ [.reconnectScheduled i] })) ∨
      (¬ s.HasRetries ∧ ((∃ j, s.ws = some j ∧ s.reconnect i =
          (.ok (), (s.leaveSocket j).emit (.connectMaxRetryExceeded s.url))) ∨
        (s.ws = none ∧ s.reconnect i = (.error .nullSocket, s)))) := by
  unfold reconnect
  split_ifs with hretries hbound
  · exact Or.inl ⟨hretries, s.connectionRetries + 1, [.retryConsumed i], Or.inr rfl, rfl⟩
  · refine Or.inl ⟨hretries, s.connectionRetries, [], Or.inl rfl, ?_⟩
    rw [List.append_nil]
    rfl
  · refine Or.inr ⟨hretries, ?_⟩
    unfold disconnect
    cases hws : s.ws with
    | some j => exact Or.inl ⟨j, rfl, rfl⟩
    | none => exact Or.inr ⟨rfl, rfl⟩

/-- The socket is left, or there is none. -/
theorem disconnect_cases (s : WsClient) :
    (∃ j, s.ws = some j ∧ s.disconnect = (.ok (), s.leaveSocket j)) ∨
      (s.ws = none ∧ s.disconnect = (.error .nullSocket, s)) := by
  unfold disconnect
  cases s.ws with
  | some j => exact Or.inl ⟨j, rfl, rfl⟩
  | none => exact Or.inr ⟨rfl, rfl⟩

/-- The listener of a socket runs, when it is there; what it throws is only recorded. -/
theorem hear_cases (socket : Socket) (listener : WsClient → Except WsException Unit × WsClient)
    (s : WsClient) :
    (socket.isListened = false ∧ s.hear socket listener = s) ∨
      (socket.isListened = true ∧
        (((listener s).1 = .ok () ∧ s.hear socket listener = (listener s).2) ∨
          ∃ e, (listener s).1 = .error e ∧
            s.hear socket listener = (listener s).2.record (.uncaught e))) := by
  unfold hear
  cases socket.isListened with
  | false => exact Or.inl ⟨rfl, rfl⟩
  | true =>
      refine Or.inr ⟨rfl, ?_⟩
      rcases listener s with ⟨r, s'⟩
      cases r with
      | ok _ => exact Or.inl ⟨rfl, rfl⟩
      | error e => exact Or.inr ⟨e, rfl, rfl⟩

/-- An event of a socket that can happen changes the socket and is heard. -/
theorem socketEvent_cases (i : ℕ) (can : Socket → Bool) (f : Socket → Socket)
    (listener : WsClient → Except WsException Unit × WsClient) (s : WsClient) :
    s.socketEvent i can f listener = s ∨ ∃ socket, s.sockets[i]? = some socket ∧
      can socket = true ∧
        s.socketEvent i can f listener = (s.setSocket i (f socket)).hear socket listener := by
  unfold socketEvent
  cases hi : s.sockets[i]? with
  | none => exact Or.inl rfl
  | some socket =>
      simp only
      split_ifs with hcan
      · exact Or.inr ⟨socket, rfl, hcan, rfl⟩
      · exact Or.inl rfl

/-- A socket that may still tell something is heard. -/
theorem socketEvent_eq {can : Socket → Bool} {f : Socket → Socket} {socket : Socket}
    {listener : WsClient → Except WsException Unit × WsClient}
    (hi : s.sockets[i]? = some socket) (hcan : can socket = true) :
    s.socketEvent i can f listener = (s.setSocket i (f socket)).hear socket listener := by
  unfold socketEvent
  rw [hi]
  exact if_pos hcan

/-- After a failure to connect the client reconnects. -/
theorem onErrorListener_eq {code : SocketErrorCode} (hcode : ∀ c, code ≠ .other c) (i : ℕ)
    (s : WsClient) : s.onErrorListener i code = s.reconnect i := by
  cases code with
  | other c => exact absurd rfl (hcode c)
  | _ => rfl

/-- The code of a close event is read from a number, so no close is a normal one. -/
theorem onCloseListener_eq (i code : ℕ) (s : WsClient) :
    s.onCloseListener i code = (s.record (.closed i code)).reconnect i := rfl

/-- A query that is subscribed once more keeps its place among the keys. -/
theorem keys_subscribe {query : String} (hmem : query ∈ s.subscribedQueries.keys) :
    (s.subscribe query).2.subscribedQueries.keys = s.subscribedQueries.keys := by
  rcases subscribe_cases query s with ⟨e, heq⟩ | heq
  · rw [heq]
  · rw [heq]
    exact OrderedMap.keys_set_of_mem hmem _

/-- The loop over the keys is over after one round for each of them, and one for the end. -/
theorem forKeys_subscribe {rounds : ℕ} (hrounds : s.subscribedQueries.keys.length < rounds) :
    OrderedMap.forKeys subscribedQueries subscribe rounds 0 s =
      some (forEach subscribe s.subscribedQueries.keys s) := by
  refine OrderedMap.forKeys_eq_forEach (fun query s₁ s₂ hmem heq => ?_) (by omega)
  have hkeys := keys_subscribe hmem
  rwa [heq] at hkeys

/-- **The loop of the re-subscription** goes once over the keys that are there when it starts. -/
theorem resubscribe_eq (s : WsClient) :
    s.resubscribe = forEach subscribe s.subscribedQueries.keys s := by
  unfold resubscribe
  rw [forKeys_subscribe (Nat.lt_succ_self _)]
  rfl

end WsClient

end Dapi
