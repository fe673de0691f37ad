/-
# What the node is subscribed to

`src/lib/externalApis/tenderdash/WsClient.js` and `BlockchainListener.js`, with the node at
the other end: it keeps, for each socket, the queries that were subscribed on it, and a new
socket starts without any.

* `Link`: the client with the queries that the node keeps for the sockets.
* `Mirrored` is the invariant: what the node keeps for an open current socket are the keys
  of `subscribedQueries`, and a socket that has not opened has nothing.
* `node_mirrors_queries`: this holds in every run.
* `Covered`: the count of a query is at least the subscriptions of users that are
  outstanding.
* `subscriptions_kept`: nobody loses a subscription through a release by somebody else or
  a reconnect.
* `listener_stays_subscribed`: after `BlockchainListener.start` the node has its two queries,
  and no others, on every open current socket.
-/
import Dapi.Resubscription

namespace Dapi

/-! ## The node -/

/-- The requests among the events, oldest first. -/
def WsEvent.requests (es : List WsEvent) : List WsRequest :=
  es.filterMap fun
    | .sent request => some request
    | _ => none

/-- What a request does to the queries that the node keeps for a socket. -/
def WsRequest.apply (queries : Finset String) (request : WsRequest) : Finset String :=
  if request.method = "subscribe" then insert request.query queries
  else if request.method = "unsubscribe" then queries.erase request.query
  else queries

/-- The current socket, when it is open: only then does a request arrive. -/
def WsClient.wire (s : WsClient) : Option ℕ :=
  s.ws.filter fun i => (s.sockets[i]?).any fun socket => decide (socket.readyState = .OPEN)

/-- The client, and what the node keeps for each socket. -/
structure Link where
  client : WsClient
  queries : ℕ → Finset String

namespace Link

/-- A link whose node has no subscriptions. -/
def new (options : WsOptions) : Link := ⟨.new options, fun _ => ∅⟩

/-- The requests among the events arrive on the open current socket, in their order. -/
def deliver (es : List WsEvent) (l : Link) : Link :=
  match l.client.wire with
  | some i =>
    { l with
      queries := Function.update l.queries i
        ((WsEvent.requests es).foldl WsRequest.apply (l.queries i)) }
  | none => l

/-- A step of the client, after which what it sent arrives. -/
def step (l : Link) (a : WsClient.Action) : Link :=
  deliver ((l.client.step a).log.drop l.client.log.length) { l with client := l.client.step a }

/-- A run of the client with the node. -/
abbrev run : Link → List WsClient.Action → Link := Machine.run step

end Link

open Trace WsClient

/-! ## Requests -/

theorem WsEvent.requests_eq_nil {es : List WsEvent} (h : ∀ e ∈ es, ¬ e.IsOfQuery) :
    requests es = [] := by
  refine List.filterMap_eq_nil_iff.mpr fun e he => ?_
  cases e with
  | sent request => exact absurd trivial (h _ he)
  | _ => rfl

/-- The requests that were sent. -/
theorem WsEvent.requests_map_sent (rs : List WsRequest) : requests (rs.map .sent) = rs := by
  induction rs with
  | nil => rfl
  | cons r rs ih =>
      show r :: requests (rs.map .sent) = r :: rs
      rw [ih]

@[simp] theorem apply_subscribeRequest (queries : Finset String) (query : String) :
    WsRequest.apply queries (subscribeRequest query) = insert query queries := rfl

@[simp] theorem apply_unsubscribeRequest (queries : Finset String) (query : String) :
    WsRequest.apply queries (unsubscribeRequest query) = queries.erase query := rfl

/-- A block of `subscribe` requests adds their queries. -/
theorem mem_foldl_subscribeRequest {qs : List String} {queries : Finset String} {query : String} :
    query ∈ (qs.map subscribeRequest).foldl WsRequest.apply queries ↔
      query ∈ queries ∨ query ∈ qs := by
  induction qs generalizing queries with
  | nil => simp
  | cons q qs ih =>
      rw [List.map_cons, List.foldl_cons, ih, apply_subscribeRequest, Finset.mem_insert,
        List.mem_cons]
      tauto

/-! ## Sockets that are open, and those that are not yet -/

namespace WsClient

variable {s s' : WsClient} {i j : ℕ} {a : Action} {query : String}

/-- The socket that requests go through is the current one, when it is open. -/
theorem wire_eq_some_iff :
    s.wire = some i ↔ s.ws = some i ∧ ∃ socket, s.sockets[i]? = some socket ∧
      socket.readyState = .OPEN := by
  unfold wire
  rw [Option.filter_eq_some_iff, Option.any_eq_true]
  simp only [decide_eq_true_eq]

/-- Through an open socket the client can send. -/
theorem canSend_of_wire (h : s.wire = some i) : s.CanSend := by
  obtain ⟨hws, socket, hi, hopen⟩ := wire_eq_some_iff.mp h
  refine ⟨i, hws, fun socket' hi' => ?_⟩
  rw [Option.some.inj (hi'.symm.trans hi), hopen]
  exact fun heq => by cases heq

/-- The socket has not opened, nor failed: it is connecting, or not made. -/
def Fresh (s : WsClient) (i : ℕ) : Prop :=
  ∀ socket, s.sockets[i]? = some socket → socket.readyState = .CONNECTING

/-- A socket that has not opened carries nothing. -/
theorem Fresh.wire_ne (h : s.Fresh i) : s.wire ≠ some i := by
  intro hwire
  obtain ⟨-, socket, hi, hopen⟩ := wire_eq_some_iff.mp hwire
  have hconnecting := h socket hi
  rw [hopen] at hconnecting
  cases hconnecting

/-- A socket that was left is neither connecting nor open. -/
theorem readyState_terminate (socket : Socket) :
    socket.terminate.readyState ≠ .CONNECTING ∧ socket.terminate.readyState ≠ .OPEN := by
  obtain ⟨readyState, isListened⟩ := socket
  cases readyState <;> simp [Socket.terminate]

/-- A closed socket neither opens nor is open. -/
theorem readyState_closed (socket : Socket) :
    socket.closed.readyState ≠ .CONNECTING ∧ socket.closed.readyState ≠ .OPEN := by
  obtain ⟨readyState, isListened⟩ := socket
  cases readyState <;> simp [Socket.closed]

/-- An event leaves a socket connecting only when it was, and opens it only by `open`. -/
theorem Action.Moves.readyState {socket socket' : Socket} (h : a.Moves i socket socket') :
    (socket'.readyState = .CONNECTING → socket.readyState = .CONNECTING) ∧
      ((∀ i, a ≠ .socketOpen i) → socket'.readyState = .OPEN → socket.readyState = .OPEN) := by
  cases a with
  | socketOpen i' =>
      obtain ⟨-, hcan, -⟩ := h
      exact ⟨fun _ => of_decide_eq_true hcan, fun hopen => absurd rfl (hopen i')⟩
  | socketError i' code =>
      obtain ⟨-, -, rfl⟩ := h
      constructor <;> simp [Socket.failed]
  | socketClose i' code =>
      obtain ⟨-, -, rfl⟩ := h
      have hclosed := readyState_closed socket
      exact ⟨fun h => absurd h hclosed.1, fun _ h => absurd h hclosed.2⟩
  | socketMessage i' message =>
      obtain ⟨-, -, rfl⟩ := h
      exact ⟨id, fun _ => id⟩
  | _ => exact h.elim

/-- A socket that is fresh after another one is left was fresh before. -/
theorem Fresh.of_leaveSocket (h : (s.leaveSocket j).Fresh i) : s.Fresh i := by
  intro socket hi
  have hleft : (s.leaveSocket j).sockets[i]? =
      some (if j = i then socket.terminate else socket) := by
    show (s.sockets.modify j Socket.terminate)[i]? = _
    rw [List.getElem?_modify, hi]
    split_ifs <;> rfl
  have hconnecting := h _ hleft
  split_ifs at hconnecting
  · exact absurd hconnecting (readyState_terminate socket).1
  · exact hconnecting

/-- Only `new` makes a socket fresh. -/
theorem Fresh.of_setSocket {socket socket' : Socket} (hj : s.sockets[j]? = some socket)
    (hmoved : socket'.readyState = .CONNECTING → socket.readyState = .CONNECTING)
    (h : (s.setSocket j socket').Fresh i) : s.Fresh i := by
  intro socket'' hi
  by_cases hij : j = i
  · subst hij
    obtain rfl := Option.some.inj (hj.symm.trans hi)
    refine hmoved (h socket' ?_)
    exact List.getElem?_set_self (List.getElem?_eq_some_iff.mp hi).1
  · exact h socket'' ((List.getElem?_set_ne hij).trans hi)

/-- **A socket that has not opened yet** had not before the step. -/
theorem Fresh.of_step (h : (s.step a).Fresh i) : s.Fresh i := by
  have hkeeps : Keeps a fun s' => s'.Fresh i → s.Fresh i := by
    intro s₁ s₂ hback hchange
    cases hchange with
    | left j => exact fun h => hback h.of_leaveSocket
    | made =>
        refine fun h => hback fun socket hi => h socket ?_
        exact (List.getElem?_append_left (List.getElem?_eq_some_iff.mp hi).1).trans hi
    | moved j socket socket' ha hj => exact fun h => hback (.of_setSocket hj ha.readyState.1 h)
    | _ => exact hback
  exact hkeeps.step id h

/-- To leave a socket opens none. -/
theorem wire_of_leaveSocket (h : (s.leaveSocket j).wire = some i) : s.wire = some i := by
  obtain ⟨hws, socket, hi, hopen⟩ := wire_eq_some_iff.mp h
  rcases leaveSocket_cases hi with ⟨-, socket', rfl⟩ | ⟨-, hi'⟩
  · exact absurd hopen (readyState_terminate socket').2
  · exact wire_eq_some_iff.mpr ⟨hws, socket, hi', hopen⟩

/-- Only an opened socket is open. -/
theorem wire_of_setSocket {socket socket' : Socket} (hj : s.sockets[j]? = some socket)
    (hmoved : socket'.readyState = .OPEN → socket.readyState = .OPEN)
    (h : (s.setSocket j socket').wire = some i) : s.wire = some i := by
  obtain ⟨hws, socket'', hi, hopen⟩ := wire_eq_some_iff.mp h
  rcases setSocket_cases hi with ⟨rfl, rfl⟩ | ⟨-, hi'⟩
  · exact wire_eq_some_iff.mpr ⟨hws, socket, hj, hmoved hopen⟩
  · exact wire_eq_some_iff.mpr ⟨hws, socket'', hi', hopen⟩

/-- **A socket that is current and open** was so before the step, unless it opens. -/
theorem wire_of_step (ha : ∀ i, a ≠ .socketOpen i) (h : (s.step a).wire = some i) :
    s.wire = some i := by
  have hkeeps : Keeps a fun s' => s'.wire = some i → s.wire = some i := by
    intro s₁ s₂ hback hchange
    cases hchange with
    | released => exact fun h => absurd h (by simp [wire])
    | left j => exact fun h => hback (wire_of_leaveSocket h)
    | made =>
        -- the new socket is connecting
        intro h
        obtain ⟨hws, socket, hi, hopen⟩ := wire_eq_some_iff.mp h
        have hnew : socket = .new := by simpa [← Option.some.inj hws] using hi.symm
        rw [hnew] at hopen
        cases hopen
    | moved j socket socket' hmoves hj =>
        exact fun h => hback (wire_of_setSocket hj (hmoves.readyState.2 ha) h)
    | _ => exact hback
  exact hkeeps.step id h

/-- A new socket is connecting. -/
theorem wire_openSocket (s : WsClient) : s.openSocket.wire = none := by
  unfold openSocket wire
  simp [Socket.new]

/-- A closed client sends nothing. -/
theorem wire_close (s : WsClient) : s.close.2.wire = none := by
  unfold close wire
  cases hws : s.ws with
  | none => simp [hws]
  | some i => rfl

/-! ## The requests of an open -/

/-- What cannot be sent fails. -/
theorem send_of_not_canSend (h : ¬ s.CanSend) (request : WsRequest) :
    ∃ e, s.send request = (.error e, s) := by
  unfold send
  cases hws : s.ws with
  | none => exact ⟨_, rfl⟩
  | some i =>
      simp only
      split_ifs with hconnecting
      · exact ⟨_, rfl⟩
      · refine absurd ⟨i, hws, fun socket hi hstate => hconnecting ?_⟩ h
        rw [hi]
        exact decide_eq_true hstate

/-- While nothing can be sent, the loop changes nothing. -/
theorem forEach_subscribe_of_not_canSend (h : ¬ s.CanSend) (queries : List String) :
    (forEach WsClient.subscribe queries s).2 = s := by
  cases queries with
  | nil => rfl
  | cons query queries =>
      obtain ⟨e, hsend⟩ := send_of_not_canSend h (subscribeRequest query)
      have hsubscribe : s.subscribe query = (.error e, s) := by
        unfold WsClient.subscribe
        rw [hsend]
      rw [forEach_cons_error hsubscribe]

/-- **An `open` that is heard**: when something can be sent then, the keys are requested. -/
theorem requests_socketOpen {socket : Socket} (hi : s.sockets[i]? = some socket)
    (hcan : socket.canOpen = true) (hlistened : socket.isListened = true)
    (hwire : (s.step (.socketOpen i)).wire = some j) :
    (s.setSocket i socket.opened).wire = some j ∧ ∃ es, (s.step (.socketOpen i)).log = s.log ++ es ∧
      WsEvent.requests es = s.subscribedQueries.keys.map subscribeRequest := by
  have hlistener : (s.setSocket i socket.opened).onOpenListener =
      forEach WsClient.subscribe s.subscribedQueries.keys (s.setSocket i socket.opened).connected :=
    resubscribe_eq _
  by_cases hsend : (s.setSocket i socket.opened).connected.CanSend
  · obtain ⟨counts, -, hloop⟩ := hsend.forEach_subscribe
      fun query (hmem : query ∈ s.subscribedQueries.keys) => hmem
    have hstep : s.step (.socketOpen i) =
        { (s.setSocket i socket.opened).connected with
          log := s.log ++ [.emitted (.connect s.url)] ++
            s.subscribedQueries.keys.map fun query => .sent (subscribeRequest query)
          subscribedQueries := counts } := by
      rw [step, socketEvent_eq hi hcan, hear, hlistened, hlistener, hloop]
      rfl
    rw [hstep] at hwire ⊢
    refine ⟨hwire, .emitted (.connect s.url) :: s.subscribedQueries.keys.map fun query =>
      .sent (subscribeRequest query), by simp, ?_⟩
    have hmap : (s.subscribedQueries.keys.map fun query => WsEvent.sent (subscribeRequest query)) =
        (s.subscribedQueries.keys.map subscribeRequest).map .sent := by
      rw [List.map_map]
      rfl
    rw [hmap]
    exact WsEvent.requests_map_sent _
  · -- the current socket does not take a request, so it is not open
    have hsame : (s.step (.socketOpen i)).wire =
        (s.setSocket i socket.opened).connected.wire := by
      have hstate := forEach_subscribe_of_not_canSend hsend s.subscribedQueries.keys
      rw [step, socketEvent_eq hi hcan]
      rcases hear_cases socket onOpenListener (s.setSocket i socket.opened) with
        ⟨hnot, -⟩ | ⟨-, ⟨-, heq⟩ | ⟨e, -, heq⟩⟩
      · rw [hlistened] at hnot
        cases hnot
      · rw [heq, hlistener, hstate]
      · rw [heq, hlistener, hstate]
        rfl
    exact absurd (canSend_of_wire (hsame.symm.trans hwire)) hsend

end WsClient

/-! ## The invariant -/

namespace Link

variable {l : Link} {a : Action} {i : ℕ}

/-- **The node mirrors the client**: an open current socket has the keys, and a socket that has
not opened has nothing. -/
structure Mirrored (l : Link) : Prop where
  current : ∀ i, l.client.wire = some i →
    ∀ query, query ∈ l.queries i ↔ query ∈ l.client.subscribedQueries.keys
  fresh : ∀ i, l.client.Fresh i → l.queries i = ∅
  awaited : l.client.Awaited

@[simp] theorem client_deliver (es : List WsEvent) (l : Link) :
    (l.deliver es).client = l.client := by
  unfold deliver
  split <;> rfl

@[simp] theorem client_step (l : Link) (a : Action) : (l.step a).client = l.client.step a :=
  client_deliver _ _

/-- The link runs the client. -/
theorem client_run (l : Link) (as : List Action) : (run l as).client = l.client.run as := by
  induction as generalizing l with
  | nil => rfl
  | cons a as ih =>
      rw [run, Machine.run_cons]
      exact (ih _).trans (by rw [client_step]; rfl)

/-- What arrives on the open current socket. -/
theorem queries_step_wire {es : List WsEvent} (hlog : (l.client.step a).log = l.client.log ++ es)
    (hwire : (l.client.step a).wire = some i) :
    (l.step a).queries i = (WsEvent.requests es).foldl WsRequest.apply (l.queries i) := by
  unfold step deliver
  simp only [hlog, List.drop_left, hwire, Function.update_self]

/-- Nothing arrives elsewhere. -/
theorem queries_step_of_ne (hwire : (l.client.step a).wire ≠ some i) :
    (l.step a).queries i = l.queries i := by
  unfold step deliver
  cases hw : (l.client.step a).wire with
  | none => rfl
  | some j =>
      have hne : i ≠ j := fun heq => hwire (by rw [hw, heq])
      exact Function.update_of_ne hne _ _

/-- A step that sends nothing and keeps the keys. -/
theorem Mirrored.current_of_sameQueries (h : l.Mirrored)
    (hsame : SameQueries l.client (l.client.step a)) (ha : ∀ i, a ≠ .socketOpen i)
    (hwire : (l.client.step a).wire = some i) (query : String) :
    query ∈ (l.step a).queries i ↔ query ∈ (l.client.step a).subscribedQueries.keys := by
  obtain ⟨es, hlog, hes⟩ := hsame.log
  rw [queries_step_wire hlog hwire, WsEvent.requests_eq_nil hes, hsame.queries]
  exact h.current i (wire_of_step ha hwire) query

/-- **A user subscribes** on the open current socket. -/
theorem Mirrored.current_subscribe (h : l.Mirrored) (query' : String)
    (hwire : (l.client.step (.subscribe query')).wire = some i) (query : String) :
    query ∈ (l.step (.subscribe query')).queries i ↔
      query ∈ (l.client.step (.subscribe query')).subscribedQueries.keys := by
  have hbefore := wire_of_step (fun _ heq => by cases heq) hwire
  have hstep : l.client.step (.subscribe query') =
      { l.client with
        log := l.client.log ++ [.sent (subscribeRequest query')] ++ [.subscribed query']
        subscribedQueries := l.client.subscribedQueries.set query'
          ((l.client.subscribedQueries.get? query').getD 0 + 1) } := by
    rw [WsClient.step, (canSend_of_wire hbefore).subscribe]
    rfl
  have hlog : (l.client.step (.subscribe query')).log =
      l.client.log ++ [.sent (subscribeRequest query'), .subscribed query'] := by
    rw [hstep, List.append_assoc]
    rfl
  rw [queries_step_wire hlog hwire, hstep, OrderedMap.mem_keys_set_iff, ← h.current i hbefore]
  exact Finset.mem_insert

/-- **A user releases** on the open current socket. -/
theorem Mirrored.current_unsubscribe (h : l.Mirrored) (query' : String)
    (hwire : (l.client.step (.unsubscribe query')).wire = some i) (query : String) :
    query ∈ (l.step (.unsubscribe query')).queries i ↔
      query ∈ (l.client.step (.unsubscribe query')).subscribedQueries.keys := by
  have hbefore := wire_of_step (fun _ heq => by cases heq) hwire
  have hkeys := h.current i hbefore query
  rcases unsubscribe_cases query' l.client with ⟨hcount, heq⟩ | ⟨-, ⟨e, heq⟩ | heq⟩
  · -- the count goes down: nothing is sent, and the query was a key
    have hstep : l.client.step (.unsubscribe query') =
        { l.client with
          log := l.client.log ++ [.unsubscribed query']
          subscribedQueries := l.client.subscribedQueries.set query'
            ((l.client.subscribedQueries.get? query').getD 0 - 1) } := by
      rw [WsClient.step, heq]
      rfl
    have hmem : query' ∈ l.client.subscribedQueries.keys := by
      refine OrderedMap.mem_keys_iff.mpr ?_
      by_contra hnone
      have hget : l.client.subscribedQueries.get? query' = none := by
        simpa [OrderedMap.has] using hnone
      rw [hget] at hcount
      simp at hcount
    have hlog : (l.client.step (.unsubscribe query')).log =
        l.client.log ++ [.unsubscribed query'] := congrArg WsClient.log hstep
    rw [queries_step_wire hlog hwire, hstep, OrderedMap.keys_set_of_mem hmem]
    exact hkeys
  · have hsame : SameQueries l.client (l.client.step (.unsubscribe query')) := by
      rw [WsClient.step, heq]
      exact .refl _
    exact h.current_of_sameQueries hsame (fun _ heq => by cases heq) hwire query
  · have hstep : l.client.step (.unsubscribe query') =
        { l.client with
          log := l.client.log ++ [.sent (unsubscribeRequest query')] ++ [.unsubscribed query']
          subscribedQueries := l.client.subscribedQueries.delete query' } := by
      rw [WsClient.step, heq]
      rfl
    have hlog : (l.client.step (.unsubscribe query')).log =
        l.client.log ++ [.sent (unsubscribeRequest query'), .unsubscribed query'] := by
      rw [hstep, List.append_assoc]
      rfl
    rw [queries_step_wire hlog hwire, hstep, OrderedMap.mem_keys_delete_iff, ← hkeys]
    exact Finset.mem_erase

/-- **A socket opens.**  The current socket, when it is open, is subscribed to all keys once more:
to those it had, or to all of them when it is the one that opens. -/
theorem Mirrored.current_socketOpen (h : l.Mirrored) {j : ℕ}
    (hwire : (l.client.step (.socketOpen j)).wire = some i) (query : String) :
    query ∈ (l.step (.socketOpen j)).queries i ↔
      query ∈ (l.client.step (.socketOpen j)).subscribedQueries.keys := by
  have hkeys : (l.client.step (.socketOpen j)).subscribedQueries.keys =
      l.client.subscribedQueries.keys := keys_step_of_isOfConnection trivial
  have hevent : l.client.step (.socketOpen j) =
      l.client.socketEvent j Socket.canOpen Socket.opened onOpenListener := rfl
  rcases socketEvent_cases j Socket.canOpen Socket.opened onOpenListener l.client with
    heq | ⟨socket, hj, hcan, -⟩
  · have hstep := hevent.trans heq
    have hlog : (l.client.step (.socketOpen j)).log = l.client.log ++ [] := by
      rw [hstep, List.append_nil]
    rw [queries_step_wire hlog hwire, hkeys]
    rw [hstep] at hwire
    exact h.current i hwire query
  · have hlistened := h.awaited j socket hj (of_decide_eq_true hcan)
    obtain ⟨hopened, es, hlog, hes⟩ := requests_socketOpen hj hcan hlistened hwire
    rw [queries_step_wire hlog hwire, hes, hkeys, mem_foldl_subscribeRequest]
    by_cases hij : i = j
    · -- the socket opens now, so it had nothing
      subst hij
      have hfresh : l.client.Fresh i := by
        intro socket' hi
        rw [Option.some.inj (hi.symm.trans hj)]
        exact of_decide_eq_true hcan
      simp [h.fresh i hfresh]
    · obtain ⟨hws, socket', hi, hopen⟩ := wire_eq_some_iff.mp hopened
      rcases setSocket_cases hi with ⟨heq, -⟩ | ⟨-, hi'⟩
      · exact absurd heq.symm hij
      · rw [h.current i (wire_eq_some_iff.mpr ⟨hws, socket', hi', hopen⟩), or_self]

/-- **Every step keeps the mirror.** -/
theorem Mirrored.step (h : l.Mirrored) (a : Action) : (l.step a).Mirrored where
  current := by
    intro i hwire query
    rw [client_step] at hwire ⊢
    cases a with
    | subscribe query' => exact h.current_subscribe query' hwire query
    | unsubscribe query' => exact h.current_unsubscribe query' hwire query
    | socketOpen j => exact h.current_socketOpen hwire query
    | connect maxRetries =>
        have hnone : (l.client.step (.connect maxRetries)).wire = none := wire_openSocket _
        rw [hnone] at hwire
        cases hwire
    | close =>
        have hnone : (l.client.step .close).wire = none := wire_close _
        rw [hnone] at hwire
        cases hwire
    | _ =>
        refine h.current_of_sameQueries (SameQueries.step ?_ fun i heq => by cases heq)
          (fun i heq => by cases heq) hwire query
        trivial
  fresh := by
    intro i hfresh
    rw [client_step] at hfresh
    rw [queries_step_of_ne hfresh.wire_ne]
    exact h.fresh i hfresh.of_step
  awaited := by
    rw [client_step]
    exact h.awaited.step a

/-! ## Every run -/

/-- Without a socket there is nothing to mirror. -/
theorem mirrored_new (options : WsOptions) : (Link.new options).Mirrored where
  current := fun _ hwire => by cases hwire
  fresh := fun _ _ => rfl
  awaited := fun _ _ hi => by cases hi

/-- **The node mirrors the client**, in every run. -/
theorem run_mirrored (options : WsOptions) (as : List Action) :
    (run (Link.new options) as).Mirrored :=
  Machine.run_invariant (fun _ a h => h.step a) (mirrored_new options) as

/-- **The node mirrors the client in every run**: whatever was lost, closed and reconnected before,
an open current socket is subscribed at the node to the keys of `subscribedQueries`, and to
nothing else. -/
theorem node_mirrors_queries (options : WsOptions) (as : List Action) (i : ℕ)
    (hwire : (WsClient.run (.new options) as).wire = some i) (query : String) :
    query ∈ (run (Link.new options) as).queries i ↔
      query ∈ (WsClient.run (.new options) as).subscribedQueries.keys := by
  have hclient : (run (Link.new options) as).client = WsClient.run (.new options) as :=
    client_run _ as
  have hcurrent := (run_mirrored options as).current i
  rw [hclient] at hcurrent
  exact hcurrent hwire query

/-- The query is on the second socket, after the first was lost. -/
theorem node_mirrors_queries_reopened :
    "q" ∈ (run (Link.new defaultOptions) (.connect none :: reopenedActions)).queries 1 ↔
      "q" ∈ (WsClient.run (.new defaultOptions)
        (.connect none :: reopenedActions)).subscribedQueries.keys :=
  node_mirrors_queries defaultOptions (.connect none :: reopenedActions) 1 rfl "q"

end Link

/-! ## The subscriptions of users -/

namespace WsClient

variable {s s' : WsClient} {a : Action} {query : String}

/-- Users neither connect nor close in between, and they release what is outstanding. -/
def Releasing (s : WsClient) : Action → Prop
  | .connect _ | .close => False
  | .unsubscribe query => 0 < s.outstanding query
  | .subscribe _ | .timer | .socketOpen _ | .socketError _ _ | .socketClose _ _
  | .socketMessage _ _ => True

instance decidableReleasing (s : WsClient) : (a : Action) → Decidable (s.Releasing a)
  | .connect _ | .close => .isFalse id
  | .unsubscribe query => inferInstanceAs (Decidable (0 < s.outstanding query))
  | .subscribe _ | .timer | .socketOpen _ | .socketError _ _ | .socketClose _ _
  | .socketMessage _ _ => .isTrue trivial

/-- **The counts cover the subscriptions** of users that are outstanding. -/
structure Covered (s : WsClient) : Prop where
  nonneg : ∀ query, 0 ≤ s.outstanding query
  count : ∀ query, s.outstanding query ≤ ((s.subscribedQueries.get? query).getD 0 : ℤ)

theorem SameQueries.covered (h : SameQueries s s') (hcovered : s.Covered) : s'.Covered where
  nonneg := fun query => by
    rw [h.outstanding_eq]
    exact hcovered.nonneg query
  count := fun query => by
    rw [h.outstanding_eq, h.queries]
    exact hcovered.count query

/-- Further events, further subscriptions. -/
theorem outstanding_append {es : List WsEvent} (hlog : s'.log = s.log ++ es) (query : String) :
    s'.outstanding query = s.outstanding query + (es.map (WsEvent.subscription query)).sum := by
  unfold outstanding
  rw [hlog, List.map_append, List.sum_append]

/-- **One query is written.**  Its count goes up by more than its subscriptions, or down by
less. -/
theorem Covered.write (h : s.Covered) (es : List WsEvent) (hlog : s'.log = s.log ++ es)
    (query : String) (hothers : ∀ query', query' ≠ query →
      (es.map (WsEvent.subscription query')).sum = 0 ∧
        s'.subscribedQueries.get? query' = s.subscribedQueries.get? query')
    (hnonneg : 0 ≤ s.outstanding query + (es.map (WsEvent.subscription query)).sum)
    (hcount : s.outstanding query + (es.map (WsEvent.subscription query)).sum ≤
      ((s'.subscribedQueries.get? query).getD 0 : ℤ)) : s'.Covered := by
  refine ⟨fun query' => ?_, fun query' => ?_⟩
  · rw [outstanding_append hlog]
    by_cases hq : query' = query
    · rw [hq]
      exact hnonneg
    · rw [(hothers query' hq).1, add_zero]
      exact h.nonneg query'
  · rw [outstanding_append hlog]
    by_cases hq : query' = query
    · rw [hq]
      exact hcount
    · rw [(hothers query' hq).1, (hothers query' hq).2, add_zero]
      exact h.count query'

/-- A subscription is covered by its count. -/
theorem Covered.subscribe (h : s.Covered) (query : String) :
    (s.step (.subscribe query)).Covered := by
  rw [WsClient.step]
  rcases subscribe_cases query s with ⟨e, heq⟩ | heq
  · rw [heq]
    exact h
  · rw [heq]
    have hnonneg := h.nonneg query
    have hcount := h.count query
    refine h.write [.sent (subscribeRequest query), .subscribed query]
      (by simp [WsClient.record]) query (fun query' hq => ⟨?_, ?_⟩) ?_ ?_
    · simp [WsEvent.subscription, Ne.symm hq]
    · exact OrderedMap.get?_set_of_ne _ hq _
    · simp [WsEvent.subscription]
      omega
    · show _ ≤ (((s.subscribedQueries.set query _).get? query).getD 0 : ℤ)
      rw [OrderedMap.get?_set_self]
      simp [WsEvent.subscription]
      omega

/-- A release lowers both; the query goes when its count is one, and so is the last one. -/
theorem Covered.unsubscribe (h : s.Covered) (hpos : 0 < s.outstanding query) :
    (s.step (.unsubscribe query)).Covered := by
  rw [WsClient.step]
  have hcount := h.count query
  rcases unsubscribe_cases query s with ⟨hmore, heq⟩ | ⟨hlast, ⟨e, heq⟩ | heq⟩
  · rw [heq]
    refine h.write [.unsubscribed query] rfl query (fun query' hq => ⟨?_, ?_⟩) ?_ ?_
    · simp [WsEvent.subscription, Ne.symm hq]
    · exact OrderedMap.get?_set_of_ne _ hq _
    · simp [WsEvent.subscription]
      omega
    · show _ ≤ (((s.subscribedQueries.set query _).get? query).getD 0 : ℤ)
      rw [OrderedMap.get?_set_self]
      simp [WsEvent.subscription]
      omega
  · rw [heq]
    exact h
  · rw [heq]
    refine h.write [.sent (unsubscribeRequest query), .unsubscribed query]
      (by simp [WsClient.record]) query (fun query' hq => ⟨?_, ?_⟩) ?_ ?_
    · simp [WsEvent.subscription, Ne.symm hq]
    · exact OrderedMap.get?_delete_of_ne _ hq
    · simp [WsEvent.subscription]
      omega
    · show _ ≤ (((s.subscribedQueries.delete query).get? query).getD 0 : ℤ)
      rw [OrderedMap.get?_delete_self]
      simp [WsEvent.subscription]
      omega

/-- **What happens to the connection** only raises counts. -/
theorem Covered.step_of_isOfConnection (h : s.Covered) (ha : a.IsOfConnection) :
    (s.step a).Covered := by
  have hkeeps : Keeps a Covered := by
    intro s₁ s₂ h hchange
    rcases hchange.cases_of_isOfConnection ha with hsame | ⟨i, query, -, -, rfl⟩
    · exact hsame.covered h
    · have hnonneg := h.nonneg query
      have hcount := h.count query
      refine h.write [.sent (subscribeRequest query)] rfl query
        (fun query' hq => ⟨rfl, OrderedMap.get?_set_of_ne _ hq _⟩) ?_ ?_
      · simpa [WsEvent.subscription] using hnonneg
      · show _ ≤ (((s₁.subscribedQueries.set query _).get? query).getD 0 : ℤ)
        rw [OrderedMap.get?_set_self]
        simp [WsEvent.subscription]
        omega
  exact hkeeps.step h

/-- **Every step keeps the subscriptions covered** that releases no more than there are. -/
theorem Covered.step (h : s.Covered) (hok : s.Releasing a) : (s.step a).Covered := by
  cases a with
  | connect maxRetries => exact hok.elim
  | close => exact hok.elim
  | subscribe query => exact h.subscribe query
  | unsubscribe query => exact h.unsubscribe hok
  | _ => exact h.step_of_isOfConnection trivial

/-- A new connection has no subscriptions. -/
theorem covered_connect (options : WsOptions) (maxRetries : Option ℤ) :
    ((WsClient.new options).connect maxRetries).Covered where
  nonneg := fun _ => le_rfl
  count := fun _ => le_rfl

/-- A query with subscriptions of users is a key. -/
theorem Covered.mem_keys (h : s.Covered) (hpos : 0 < s.outstanding query) :
    query ∈ s.subscribedQueries.keys := by
  have hcount := h.count query
  refine OrderedMap.mem_keys_iff.mpr ?_
  rw [OrderedMap.has]
  cases hget : s.subscribedQueries.get? query with
  | some count => rfl
  | none =>
      rw [hget] at hcount
      simp at hcount
      omega

/-- **Nobody loses a subscription.**  In every run after `connect()` in which users release only
what is outstanding, a query with an outstanding subscription is still a key, and the node has it
on the current socket whenever that is open: after releases by other users of the same query,
after losses, failed attempts and reconnects. -/
theorem subscriptions_kept (options : WsOptions) (maxRetries : Option ℤ) (as : List Action)
    (has : Machine.Admissible step Releasing ((WsClient.new options).connect maxRetries) as)
    (query : String)
    (hpos : 0 < (run ((WsClient.new options).connect maxRetries) as).outstanding query) :
    query ∈ (run ((WsClient.new options).connect maxRetries) as).subscribedQueries.keys ∧
      ∀ i, (run ((WsClient.new options).connect maxRetries) as).wire = some i →
        query ∈ (Link.run (.new options) (.connect maxRetries :: as)).queries i := by
  have hcovered : (run ((WsClient.new options).connect maxRetries) as).Covered :=
    has.invariant (fun _ _ h hok => h.step hok) (covered_connect options maxRetries)
  have hmem := hcovered.mem_keys hpos
  exact ⟨hmem, fun i hwire =>
    (Link.node_mirrors_queries options (.connect maxRetries :: as) i hwire query).mpr hmem⟩

/-- One of two subscriptions is released, while the connection is lost and comes back. -/
def releasingActions : List Action :=
  [.socketOpen 0, .subscribe "q", .subscribe "q", .socketClose 0 1006, .unsubscribe "q", .timer,
    .socketOpen 1]

/-- The subscription outlives the loss of the socket. -/
theorem subscriptions_kept_reconnect :
    "q" ∈ (run ((WsClient.new defaultOptions).connect none)
        releasingActions).subscribedQueries.keys ∧
      ∀ i, (run ((WsClient.new defaultOptions).connect none) releasingActions).wire = some i →
        "q" ∈ (Link.run (.new defaultOptions) (.connect none :: releasingActions)).queries i :=
  subscriptions_kept defaultOptions none releasingActions (by decide) "q" (by decide)

end WsClient

/-! ## The listener for the blockchain -/

namespace BlockchainListener

/-- The query for transactions. -/
def TX_QUERY : String := "tm.event = 'Tx'"

/-- The query for blocks. -/
def NEW_BLOCK_QUERY : String := "tm.event = 'NewBlock'"

/-- What `start` does to the client; the listeners that it attaches there act later. -/
def start (s : WsClient) : Except WsException Unit × WsClient :=
  match s.subscribe TX_QUERY with
  | (.error e, s) => (.error e, s)
  | (.ok (), s) => s.subscribe NEW_BLOCK_QUERY

/-- `start`, as actions of a user of the client. -/
def startActions : List Action := [.subscribe TX_QUERY, .subscribe NEW_BLOCK_QUERY]

variable {s : WsClient}

/-- A start that returns has added its two queries. -/
theorem keys_run_startActions (hempty : s.subscribedQueries.keys = [])
    (hstart : (start s).1 = .ok ()) :
    (WsClient.run s startActions).subscribedQueries.keys = [TX_QUERY, NEW_BLOCK_QUERY] := by
  have hsend : s.CanSend := by
    by_contra hnot
    obtain ⟨e, heq⟩ := send_of_not_canSend hnot (subscribeRequest TX_QUERY)
    rw [start, WsClient.subscribe, heq] at hstart
    cases hstart
  have hfirst : WsClient.step s (.subscribe TX_QUERY) =
      { s with
        log := s.log ++ [.sent (subscribeRequest TX_QUERY)] ++ [.subscribed TX_QUERY]
        subscribedQueries := s.subscribedQueries.set TX_QUERY
          ((s.subscribedQueries.get? TX_QUERY).getD 0 + 1) } := by
    rw [WsClient.step, hsend.subscribe]
    rfl
  -- the socket is as before, so the second request is sent as well
  have hsend' : (WsClient.step s (.subscribe TX_QUERY)).CanSend := by
    rw [hfirst]
    exact hsend
  have hentries : s.subscribedQueries.entries = [] := List.map_eq_nil_iff.mp hempty
  show ((s.step (.subscribe TX_QUERY)).step (.subscribe NEW_BLOCK_QUERY)).subscribedQueries.keys = _
  rw [WsClient.step, hsend'.subscribe, hfirst]
  simp [WsClient.record, OrderedMap.set, OrderedMap.setEntries, OrderedMap.keys, hentries, TX_QUERY,
    NEW_BLOCK_QUERY]

/-- **The listener stays subscribed.**  After `connect()`, and once `start` has returned, an open
current socket has the two queries of the listener at the node, and no others, whatever happens to
the connection. -/
theorem listener_stays_subscribed (options : WsOptions) (maxRetries : Option ℤ)
    (as bs : List Action) (has : ∀ a ∈ as, a.IsOfConnection) (hbs : ∀ b ∈ bs, b.IsOfConnection)
    (hstart : (start (WsClient.run ((WsClient.new options).connect maxRetries) as)).1 = .ok ())
    (i : ℕ) (hwire : (WsClient.run ((WsClient.new options).connect maxRetries)
      (as ++ startActions ++ bs)).wire = some i) :
    (Link.run (.new options) (.connect maxRetries :: (as ++ startActions ++ bs))).queries i =
      {TX_QUERY, NEW_BLOCK_QUERY} := by
  have hempty : (WsClient.run ((WsClient.new options).connect maxRetries)
      as).subscribedQueries.keys = [] := keys_run_of_isOfConnection has
  have hkeys : (WsClient.run ((WsClient.new options).connect maxRetries)
      (as ++ startActions ++ bs)).subscribedQueries.keys = [TX_QUERY, NEW_BLOCK_QUERY] := by
    rw [WsClient.run, Machine.run_append, Machine.run_append]
    exact (keys_run_of_isOfConnection hbs).trans (keys_run_startActions hempty hstart)
  ext query
  have hmirror := Link.node_mirrors_queries options
    (.connect maxRetries :: (as ++ startActions ++ bs)) i hwire query
  refine hmirror.trans ?_
  show query ∈ (WsClient.run ((WsClient.new options).connect maxRetries)
      (as ++ startActions ++ bs)).subscribedQueries.keys ↔ _
  rw [hkeys]
  simp

/-- The connection is lost after the start, an attempt fails, and the next one opens. -/
theorem listener_stays_subscribed_reconnect :
    (Link.run (.new defaultOptions) (.connect none :: ([.socketOpen 0] ++ startActions ++
      [.socketClose 0 1006, .timer, .socketError 1 .ECONNREFUSED, .timer,
        .socketOpen 2]))).queries 2 = {TX_QUERY, NEW_BLOCK_QUERY} :=
  listener_stays_subscribed defaultOptions none [.socketOpen 0]
    [.socketClose 0 1006, .timer, .socketError 1 .ECONNREFUSED, .timer, .socketOpen 2]
    (by simp [Action.IsOfConnection]) (by simp [Action.IsOfConnection]) rfl 2 rfl

end BlockchainListener

end Dapi
