/-
# The re-subscription

`src/lib/externalApis/tenderdash/WsClient.js`: when a socket opens, `onOpenListener` calls
`subscribe` for every key of `subscribedQueries`.  The iterator over the keys is live, and
`subscribe` writes to the map.

* `Resubscribed`: the loop is over after one round for each key and one for the end, it
  sends one request for each key, and it leaves the keys as they were.
* `Awaited`: a socket that is connecting has its listeners, so that its `open` is heard.
* `resubscription_complete`: in every run, every `open` of the current socket does this;
  and no query is dropped but by a user.
-/
import Dapi.QueryCounts

namespace Dapi

/-- The user may drop the query with this call. -/
def WsClient.Action.MayDrop (query : String) : WsClient.Action → Prop
  | .connect _ | .close => True
  | .unsubscribe query' => query' = query
  | _ => False

/-- A socket that is connecting has its listeners. -/
def Socket.IsAwaited (socket : Socket) : Prop :=
  socket.readyState = .CONNECTING → socket.isListened = true

theorem Socket.isAwaited_terminate (socket : Socket) : socket.terminate.IsAwaited := by
  obtain ⟨readyState, isListened⟩ := socket
  cases readyState <;> simp [Socket.IsAwaited, Socket.terminate]

theorem Socket.isAwaited_closed (socket : Socket) : socket.closed.IsAwaited := by
  obtain ⟨readyState, isListened⟩ := socket
  cases readyState <;> simp [Socket.IsAwaited, Socket.closed]

namespace WsClient

variable {s s' : WsClient} {i : ℕ} {socket : Socket} {query : String} {a : Action}

/-- The state in which the loop starts: the client is connected, and the event was emitted. -/
def connected (s : WsClient) : WsClient := emit (.connect s.url) { s with isConnected := true }

/-- **The re-subscription is complete**, from the state `s` before the `open` of the socket to the
state `s'` after it. -/
structure Resubscribed (i : ℕ) (socket : Socket) (s s' : WsClient) : Prop where
  terminates : ∀ rounds, s.subscribedQueries.keys.length < rounds →
    OrderedMap.forKeys subscribedQueries subscribe rounds 0
      (s.setSocket i socket.opened).connected = some (.ok (), s')
  requests : ∀ request, s'.log.count (.sent request) = s.log.count (.sent request) +
    if request ∈ s.subscribedQueries.keys.map subscribeRequest then 1 else 0
  keys : s'.subscribedQueries.keys = s.subscribedQueries.keys

/-! ## The loop -/

/-- The current socket takes what is sent. -/
def CanSend (s : WsClient) : Prop :=
  ∃ i, s.ws = some i ∧ ∀ socket, s.sockets[i]? = some socket → socket.readyState ≠ .CONNECTING

/-- What can be sent is sent. -/
theorem CanSend.send (h : s.CanSend) (request : WsRequest) :
    s.send request = (.ok (), s.record (.sent request)) := by
  obtain ⟨i, hws, hready⟩ := h
  unfold WsClient.send
  rw [hws]
  refine if_neg fun hconnecting => ?_
  obtain ⟨socket, hi, hstate⟩ := (Option.any_eq_true _ _).mp hconnecting
  exact hready socket hi (of_decide_eq_true hstate)

/-- A query that can be sent is counted. -/
theorem CanSend.subscribe (h : s.CanSend) (query : String) :
    s.subscribe query = (.ok (),
      { s with
        log := s.log ++ [.sent (subscribeRequest query)]
        subscribedQueries := s.subscribedQueries.set query
          ((s.subscribedQueries.get? query).getD 0 + 1) }) := by
  unfold WsClient.subscribe
  rw [h.send]
  rfl

/-- **The loop**, over queries that are keys: each of them is sent, and the keys stay. -/
theorem CanSend.forEach_subscribe (h : s.CanSend) {queries : List String}
    (hmem : ∀ query ∈ queries, query ∈ s.subscribedQueries.keys) :
    ∃ counts, counts.keys = s.subscribedQueries.keys ∧
      forEach WsClient.subscribe queries s = (.ok (),
        { s with
          log := s.log ++ queries.map (fun query => .sent (subscribeRequest query))
          subscribedQueries := counts }) := by
  induction queries generalizing s with
  | nil => exact ⟨s.subscribedQueries, rfl, by simp [forEach]⟩
  | cons query queries ih =>
      have hquery := hmem query List.mem_cons_self
      have hset := OrderedMap.keys_set_of_mem hquery
        ((s.subscribedQueries.get? query).getD 0 + 1)
      -- the socket and the keys are as before, so the rest goes on from the next state
      have hnext : CanSend
          { s with
            log := s.log ++ [.sent (subscribeRequest query)]
            subscribedQueries := s.subscribedQueries.set query
              ((s.subscribedQueries.get? query).getD 0 + 1) } := h
      obtain ⟨counts, hkeys, heq⟩ := ih hnext fun query' hq => by
        rw [hset]
        exact hmem query' (List.mem_cons_of_mem query hq)
      refine ⟨counts, hkeys.trans hset, ?_⟩
      rw [forEach_cons_ok (h.subscribe query), heq, List.map_cons, List.append_assoc]
      rfl

/-- Different queries have different requests. -/
theorem subscribeRequest_injective : Function.Injective subscribeRequest :=
  fun _ _ h => congrArg WsRequest.query h

/-- Each key has its request once. -/
theorem count_requests (queries : OrderedMap String ℕ) (request : WsRequest) :
    (queries.keys.map fun query => WsEvent.sent (subscribeRequest query)).count (.sent request) =
      if request ∈ queries.keys.map subscribeRequest then 1 else 0 := by
  have hinj : Function.Injective WsEvent.sent := fun _ _ h => WsEvent.sent.inj h
  have hmap : (queries.keys.map fun query => WsEvent.sent (subscribeRequest query)) =
      (queries.keys.map subscribeRequest).map WsEvent.sent := by
    rw [List.map_map]
    rfl
  rw [hmap, List.count_map_of_injective _ _ hinj]
  exact (queries.nodup.map subscribeRequest_injective).count

/-- **An `open` of the current socket**, when it is heard. -/
theorem resubscribed_of_isListened (hws : s.ws = some i) (hi : s.sockets[i]? = some socket)
    (hcan : socket.canOpen = true) (hlistened : socket.isListened = true) :
    Resubscribed i socket s (s.step (.socketOpen i)) := by
  have hopen : (s.setSocket i socket.opened).connected.CanSend := by
    refine ⟨i, hws, fun socket' hi' => ?_⟩
    rcases setSocket_cases hi' with ⟨-, rfl⟩ | ⟨hne, -⟩
    · simp [Socket.opened]
    · exact absurd rfl hne
  obtain ⟨counts, hkeys, hloop⟩ := hopen.forEach_subscribe fun _ hmem => hmem
  have hstep : s.step (.socketOpen i) =
      { (s.setSocket i socket.opened).connected with
        log := s.log ++ [.emitted (.connect s.url)] ++
          s.subscribedQueries.keys.map fun query => .sent (subscribeRequest query)
        subscribedQueries := counts } := by
    have hlistener : (s.setSocket i socket.opened).onOpenListener = _ :=
      (resubscribe_eq _).trans hloop
    rw [step, socketEvent_eq hi hcan, hear, hlistened, hlistener]
    rfl
  refine ⟨fun rounds hrounds => ?_, fun request => ?_, ?_⟩
  · have hend := forKeys_subscribe (s := (s.setSocket i socket.opened).connected) hrounds
    rw [hend, hloop, hstep]
    rfl
  · rw [hstep, ← count_requests, List.count_append, List.count_append]
    rfl
  · rw [hstep]
    exact hkeys

/-! ## The listeners of a connecting socket -/

/-- Every socket that is connecting has its listeners. -/
def Awaited (s : WsClient) : Prop :=
  ∀ (i : ℕ) (socket : Socket), s.sockets[i]? = some socket → socket.IsAwaited

/-- A socket that is left connects no more. -/
theorem Awaited.leaveSocket (h : s.Awaited) (j : ℕ) : (s.leaveSocket j).Awaited := by
  intro i socket hi
  rcases leaveSocket_cases hi with ⟨-, socket', rfl⟩ | ⟨-, hi'⟩
  · exact socket'.isAwaited_terminate
  · exact h i socket hi'

/-- A socket may change to one that is not connecting, or has its listeners. -/
theorem Awaited.setSocket (h : s.Awaited) (hsocket : socket.IsAwaited) (j : ℕ) :
    (s.setSocket j socket).Awaited := by
  intro i socket' hi
  rcases setSocket_cases hi with ⟨-, rfl⟩ | ⟨-, hi'⟩
  · exact hsocket
  · exact h i socket' hi'

theorem Awaited.append_new (h : s.Awaited) (ws : Option ℕ) :
    Awaited { s with ws := ws, sockets := s.sockets ++ [.new] } := by
  intro i socket hi
  rcases List.mem_append.mp (List.mem_of_getElem? hi) with hmem | hmem
  · obtain ⟨j, hj⟩ := List.mem_iff_getElem?.mp hmem
    exact h j socket hj
  · rw [List.mem_singleton.mp hmem]
    exact fun _ => rfl

/-- An event of a socket takes no listeners away. -/
theorem Action.Moves.isAwaited {socket' : Socket} (h : a.Moves i socket socket')
    (hsocket : socket.IsAwaited) : socket'.IsAwaited := by
  cases a with
  | socketOpen i' =>
      obtain ⟨-, -, rfl⟩ := h
      intro hconnecting
      cases hconnecting
  | socketError i' code =>
      obtain ⟨-, -, rfl⟩ := h
      intro hconnecting
      cases hconnecting
  | socketClose i' code =>
      obtain ⟨-, -, rfl⟩ := h
      exact socket.isAwaited_closed
  | socketMessage i' message =>
      obtain ⟨-, -, rfl⟩ := h
      exact hsocket
  | _ => exact h.elim

/-- **Every step keeps the listeners of connecting sockets.** -/
theorem Awaited.step (h : s.Awaited) (a : Action) : (s.step a).Awaited := by
  have hkeeps : Keeps a Awaited := by
    intro s₁ s₂ h hchange
    cases hchange with
    | left j => exact h.leaveSocket j
    | made => exact h.append_new _
    | moved j socket socket' ha hj => exact h.setSocket (ha.isAwaited (h j socket hj)) j
    | _ => exact h
  exact hkeeps.step h

/-- **Every connecting socket has its listeners**, in every run. -/
theorem run_awaited (options : WsOptions) (as : List Action) : (run (new options) as).Awaited :=
  Machine.run_invariant (fun _ a h => h.step a) (fun _ _ hi => by cases hi) as

/-! ## The keys -/

/-- **What happens to the connection keeps the keys.** -/
theorem keys_step_of_isOfConnection (ha : a.IsOfConnection) :
    (s.step a).subscribedQueries.keys = s.subscribedQueries.keys := by
  have hkeeps : Keeps a fun s' => s'.subscribedQueries.keys = s.subscribedQueries.keys := by
    intro s₁ s₂ h hchange
    rcases hchange.cases_of_isOfConnection ha with hsame | ⟨i, query, hmem, -, rfl⟩
    · rw [hsame.queries]
      exact h
    · exact (OrderedMap.keys_set_of_mem hmem _).trans h
  exact hkeeps.step rfl

/-- **A query stays** until a user may drop it. -/
theorem mem_keys_step (hmem : query ∈ s.subscribedQueries.keys) (ha : ¬ a.MayDrop query) :
    query ∈ (s.step a).subscribedQueries.keys := by
  have hkeeps : Keeps a fun s' => query ∈ s'.subscribedQueries.keys := by
    intro s₁ s₂ h hchange
    cases hchange with
    | reset _ _ heq =>
        obtain ⟨n, rfl⟩ := heq
        exact absurd trivial ha
    | released heq =>
        subst heq
        exact absurd trivial ha
    | requested query' => exact OrderedMap.mem_keys_set_iff.mpr (Or.inr h)
    | lowered query' => exact OrderedMap.mem_keys_set_iff.mpr (Or.inr h)
    | dropped query' heq =>
        -- it is another query whose last subscription was released
        subst heq
        exact OrderedMap.mem_keys_delete_iff.mpr ⟨fun heq => ha heq.symm, h⟩
    | _ => exact h
  exact hkeeps.step hmem

/-- What happens to the connection leaves the queries. -/
theorem keys_run_of_isOfConnection {bs : List Action} (hbs : ∀ b ∈ bs, b.IsOfConnection) :
    (run s bs).subscribedQueries.keys = s.subscribedQueries.keys := by
  induction bs generalizing s with
  | nil => rfl
  | cons b bs ih =>
      have hrest : ∀ b' ∈ bs, b'.IsOfConnection :=
        fun b' hb' => hbs b' (List.mem_cons_of_mem b hb')
      exact (ih hrest).trans (keys_step_of_isOfConnection (hbs b List.mem_cons_self))

/-- A query stays until a step may drop it. -/
theorem mem_keys_run (hmem : query ∈ s.subscribedQueries.keys) {bs : List Action}
    (hbs : ∀ b ∈ bs, ¬ b.MayDrop query) : query ∈ (run s bs).subscribedQueries.keys := by
  induction bs generalizing s with
  | nil => exact hmem
  | cons b bs ih =>
      have hnext := mem_keys_step hmem (hbs b List.mem_cons_self)
      exact ih hnext fun b' hb' => hbs b' (List.mem_cons_of_mem b hb')

/-! ## Every run -/

/-- **The re-subscription is complete and terminates.**  In every run, every `open` of the current
socket goes once over the keys that are there before it and is over; it sends one `subscribe`
request for each of them and no other request, and leaves the keys as they were.  Whatever
happens to the connection leaves the keys as they were, and a query stays one of them, through
losses and reconnects, until a user calls `connect`, `close`, or `unsubscribe` for it. -/
theorem resubscription_complete (options : WsOptions) (as : List Action) :
    (∀ i socket, (run (new options) as).ws = some i →
        (run (new options) as).sockets[i]? = some socket → socket.canOpen = true →
          Resubscribed i socket (run (new options) as)
            ((run (new options) as).step (.socketOpen i))) ∧
      (∀ bs : List Action, (∀ b ∈ bs, b.IsOfConnection) →
        (run (new options) (as ++ bs)).subscribedQueries.keys =
          (run (new options) as).subscribedQueries.keys) ∧
      ∀ query ∈ (run (new options) as).subscribedQueries.keys,
        ∀ bs : List Action, (∀ b ∈ bs, ¬ b.MayDrop query) →
          query ∈ (run (new options) (as ++ bs)).subscribedQueries.keys := by
  refine ⟨fun i socket hws hi hcan => ?_, fun bs hbs => ?_, fun query hmem bs hbs => ?_⟩
  · -- a socket that may open is connecting, so its listeners are there
    have hconnecting : socket.readyState = .CONNECTING := of_decide_eq_true hcan
    have hlistened := run_awaited options as i socket hi hconnecting
    exact resubscribed_of_isListened hws hi hcan hlistened
  · rw [run, Machine.run_append]
    exact keys_run_of_isOfConnection hbs
  · rw [run, Machine.run_append]
    exact mem_keys_run hmem hbs

/-- Two queries are subscribed, the connection is lost, an attempt fails, and a socket is made. -/
def lostActions : List Action :=
  [.connect none, .socketOpen 0, .subscribe "p", .subscribe "q", .socketClose 0 1006, .timer,
    .socketError 1 .ECONNREFUSED, .timer]

/-- The socket that opens then has both queries again. -/
theorem resubscription_complete_lost :
    Resubscribed 2 .new (run (new ⟨none, none, none, none⟩) lostActions)
        ((run (new ⟨none, none, none, none⟩) lostActions).step (.socketOpen 2)) ∧
      (run (new ⟨none, none, none, none⟩) lostActions).subscribedQueries.keys = ["p", "q"] :=
  ⟨(resubscription_complete ⟨none, none, none, none⟩ lostActions).1 2 .new rfl rfl rfl, rfl⟩

end WsClient

end Dapi
