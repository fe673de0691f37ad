/-
# The counts of subscribed queries

`WsClient.subscribedQueries` counts how often a query is subscribed; the last release
of a query unsubscribes from it.  The loop at the `open` event subscribes to every
query again, by the same method that users call.

* `outstanding`: the subscriptions of users that are not released.
* `SameQueries`: what is not about queries leaves the counts alone.
* `queries_counted`: the counts are the outstanding subscriptions, as long as no
  socket opens while a query is subscribed.
* `not_queries_counted_reopened`: a reconnect counts a query once more, so that its
  last release is not noticed.
-/
import Dapi.ClientSteps

namespace Dapi

namespace WsEvent

/-- What the event adds to the subscriptions of a query. -/
def subscription (query : String) : WsEvent → ℤ
  | .subscribed query' => if query' = query then 1 else 0
  | .unsubscribed query' => if query' = query then -1 else 0
  | _ => 0

/-- The event is a call of a user, or a request. -/
def IsOfQuery : WsEvent → Prop
  | .sent _ | .subscribed _ | .unsubscribed _ => True
  | _ => False

theorem subscription_eq_zero {e : WsEvent} (h : ¬ e.IsOfQuery) (query : String) :
    e.subscription query = 0 := by
  cases e with
  | subscribed query' => exact absurd trivial h
  | unsubscribed query' => exact absurd trivial h
  | _ => rfl

end WsEvent

namespace WsClient

open Trace

variable {s s' s'' : WsClient} {query query' : String}

/-- The subscriptions of users that are not released. -/
def outstanding (query : String) (s : WsClient) : ℤ := (s.log.map (WsEvent.subscription query)).sum

/-- How many `unsubscribe` requests were sent for a query. -/
def unsubscribeRequests (query : String) (s : WsClient) : ℕ :=
  s.log.count (.sent (unsubscribeRequest query))

/-- **The counts are right**, and the keys are the queries with subscriptions. -/
structure Counted (s : WsClient) : Prop where
  count : ∀ query, ((s.subscribedQueries.get? query).getD 0 : ℤ) = s.outstanding query
  key : ∀ query, s.subscribedQueries.has query = true ↔ 0 < s.outstanding query

/-- A request is sent exactly when the last outstanding subscription of the query is released. -/
def Releases (query : String) (s s' : WsClient) : Prop :=
  s'.unsubscribeRequests query = s.unsubscribeRequests query +
    if 0 < s.outstanding query ∧ s'.outstanding query = 0 then 1 else 0

/-- The steps that count: no socket that the client listens to opens while a query is subscribed,
and what is released is outstanding.  Neither `connect` nor `close` is part of such a run. -/
def Countable (s : WsClient) : Action → Prop
  | .connect _ | .close => False
  | .socketOpen i =>
    (∃ socket ∈ s.sockets[i]?, socket.isListened = true ∧ socket.canOpen = true) →
      s.subscribedQueries.keys = []
  | .unsubscribe query => 0 < s.outstanding query
  | .subscribe _ | .timer | .socketError _ _ | .socketClose _ _ | .socketMessage _ _ => True

instance decidableCountable (s : WsClient) : (a : Action) → Decidable (s.Countable a)
  | .connect _ | .close => .isFalse id
  | .socketOpen i =>
    inferInstanceAs (Decidable ((∃ socket ∈ s.sockets[i]?,
      socket.isListened = true ∧ socket.canOpen = true) → s.subscribedQueries.keys = []))
  | .unsubscribe query => inferInstanceAs (Decidable (0 < s.outstanding query))
  | .subscribe _ | .timer | .socketError _ _ | .socketClose _ _ | .socketMessage _ _ =>
    .isTrue trivial

/-! ## What is not about queries -/

/-- The state changes, but nothing that is about queries. -/
structure SameQueries (s s' : WsClient) : Prop where
  queries : s'.subscribedQueries = s.subscribedQueries
  log : GoesOn (fun e => ¬ e.IsOfQuery) s.log s'.log

namespace SameQueries

theorem of_log (hqueries : s'.subscribedQueries = s.subscribedQueries) (hlog : s'.log = s.log) :
    SameQueries s s' :=
  ⟨hqueries, .of_eq hlog⟩

theorem refl (s : WsClient) : SameQueries s s := of_log rfl rfl

theorem trans (h : SameQueries s s') (h' : SameQueries s' s'') : SameQueries s s'' :=
  ⟨h'.queries.trans h.queries, h.log.trans h'.log⟩

theorem record (s : WsClient) {e : WsEvent} (he : ¬ e.IsOfQuery) : SameQueries s (s.record e) :=
  ⟨rfl, .snoc he⟩

theorem emit (s : WsClient) (event : ClientEvent) : SameQueries s (s.emit event) :=
  ⟨rfl, GoesOn.snoc (e := WsEvent.emitted event) id⟩

end SameQueries

/-! ## One step -/

/-- The open subscriptions stay. -/
theorem SameQueries.outstanding_eq (h : SameQueries s s') (query : String) :
    s'.outstanding query = s.outstanding query :=
  h.log.sum_map_eq fun _ he => WsEvent.subscription_eq_zero he query

theorem SameQueries.unsubscribeRequests_eq (h : SameQueries s s') (query : String) :
    s'.unsubscribeRequests query = s.unsubscribeRequests query :=
  h.log.count_eq fun hnot => hnot trivial

/-- **What is not about queries** keeps the counts and sends nothing. -/
theorem SameQueries.counted (h : SameQueries s s') (hcounted : Counted s) :
    Counted s' ∧ ∀ query, Releases query s s' := by
  refine ⟨⟨fun query => ?_, fun query => ?_⟩, fun query => ?_⟩
  · rw [h.queries, h.outstanding_eq]
    exact hcounted.count query
  · rw [h.queries, h.outstanding_eq]
    exact hcounted.key query
  · unfold Releases
    rw [h.unsubscribeRequests_eq, h.outstanding_eq, if_neg (by omega), add_zero]

/-- The count of a query that has subscriptions. -/
theorem Counted.outstanding_nonneg (h : Counted s) (query : String) : 0 ≤ s.outstanding query := by
  rw [← h.count query]
  exact Int.natCast_nonneg _

/-- **The count of one query is written.**  It follows the log. -/
theorem Counted.write (h : Counted s) (query : String) (es : List WsEvent)
    (hothers : ∀ query', query' ≠ query →
      (es.map (WsEvent.subscription query')).sum = 0 ∧
        .sent (unsubscribeRequest query') ∉ es)
    (hrequests : es.count (.sent (unsubscribeRequest query)) =
      if 0 < s.outstanding query ∧
        s.outstanding query + (es.map (WsEvent.subscription query)).sum = 0 then 1 else 0)
    {queries : OrderedMap String ℕ}
    (hget : ∀ query', query' ≠ query → queries.get? query' = s.subscribedQueries.get? query')
    (hcount : ((queries.get? query).getD 0 : ℤ) =
      s.outstanding query + (es.map (WsEvent.subscription query)).sum)
    (hkey : queries.has query = true ↔
      0 < s.outstanding query + (es.map (WsEvent.subscription query)).sum)
    (hlog : s'.log = s.log ++ es) (hqueries : s'.subscribedQueries = queries) :
    Counted s' ∧ ∀ query, Releases query s s' := by
  -- the log grows by `es`, and the sums and counts with it
  have hsum : ∀ query', s'.outstanding query' =
      s.outstanding query' + (es.map (WsEvent.subscription query')).sum := by
    intro query'
    unfold outstanding
    rw [hlog, List.map_append, List.sum_append]
  have hrequest : ∀ query', s'.unsubscribeRequests query' =
      s.unsubscribeRequests query' + es.count (.sent (unsubscribeRequest query')) := by
    intro query'
    unfold unsubscribeRequests
    rw [hlog, List.count_append]
  refine ⟨⟨fun query' => ?_, fun query' => ?_⟩, fun query' => ?_⟩
  · rw [hqueries, hsum query']
    by_cases hq : query' = query
    · rw [hq]
      exact hcount
    · rw [hget query' hq, (hothers query' hq).1, add_zero]
      exact h.count query'
  · rw [hqueries, hsum query']
    by_cases hq : query' = query
    · rw [hq]
      exact hkey
    · rw [OrderedMap.has, hget query' hq, (hothers query' hq).1, add_zero]
      exact h.key query'
  · unfold Releases
    rw [hrequest query', hsum query']
    by_cases hq : query' = query
    · rw [hq, hrequests]
    · rw [(hothers query' hq).1, List.count_eq_zero.mpr (hothers query' hq).2, add_zero, add_zero,
        if_neg (by omega), add_zero]

/-- A request tells its query. -/
theorem unsubscribeRequest_inj (h : unsubscribeRequest query = unsubscribeRequest query') :
    query = query' :=
  congrArg WsRequest.query h

/-- The two requests differ. -/
theorem subscribeRequest_ne (query query' : String) :
    subscribeRequest query ≠ unsubscribeRequest query' := by
  intro h
  have hmethod : "subscribe" = "unsubscribe" := congrArg WsRequest.method h
  revert hmethod
  decide

/-- **A user subscribes.** -/
theorem Counted.subscribe (h : Counted s) (query : String) :
    Counted (s.step (.subscribe query)) ∧
      ∀ query', Releases query' s (s.step (.subscribe query)) := by
  rw [step]
  rcases subscribe_cases query s with ⟨e, heq⟩ | heq
  · rw [heq]
    exact (SameQueries.refl s).counted h
  · rw [heq]
    have hnonneg := h.outstanding_nonneg query
    have hcount := h.count query
    refine h.write query [.sent (subscribeRequest query), .subscribed query]
      ?_ ?_ (fun query' hq => OrderedMap.get?_set_of_ne _ hq _) ?_ ?_ ?_ rfl
    · intro query' hq
      constructor
      · simp [WsEvent.subscription, Ne.symm hq]
      · simp [Ne.symm (subscribeRequest_ne query query')]
    · -- a subscription sends no request to unsubscribe
      rw [if_neg (by simp [WsEvent.subscription]; omega)]
      simp [subscribeRequest_ne]
    · rw [OrderedMap.get?_set_self]
      simp [WsEvent.subscription, ← hcount]
    · simp [OrderedMap.has, WsEvent.subscription]
      omega
    · simp [WsClient.record]

/-- **A user releases** a subscription that is outstanding. -/
theorem Counted.unsubscribe (h : Counted s) (hpos : 0 < s.outstanding query) :
    Counted (s.step (.unsubscribe query)) ∧
      ∀ query', Releases query' s (s.step (.unsubscribe query)) := by
  rw [step]
  have hcount := h.count query
  rcases unsubscribe_cases query s with ⟨hmore, heq⟩ | ⟨hlast, ⟨e, heq⟩ | heq⟩
  · rw [heq]
    refine h.write query [.unsubscribed query] ?_ ?_
      (fun query' hq => OrderedMap.get?_set_of_ne _ hq _) ?_ ?_ rfl rfl
    · intro query' hq
      simp [WsEvent.subscription, Ne.symm hq]
    · rw [if_neg (by simp [WsEvent.subscription]; omega)]
      simp
    · rw [OrderedMap.get?_set_self]
      simp [WsEvent.subscription]
      omega
    · simp [OrderedMap.has, WsEvent.subscription]
      omega
  · rw [heq]
    exact (SameQueries.refl s).counted h
  · rw [heq]
    refine h.write query [.sent (unsubscribeRequest query), .unsubscribed query]
      ?_ ?_ (fun query' hq => OrderedMap.get?_delete_of_ne _ hq) ?_ ?_ ?_ rfl
    · intro query' hq
      constructor
      · simp [WsEvent.subscription, Ne.symm hq]
      · have hne : unsubscribeRequest query' ≠ unsubscribeRequest query :=
          fun heq => hq (unsubscribeRequest_inj heq)
        simp [hne]
    · -- the last subscription goes, and the request is sent
      rw [if_pos (by simp [WsEvent.subscription]; omega)]
      simp
    · rw [OrderedMap.get?_delete_self]
      simp [WsEvent.subscription]
      omega
    · simp [OrderedMap.has, WsEvent.subscription]
      omega
    · simp [WsClient.record]

/-- A socket that opens while no query is subscribed subscribes to none. -/
theorem SameQueries.socketOpen {i : ℕ} (hok : Countable s (.socketOpen i)) :
    SameQueries s (s.step (.socketOpen i)) := by
  rw [step]
  rcases socketEvent_cases i Socket.canOpen Socket.opened onOpenListener s with
    heq | ⟨socket, hi, hcan, heq⟩
  · rw [heq]
    exact refl s
  · rw [heq]
    have hset : SameQueries s (s.setSocket i socket.opened) := of_log rfl rfl
    have hlistener : socket.isListened = true →
        (s.setSocket i socket.opened).onOpenListener = (.ok (), ({ s.setSocket i socket.opened with
          isConnected := true }.emit (.connect s.url))) := by
      intro hlistened
      have hkeys : s.subscribedQueries.keys = [] := hok ⟨socket, hi, hlistened, hcan⟩
      unfold onOpenListener
      rw [resubscribe_eq]
      show forEach _ s.subscribedQueries.keys _ = _
      rw [hkeys]
      rfl
    rcases hear_cases socket onOpenListener (s.setSocket i socket.opened) with
      ⟨-, heq⟩ | ⟨hlistened, ⟨-, heq⟩ | ⟨e, herror, -⟩⟩
    · rw [heq]
      exact hset
    · rw [heq, hlistener hlistened]
      have hconnected : SameQueries s { s.setSocket i socket.opened with isConnected := true } :=
        hset.trans (of_log rfl rfl)
      exact hconnected.trans (emit _ _)
    · rw [hlistener hlistened] at herror
      cases herror

/-- **The connection and the queries.**  What happens to the connection is not about queries, but
for the requests of a socket that opens, each for a key. -/
theorem Change.cases_of_isOfConnection {a : Action} (h : Change a s s') (ha : a.IsOfConnection) :
    SameQueries s s' ∨ ∃ i, ∃ query ∈ s.subscribedQueries.keys, a = .socketOpen i ∧
      s' = { s.record (.sent (subscribeRequest query)) with
        subscribedQueries := s.subscribedQueries.set query
          ((s.subscribedQueries.get? query).getD 0 + 1) } := by
  cases h with
  | reset _ _ heq =>
      obtain ⟨n, rfl⟩ := heq
      exact ha.elim
  | released heq =>
      subst heq
      exact ha.elim
  | requested query hrequests =>
      cases a with
      | socketOpen i => exact Or.inr ⟨i, query, hrequests, rfl, rfl⟩
      | subscribe query' => exact ha.elim
      | _ => exact hrequests.elim
  | lowered query heq =>
      subst heq
      exact ha.elim
  | dropped query heq =>
      subst heq
      exact ha.elim
  | subscribed query heq =>
      subst heq
      exact ha.elim
  | unsubscribed query heq =>
      subst heq
      exact ha.elim
  | scheduled i retries events _ _ hevents =>
      refine Or.inl ⟨rfl, GoesOn.trans ?_ (GoesOn.snoc (e := WsEvent.reconnectScheduled i) id)⟩
      rcases hevents with rfl | rfl
      · exact .of_eq (List.append_nil _)
      · exact GoesOn.snoc (e := WsEvent.retryConsumed i) id
  | emitted event => exact Or.inl (.emit s event)
  | closeHeard i code => exact Or.inl (.record s id)
  | thrown e => exact Or.inl (.record s id)
  | _ => exact Or.inl (.of_log rfl rfl)

/-- Of what happens to the connection, only the opening of a socket is about queries. -/
theorem SameQueries.step {a : Action} (ha : a.IsOfConnection) (hopen : ∀ i, a ≠ .socketOpen i) :
    SameQueries s (s.step a) := by
  have hkeeps : Keeps a (SameQueries s) := by
    intro s₁ s₂ h hchange
    rcases hchange.cases_of_isOfConnection ha with hsame | ⟨i, query, -, heq, -⟩
    · exact h.trans hsame
    · exact absurd heq (hopen i)
  exact hkeeps.step (.refl s)

/-- **Every step that counts keeps the counts.** -/
theorem Counted.step (h : Counted s) {a : Action} (hok : Countable s a) :
    Counted (s.step a) ∧ ∀ query, Releases query s (s.step a) := by
  cases a with
  | connect maxRetries => exact hok.elim
  | close => exact hok.elim
  | subscribe query => exact h.subscribe query
  | unsubscribe query => exact h.unsubscribe hok
  | socketOpen i => exact (SameQueries.socketOpen hok).counted h
  | _ =>
      refine SameQueries.counted (SameQueries.step ?_ fun i heq => by cases heq) h
      trivial

/-! ## Runs -/

/-- A new connection has counted nothing. -/
theorem counted_connect (options : WsOptions) (maxRetries : Option ℤ) :
    Counted ((WsClient.new options).connect maxRetries) where
  count := fun _ => rfl
  key := fun _ => by simp [connect, openSocket, new, OrderedMap.has, OrderedMap.get?,
    OrderedMap.empty, outstanding]

/-- **The counts are the outstanding subscriptions of users**, in every run after `connect()` in
which no socket opens while a query is subscribed; and a request to unsubscribe is sent by those
steps that release the last subscription of a query. -/
theorem queries_counted (options : WsOptions) (maxRetries : Option ℤ) (as : List Action)
    (has : Machine.Admissible step Countable ((WsClient.new options).connect maxRetries) as) :
    Counted (run ((WsClient.new options).connect maxRetries) as) ∧
      ∀ a, Countable (run ((WsClient.new options).connect maxRetries) as) a → ∀ query,
        Releases query (run ((WsClient.new options).connect maxRetries) as)
          ((run ((WsClient.new options).connect maxRetries) as).step a) := by
  have hcounted : Counted (run ((WsClient.new options).connect maxRetries) as) :=
    has.invariant (fun _ _ h hok => (h.step hok).1) (counted_connect options maxRetries)
  exact ⟨hcounted, fun a hok => (hcounted.step hok).2⟩

/-- The options with the defaults. -/
def defaultOptions : WsOptions := ⟨none, none, none, none⟩

/-- A connection is lost before the first query, and another one while none is subscribed. -/
def countableActions : List Action :=
  [.socketOpen 0, .socketClose 0 1006, .timer, .socketOpen 1, .subscribe "q", .subscribe "q",
    .unsubscribe "q", .unsubscribe "q", .socketClose 1 1006, .timer, .socketOpen 2,
    .subscribe "q"]

/-- The counts are right, and so is the next release. -/
theorem queries_counted_twice :
    Counted (run ((new defaultOptions).connect none) countableActions) ∧
      Releases "q" (run ((new defaultOptions).connect none) countableActions)
        ((run ((new defaultOptions).connect none) countableActions).step (.unsubscribe "q")) := by
  have hcounted := queries_counted defaultOptions none countableActions (by decide)
  exact ⟨hcounted.1, hcounted.2 (.unsubscribe "q") (by decide) "q"⟩

/-- The query is subscribed while the connection is lost and comes back. -/
def reopenedActions : List Action :=
  [.socketOpen 0, .subscribe "q", .socketClose 0 1006, .timer, .socketOpen 1]

/-- After a reconnect the only subscription of a user counts twice; its release sends no request
and leaves the key. -/
theorem not_queries_counted_reopened :
    ¬ Counted (run ((new defaultOptions).connect none) reopenedActions) ∧
      (run ((new defaultOptions).connect none) reopenedActions).subscribedQueries.get? "q"
        = some 2 ∧
      (run ((new defaultOptions).connect none) reopenedActions).outstanding "q" = 1 ∧
      ¬ Releases "q" (run ((new defaultOptions).connect none) reopenedActions)
        ((run ((new defaultOptions).connect none) reopenedActions).step (.unsubscribe "q")) ∧
      ((run ((new defaultOptions).connect none) reopenedActions).step
        (.unsubscribe "q")).subscribedQueries.has "q" = true := by
  refine ⟨fun h => ?_, by decide, by decide, ?_, by decide⟩
  · have hcount := h.count "q"
    revert hcount
    decide
  · unfold Releases
    decide

end WsClient

end Dapi
