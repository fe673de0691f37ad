/-
# A client that is closed

`WsClient.close` leaves the current socket when the client is connected, and forgets
it; timers, and sockets that are not open yet, stay.

* `Final`: without another `connect`, no socket is made, the client is not connected,
  and no callback reads a property of the null `ws`.
* `Dead` is the invariant of a client that is really closed.
* `close_final_iff`: a close is final exactly when no timer is pending and no socket
  is followed but the current one of a connected client.
* `not_close_final`: what a close leaves behind goes on.
-/
import Dapi.WsClient

namespace Dapi

namespace WsClient

variable {s s' s'' : WsClient} {i j : ℕ}

/-- The client listens to a socket that may still tell it something. -/
def IsFollowed (s : WsClient) (i : ℕ) : Prop :=
  ∃ socket ∈ s.sockets[i]?, socket.isListened = true ∧ ∀ error, socket.readyState ≠ .CLOSED error

/-- What a closed client keeps. -/
structure StaysClosed (s s' : WsClient) : Prop where
  sockets : s'.sockets.length = s.sockets.length
  isConnected : s'.isConnected = false
  nullSocket : s'.log.count (.uncaught .nullSocket) = s.log.count (.uncaught .nullSocket)

/-- The client stays closed as long as nobody calls `connect`. -/
def Final (s : WsClient) : Prop :=
  ∀ as : List Action, (∀ maxRetries, .connect maxRetries ∉ as) → StaysClosed s (run s as)

/-- The client has no socket, no timer, and listens to nothing. -/
structure Dead (s : WsClient) : Prop where
  ws : s.ws = none
  timers : s.timers = []
  unfollowed : ∀ i, ¬ s.IsFollowed i
  isConnected : s.isConnected = false

/-! ## A dead client -/

theorem Dead.staysClosed_refl (h : Dead s) : StaysClosed s s := ⟨rfl, h.isConnected, rfl⟩

/-- A closed client stays closed. -/
theorem StaysClosed.trans (h : StaysClosed s s') (h' : StaysClosed s' s'') : StaysClosed s s'' :=
  ⟨h'.sockets.trans h.sockets, h'.isConnected, h'.nullSocket.trans h.nullSocket⟩

/-- A client without a socket sends nothing. -/
theorem Dead.send (h : Dead s) (request : WsRequest) :
    s.send request = (.error .nullSocket, s) := by
  unfold WsClient.send
  rw [h.ws]

/-- An event of a socket is not heard. -/
theorem Dead.socketEvent (h : Dead s) {can : Socket → Bool} {f : Socket → Socket}
    (hcan : ∀ socket, can socket = true → ∀ error, socket.readyState ≠ .CLOSED error)
    (hf : ∀ socket, (f socket).isListened = socket.isListened)
    (listener : WsClient → Except WsException Unit × WsClient) :
    Dead (s.socketEvent i can f listener) ∧ StaysClosed s (s.socketEvent i can f listener) := by
  rcases socketEvent_cases i can f listener s with heq | ⟨socket, hi, hcan', heq⟩
  · rw [heq]
    exact ⟨h, h.staysClosed_refl⟩
  · -- a socket that is not closed has no listeners left, or it would be followed
    have hunheard : socket.isListened = false := by
      by_contra hlistened
      rw [Bool.not_eq_false] at hlistened
      exact h.unfollowed i ⟨socket, hi, hlistened, hcan socket hcan'⟩
    have hset : s.socketEvent i can f listener = s.setSocket i (f socket) := by
      rw [heq, hear, hunheard]
      rfl
    rw [hset]
    refine ⟨⟨h.ws, h.timers, fun j hj => ?_, h.isConnected⟩, List.length_set, h.isConnected, rfl⟩
    obtain ⟨socket', hj', hlistened, hopen⟩ := hj
    rcases setSocket_cases hj' with ⟨-, rfl⟩ | ⟨-, hj''⟩
    · rw [hf, hunheard] at hlistened
      cases hlistened
    · exact h.unfollowed j ⟨socket', hj'', hlistened, hopen⟩

/-- **A dead client stays dead**, unless somebody calls `connect`. -/
theorem Dead.step (h : Dead s) {a : Action} (ha : ∀ maxRetries, a ≠ .connect maxRetries) :
    Dead (s.step a) ∧ StaysClosed s (s.step a) := by
  have hrefl : Dead s ∧ StaysClosed s s := ⟨h, h.staysClosed_refl⟩
  cases a with
  | connect maxRetries => exact absurd rfl (ha maxRetries)
  | close =>
      rw [WsClient.step]
      unfold close
      rw [h.ws]
      exact hrefl
  | subscribe query =>
      rw [WsClient.step]
      unfold subscribe
      rw [h.send]
      exact hrefl
  | unsubscribe query =>
      rw [WsClient.step]
      unfold unsubscribe
      simp only
      split_ifs
      · -- the count goes down, and nothing is sent
        refine ⟨⟨h.ws, h.timers, h.unfollowed, h.isConnected⟩, rfl, h.isConnected, ?_⟩
        simp [record]
      · rw [h.send]
        exact hrefl
  | timer =>
      rw [WsClient.step, h.timers]
      exact hrefl
  | socketOpen i =>
      refine h.socketEvent (fun socket hcan error => ?_) (fun _ => by rfl) _
      rw [of_decide_eq_true hcan]
      simp
  | socketError i code =>
      refine h.socketEvent (fun socket hcan error heq => ?_) (fun _ => by rfl) _
      simp [Socket.canFail, heq] at hcan
  | socketClose i code =>
      refine h.socketEvent (fun socket hcan error heq => ?_) (fun _ => by rfl) _
      simp [Socket.canClose, heq] at hcan
  | socketMessage i message =>
      refine h.socketEvent (fun socket hcan error => ?_) (fun _ => by rfl) _
      rw [of_decide_eq_true hcan]
      simp

/-- **A dead client is closed for good.** -/
theorem Dead.final (h : Dead s) : Final s := by
  intro as has
  have hkept : ∀ (as : List Action) (s : WsClient), (∀ maxRetries, .connect maxRetries ∉ as) →
      Dead s → StaysClosed s (run s as) := by
    intro as
    induction as with
    | nil => exact fun s _ h => h.staysClosed_refl
    | cons a as ih =>
        intro s has h
        obtain ⟨hdead, hstays⟩ := h.step (a := a) fun maxRetries heq =>
          has maxRetries (heq ▸ List.mem_cons_self)
        exact hstays.trans (ih _ (fun maxRetries hmem =>
          has maxRetries (List.mem_cons_of_mem a hmem)) hdead)
  exact hkept as s has h

/-! ## What goes on after a close -/

/-- What is final stays so. -/
theorem final_run (h : Final s) {as : List Action} (has : ∀ maxRetries, .connect maxRetries ∉ as) :
    Final (run s as) := by
  intro bs hbs
  have hfirst := h as has
  have hall := h (as ++ bs) fun maxRetries hmem => by
    rcases List.mem_append.mp hmem with hmem | hmem
    · exact has maxRetries hmem
    · exact hbs maxRetries hmem
  rw [run, Machine.run_append] at hall
  exact ⟨hall.sockets.trans hfirst.sockets.symm, hall.isConnected,
    hall.nullSocket.trans hfirst.nullSocket.symm⟩

/-- A pending timer makes a socket. -/
theorem Final.timers_eq (h : Final s) : s.timers = [] := by
  by_contra hne
  obtain ⟨i, timers, htimers⟩ := List.exists_cons_of_ne_nil hne
  -- the timer may fire
  have hsockets := (h [.timer] (by simp)).sockets
  have hrun : run s [.timer] = openSocket { s with timers := timers } := by
    show s.step .timer = _
    rw [step, htimers]
  rw [hrun] at hsockets
  unfold openSocket at hsockets
  cases hws : s.ws <;> simp [hws, leaveSocket] at hsockets

/-- The re-subscription does not disconnect. -/
theorem isConnected_onOpenListener (s : WsClient) : s.onOpenListener.2.isConnected = true := by
  unfold onOpenListener
  rw [resubscribe_eq]
  refine forEach_invariant (I := fun s : WsClient => s.isConnected = true)
    (fun query _ s h => ?_) rfl
  rcases subscribe_cases query s with ⟨e, heq⟩ | heq
  · rw [heq]
    exact h
  · rw [heq]
    exact h

/-- **A socket that is followed goes on** after its client was closed: it connects the client
again, schedules an attempt, or finds the socket of the client gone. -/
theorem Final.not_isFollowed (h : Final s) (hws : s.ws = none) (i : ℕ) : ¬ s.IsFollowed i := by
  rintro ⟨socket, hi, hlistened, hopen⟩
  by_cases hconnecting : socket.readyState = .CONNECTING
  · -- a connecting socket may open, and its listener connects the client
    have hconnected := (h [.socketOpen i] (by simp)).isConnected
    have hrun : run s [.socketOpen i] =
        (s.setSocket i socket.opened).hear socket onOpenListener :=
      socketEvent_eq hi (decide_eq_true hconnecting)
    rw [hrun] at hconnected
    have htrue := isConnected_onOpenListener (s.setSocket i socket.opened)
    rcases hear_cases socket onOpenListener (s.setSocket i socket.opened) with
      ⟨hnot, -⟩ | ⟨-, ⟨-, heq⟩ | ⟨e, -, heq⟩⟩
    · rw [hlistened] at hnot
      cases hnot
    · rw [heq, htrue] at hconnected
      cases hconnected
    · rw [heq] at hconnected
      cases htrue.symm.trans hconnected
  · -- any other one may close, and its listener calls `reconnect`
    have hcan : socket.canClose 1006 = true := by
      unfold Socket.canClose
      cases hstate : socket.readyState with
      | CONNECTING => exact absurd hstate hconnecting
      | OPEN => rfl
      | CLOSING error => rfl
      | CLOSED error => exact absurd hstate (hopen error)
    have hrun : run s [.socketClose i 1006] =
        (s.setSocket i socket.closed).hear socket (onCloseListener i 1006) :=
      socketEvent_eq hi hcan
    have hfinal : Final (run s [.socketClose i 1006]) := final_run h (by simp)
    have hcount := (h [.socketClose i 1006] (by simp)).nullSocket
    rw [hrun] at hfinal hcount
    rcases hear_cases socket (onCloseListener i 1006) (s.setSocket i socket.closed) with
      ⟨hnot, -⟩ | ⟨-, hheard⟩
    · rw [hlistened] at hnot
      cases hnot
    · rw [onCloseListener_eq] at hheard
      rcases reconnect_cases i ((s.setSocket i socket.closed).record (.closed i 1006)) with
        ⟨-, retries, events, -, heq⟩ | ⟨-, ⟨j, hj, -⟩ | ⟨-, heq⟩⟩
      · -- the timer that is set now makes a socket
        rw [heq] at hheard
        rcases hheard with ⟨-, hstate⟩ | ⟨e, herror, -⟩
        · rw [hstate] at hfinal
          exact List.append_ne_nil_of_right_ne_nil s.timers (List.cons_ne_nil i []) hfinal.timers_eq
        · cases herror
      · cases hws.symm.trans hj
      · rw [heq] at hheard
        rcases hheard with ⟨hok, -⟩ | ⟨e, herror, hstate⟩
        · cases hok
        · cases herror
          rw [hstate] at hcount
          simp [record, setSocket] at hcount

/-! ## The close -/

/-- **What a close leaves followed**: all that was followed, but the current socket of a connected
client. -/
theorem isFollowed_close_iff (hws : s.ws = some j) :
    s.close.2.IsFollowed i ↔ s.IsFollowed i ∧ ¬ (i = j ∧ s.isConnected = true) := by
  unfold close
  rw [hws]
  simp only
  cases hconnected : s.isConnected with
  | false => simp [IsFollowed]
  | true =>
      rw [if_pos rfl]
      unfold IsFollowed leaveSocket
      simp only [List.getElem?_modify]
      by_cases hij : j = i
      · subst hij
        simp [Socket.terminate]
      · simp [hij, Ne.symm hij]

/-- A client that can be closed has a socket. -/
theorem ws_of_close (h : s.close.1 = true) : ∃ j, s.ws = some j := by
  unfold close at h
  cases hws : s.ws with
  | none =>
      rw [hws] at h
      cases h
  | some j => exact ⟨j, rfl⟩

/-- What `close` leaves. -/
theorem close_eq (hws : s.ws = some j) : s.close.2.ws = none ∧ s.close.2.timers = s.timers ∧
    s.close.2.isConnected = false := by
  unfold close
  rw [hws]
  cases hconnected : s.isConnected with
  | false => exact ⟨rfl, rfl, hconnected⟩
  | true => exact ⟨rfl, rfl, rfl⟩

/-- **When a close is final.**  After a close that returned true the client stays closed, however
the run goes on without `connect`, exactly when no timer was pending and no socket was followed but
the current one of a connected client. -/
theorem close_final_iff (options : WsOptions) (as : List Action)
    (hclose : (run (new options) as).close.1 = true) :
    Final (run (new options) as).close.2 ↔ (run (new options) as).timers = [] ∧
      ∀ i, (run (new options) as).IsFollowed i →
        (run (new options) as).ws = some i ∧ (run (new options) as).isConnected = true := by
  obtain ⟨j, hws⟩ := ws_of_close hclose
  obtain ⟨hnull, htimers, hdisconnected⟩ := close_eq hws
  constructor
  · intro h
    refine ⟨htimers.symm.trans h.timers_eq, fun i hi => ?_⟩
    by_contra hnot
    refine h.not_isFollowed hnull i ((isFollowed_close_iff hws).mpr ⟨hi, fun hcurrent => hnot ?_⟩)
    rw [hws, hcurrent.1]
    exact ⟨rfl, hcurrent.2⟩
  · rintro ⟨hnone, honly⟩
    refine Dead.final ⟨hnull, htimers.trans hnone, fun i hi => ?_, hdisconnected⟩
    obtain ⟨hi', hnot⟩ := (isFollowed_close_iff hws).mp hi
    obtain ⟨hcurrent, hconnected⟩ := honly i hi'
    rw [hws] at hcurrent
    exact hnot ⟨(Option.some.inj hcurrent).symm, hconnected⟩

/-- A client is connected, and closed. -/
def connectedActions : List Action := [.connect none, .socketOpen 0, .subscribe "q"]

/-- A connected client without timers is closed for good. -/
theorem close_final_connected :
    Final (run (new ⟨none, none, none, none⟩) connectedActions).close.2 := by
  refine (close_final_iff ⟨none, none, none, none⟩ connectedActions rfl).mpr ⟨rfl, fun i hi => ?_⟩
  obtain ⟨socket, hget, -⟩ := hi
  have hlt : i < 1 := (List.getElem?_eq_some_iff.mp hget).1
  obtain rfl : i = 0 := by omega
  exact ⟨rfl, rfl⟩

/-- A close while the client is connecting: the socket opens later, or fails, and the `ws` that its
listener disconnects is gone; and a close while a timer is pending. -/
theorem not_close_final :
    (run (new ⟨none, none, none, none⟩) [.connect none]).close.1 = true ∧
      ¬ Final (run (new ⟨none, none, none, none⟩) [.connect none]).close.2 ∧
      (run (run (new ⟨none, none, none, none⟩) [.connect none]).close.2
        [.socketOpen 0]).isConnected = true ∧
      .uncaught .nullSocket ∈ (run (run (new ⟨none, none, none, none⟩) [.connect none]).close.2
        [.socketError 0 (.other none)]).log ∧
      (run (run (new ⟨none, none, none, none⟩)
        [.connect none, .socketOpen 0, .socketClose 0 1006]).close.2
        [.timer]).sockets.length = 2 := by
  refine ⟨rfl, fun h => ?_, rfl, by decide, rfl⟩
  have hconnected := (h [.socketOpen 0] (by simp)).isConnected
  revert hconnected
  decide

end WsClient

end Dapi
