/-
# Lost sockets and reconnects

The listeners of a socket may schedule the next attempt of `WsClient` at an error
and at the close.

* `IsActive`: the client listens to a socket that has not been reported lost yet.
* `OneAttempt` is the invariant: there is one active socket, or one timer is pending.
* `one_reconnect`: a lost socket causes at most one reconnect, in every run in which
  no failed attempt and no normal close is heard at the `close` event.
* `not_one_reconnect`: a failed attempt is heard twice, and a normal close is taken
  for a loss.
-/
import Dapi.ClientSteps

namespace Dapi

/-! ## Active sockets -/

namespace Socket

/-- The socket has reported an error after which the client reconnects. -/
def hasFailed (socket : Socket) : Bool :=
  decide (socket.readyState = .CLOSING (some .EAI_AGAIN)) ||
    decide (socket.readyState = .CLOSING (some .ECONNREFUSED))

/-- The client listens to the socket, which has not closed nor reported such an error. -/
def isActive (socket : Socket) : Bool :=
  socket.isListened &&
    match socket.readyState with
    | .CONNECTING | .OPEN => true
    | .CLOSING _ => !socket.hasFailed
    | .CLOSED _ => false

/-- A socket that may still fail is active while it has its listeners. -/
theorem isActive_of_canFail {socket : Socket} (h : socket.canFail = true)
    (hlistened : socket.isListened = true) : socket.isActive = true := by
  unfold canFail at h
  unfold isActive
  rw [hlistened]
  cases hstate : socket.readyState <;> simp [hstate] at h ⊢

/-- A socket that may close without having failed is active while it has its listeners. -/
theorem isActive_of_canClose {socket : Socket} {code : ℕ} (h : socket.canClose code = true)
    (hlistened : socket.isListened = true) (hfailed : socket.hasFailed = false ∨ code = 1000) :
    socket.isActive = true := by
  unfold canClose at h
  unfold isActive
  rw [hlistened]
  cases hstate : socket.readyState with
  | CLOSING error =>
      rw [hstate] at h
      rcases hfailed with hfailed | rfl
      · simp [hfailed]
      · simp at h
  | _ => simp [hstate] at h ⊢

/-- To open makes no socket active. -/
theorem isActive_of_opened {socket : Socket} (h : socket.canOpen = true)
    (hactive : socket.opened.isActive = true) : socket.isActive = true := by
  have hstate : socket.readyState = .CONNECTING := of_decide_eq_true h
  have hlistened : socket.isListened = true := (Bool.and_eq_true_iff.mp hactive).1
  unfold isActive
  rw [hlistened, hstate]
  rfl

theorem isActive_of_failed {socket : Socket} {code : SocketErrorCode} (h : socket.canFail = true)
    (hactive : (socket.failed code).isActive = true) : socket.isActive = true :=
  isActive_of_canFail h (Bool.and_eq_true_iff.mp hactive).1

/-- A socket that could not connect is not active. -/
theorem not_isActive_failed {code : SocketErrorCode} (hcode : ∀ c, code ≠ .other c)
    (socket : Socket) : (socket.failed code).isActive = false := by
  unfold isActive
  cases code with
  | other c => exact absurd rfl (hcode c)
  | _ => simp [failed, hasFailed]

theorem not_isActive_closed (socket : Socket) : socket.closed.isActive = false := by
  unfold isActive closed
  cases socket.readyState <;> simp

theorem not_isActive_terminate (socket : Socket) : socket.terminate.isActive = false := rfl

end Socket

/-- The event is about a loss that causes a reconnect, or a normal close. -/
def WsEvent.IsOfLoss : WsEvent → Prop
  | .closed _ code => code = 1000
  | .retryConsumed _ | .reconnectScheduled _ => True
  | _ => False

namespace WsClient

open Trace

variable {s s' s'' : WsClient} {i j : ℕ}

/-- A socket is active. -/
def IsActive (s : WsClient) (i : ℕ) : Prop := ∃ socket ∈ s.sockets[i]?, socket.isActive = true

instance (s : WsClient) (i : ℕ) : Decidable (s.IsActive i) :=
  inferInstanceAs (Decidable (∃ socket ∈ s.sockets[i]?, socket.isActive = true))

/-- The steps that are orderly: while there are retries, the client hears of a close only when it
is not normal and does not follow a failure that was heard; and `connect` is called when no other
attempt is going on. -/
def Orderly (s : WsClient) : Action → Prop
  | .connect _ => s.timers = [] ∧ ∀ i < s.sockets.length, s.IsActive i → s.ws = some i
  | .socketClose i code =>
    s.HasRetries → ∀ socket ∈ s.sockets[i]?, socket.isListened = true →
      socket.canClose code = true → code ≠ 1000 ∧ socket.hasFailed = false
  | .close | .subscribe _ | .unsubscribe _ | .timer | .socketOpen _ | .socketError _ _
  | .socketMessage _ _ => True

instance decidableOrderly (s : WsClient) : (a : Action) → Decidable (s.Orderly a)
  | .connect _ =>
    inferInstanceAs (Decidable (s.timers = [] ∧
      ∀ i < s.sockets.length, s.IsActive i → s.ws = some i))
  | .socketClose i code =>
    inferInstanceAs (Decidable (s.HasRetries → ∀ socket ∈ s.sockets[i]?,
      socket.isListened = true → socket.canClose code = true →
        code ≠ 1000 ∧ socket.hasFailed = false))
  | .close | .subscribe _ | .unsubscribe _ | .timer | .socketOpen _ | .socketError _ _
  | .socketMessage _ _ => .isTrue trivial

/-- **At most one reconnect for a lost socket.** -/
structure OneReconnect (s : WsClient) : Prop where
  scheduled : ∀ i, s.log.count (.reconnectScheduled i) ≤ 1
  retries : ∀ i, s.log.count (.retryConsumed i) ≤ 1
  timers : s.timers.length ≤ 1
  normal : ∀ i, .closed i 1000 ∈ s.log → .reconnectScheduled i ∉ s.log

/-- The invariant: there is one attempt at a time, and what it has caused so far. -/
structure OneAttempt (s : WsClient) : Prop where
  timers : s.timers.length ≤ 1
  exclusive : s.timers ≠ [] → ∀ i, ¬ s.IsActive i
  unique : ∀ i j, s.IsActive i → s.IsActive j → i = j
  fresh : ∀ i, (s.IsActive i ∨ s.sockets.length ≤ i) → .reconnectScheduled i ∉ s.log
  scheduled : ∀ i, s.log.count (.reconnectScheduled i) ≤ 1
  consumed : ∀ i, s.log.count (.retryConsumed i) ≤ s.log.count (.reconnectScheduled i)
  normal : ∀ i, .closed i 1000 ∈ s.log →
    ¬ s.IsActive i ∧ i < s.sockets.length ∧ .reconnectScheduled i ∉ s.log

/-- With one attempt at a time there is one reconnect for each loss. -/
theorem OneAttempt.oneReconnect (h : OneAttempt s) : OneReconnect s where
  scheduled := h.scheduled
  retries := fun i => (h.consumed i).trans (h.scheduled i)
  timers := h.timers
  normal := fun i hi => (h.normal i hi).2.2

/-- An active socket is there. -/
theorem IsActive.lt_length (h : s.IsActive i) : i < s.sockets.length := by
  obtain ⟨socket, hi, -⟩ := h
  exact (List.getElem?_eq_some_iff.mp hi).1

/-! ## What does not start an attempt -/

/-- Nothing becomes active, no timer is set, and nothing is logged about a loss. -/
structure Calms (s s' : WsClient) : Prop where
  active : ∀ i, s'.IsActive i → s.IsActive i
  length : s'.sockets.length = s.sockets.length
  timers : s'.timers = s.timers
  log : GoesOn (fun e => ¬ e.IsOfLoss) s.log s'.log

namespace Calms

theorem of_eq (hsockets : s'.sockets = s.sockets) (htimers : s'.timers = s.timers)
    (hlog : s'.log = s.log) : Calms s s' where
  active := fun i h => by
    unfold IsActive at h
    rw [hsockets] at h
    exact h
  length := congrArg List.length hsockets
  timers := htimers
  log := .of_eq hlog

theorem refl (s : WsClient) : Calms s s := of_eq rfl rfl rfl

/-- Two calm steps are calm. -/
theorem trans (h : Calms s s') (h' : Calms s' s'') : Calms s s'' where
  active := fun i hi => h.active i (h'.active i hi)
  length := h'.length.trans h.length
  timers := h'.timers.trans h.timers
  log := h.log.trans h'.log

theorem record (s : WsClient) {e : WsEvent} (he : ¬ e.IsOfLoss) : Calms s (s.record e) :=
  ⟨fun _ h => h, rfl, rfl, .snoc he⟩

theorem emit (s : WsClient) (event : ClientEvent) : Calms s (s.emit event) :=
  ⟨fun _ h => h, rfl, rfl, GoesOn.snoc (e := WsEvent.emitted event) id⟩

/-- To leave a socket is calm. -/
theorem leaveSocket (s : WsClient) (j : ℕ) : Calms s (s.leaveSocket j) where
  active := fun i h => by
    obtain ⟨socket, hi, hactive⟩ := h
    rcases leaveSocket_cases hi with ⟨-, socket', rfl⟩ | ⟨-, hi'⟩
    · rw [Socket.not_isActive_terminate] at hactive
      cases hactive
    · exact ⟨socket, hi', hactive⟩
  length := List.length_modify _ _ _
  timers := rfl
  log := .of_eq rfl

/-- A socket changes that does not become active. -/
theorem setSocket {socket socket' : Socket} (hi : s.sockets[i]? = some socket)
    (hactive : socket'.isActive = true → socket.isActive = true) :
    Calms s (s.setSocket i socket') where
  active := fun j h => by
    obtain ⟨socket₁, hj, hactive₁⟩ := h
    rcases setSocket_cases hj with ⟨rfl, rfl⟩ | ⟨-, hj'⟩
    · exact ⟨socket, hi, hactive hactive₁⟩
    · exact ⟨socket₁, hj', hactive₁⟩
  length := List.length_set
  timers := rfl
  log := .of_eq rfl

/-- Without retries the client only disconnects. -/
theorem reconnect (hretries : ¬ s.HasRetries) (i : ℕ) : Calms s (s.reconnect i).2 := by
  rcases reconnect_cases i s with ⟨hhas, -⟩ | ⟨-, ⟨j, -, heq⟩ | ⟨-, heq⟩⟩
  · exact absurd hhas hretries
  · rw [heq]
    exact (leaveSocket s j).trans (emit _ _)
  · rw [heq]
    exact refl s

/-- A calm step tells as often of a loss as before. -/
theorem count_eq (h : Calms s s') {e : WsEvent} (he : e.IsOfLoss) :
    s'.log.count e = s.log.count e :=
  h.log.count_eq fun hnot => hnot he

/-- A calm step tells of no other loss. -/
theorem mem_iff (h : Calms s s') {e : WsEvent} (he : e.IsOfLoss) : e ∈ s'.log ↔ e ∈ s.log :=
  h.log.mem_iff fun hnot => hnot he

end Calms

/-- An event of a socket does not make it active. -/
theorem Action.Moves.isActive {a : Action} {socket socket' : Socket} (h : a.Moves i socket socket')
    (hactive : socket'.isActive = true) : socket.isActive = true := by
  cases a with
  | socketOpen i' =>
      obtain ⟨-, hcan, rfl⟩ := h
      exact Socket.isActive_of_opened hcan hactive
  | socketError i' code =>
      obtain ⟨-, hcan, rfl⟩ := h
      exact Socket.isActive_of_failed hcan hactive
  | socketClose i' code =>
      obtain ⟨-, -, rfl⟩ := h
      rw [Socket.not_isActive_closed] at hactive
      cases hactive
  | socketMessage i' message =>
      obtain ⟨-, -, rfl⟩ := h
      exact hactive
  | _ => exact h.elim

/-- **What neither makes a socket nor reports a loss is calm.** -/
theorem Calms.step {a : Action} (hopens : ¬ a.Opens) (hloses : ∀ i, ¬ a.Loses i) (s : WsClient) :
    Calms s (s.step a) := by
  have hkeeps : Keeps a (Calms s) := by
    intro s₁ s₂ h hchange
    refine h.trans ?_
    cases hchange with
    | reset _ _ heq =>
        obtain ⟨n, rfl⟩ := heq
        exact absurd trivial hopens
    | fired _ _ heq =>
        subst heq
        exact absurd trivial hopens
    | made ha => exact absurd ha hopens
    | scheduled i _ _ ha => exact absurd ha (hloses i)
    | closeHeard i code heq =>
        subst heq
        exact absurd rfl (hloses i)
    | left j => exact leaveSocket s₁ j
    | moved i socket socket' ha hi => exact setSocket hi ha.isActive
    | requested query =>
        have hrecord := record s₁ (e := .sent (subscribeRequest query)) id
        exact hrecord.trans (of_eq rfl rfl rfl)
    | dropped query =>
        have hrecord := record s₁ (e := .sent (unsubscribeRequest query)) id
        exact hrecord.trans (of_eq rfl rfl rfl)
    | emitted event => exact emit s₁ event
    | thrown e => exact record s₁ id
    | subscribed query => exact record s₁ id
    | unsubscribed query => exact record s₁ id
    | _ => exact of_eq rfl rfl rfl
  exact hkeeps.step (refl s)

/-! ## One step -/

/-- A calm step keeps to one attempt. -/
theorem OneAttempt.of_calms (h : OneAttempt s) (hc : Calms s s') : OneAttempt s' where
  timers := by
    rw [hc.timers]
    exact h.timers
  exclusive := fun htimers i hi => by
    rw [hc.timers] at htimers
    exact h.exclusive htimers i (hc.active i hi)
  unique := fun i j hi hj => h.unique i j (hc.active i hi) (hc.active j hj)
  fresh := fun i hi => by
    rw [hc.mem_iff (e := .reconnectScheduled i) trivial]
    refine h.fresh i (hi.imp (hc.active i) fun hle => ?_)
    rwa [hc.length] at hle
  scheduled := fun i => by
    rw [hc.count_eq (e := .reconnectScheduled i) trivial]
    exact h.scheduled i
  consumed := fun i => by
    rw [hc.count_eq (e := .reconnectScheduled i) trivial,
      hc.count_eq (e := .retryConsumed i) trivial]
    exact h.consumed i
  normal := fun i hi => by
    rw [hc.mem_iff (e := .closed i 1000) rfl] at hi
    obtain ⟨hnot, hlt, hscheduled⟩ := h.normal i hi
    rw [hc.mem_iff (e := .reconnectScheduled i) trivial, hc.length]
    exact ⟨fun hactive => hnot (hc.active i hactive), hlt, hscheduled⟩

/-! ### The log of a reconnect -/

section ReconnectLog

variable {log events : List WsEvent}

/-- One more reconnect of the socket. -/
theorem count_reconnectScheduled_append (hevents : events = [] ∨ events = [.retryConsumed i])
    (j : ℕ) :
    (log ++ events ++ [WsEvent.reconnectScheduled i]).count (.reconnectScheduled j) =
      log.count (.reconnectScheduled j) + if i = j then 1 else 0 := by
  rcases hevents with rfl | rfl
  · simp [List.count_cons]
  · simp [List.count_cons]

/-- At most one more retry of the socket. -/
theorem count_retryConsumed_append_le (hevents : events = [] ∨ events = [.retryConsumed i])
    (j : ℕ) :
    (log ++ events ++ [WsEvent.reconnectScheduled i]).count (.retryConsumed j) ≤
      log.count (.retryConsumed j) + if i = j then 1 else 0 := by
  rcases hevents with rfl | rfl
  · simp
  · simp [List.count_cons]

/-- A reconnect is no close. -/
theorem closed_mem_of_mem_append (hevents : events = [] ∨ events = [.retryConsumed i])
    {code : ℕ} (hmem : .closed j code ∈ log ++ events ++ [WsEvent.reconnectScheduled i]) :
    .closed j code ∈ log := by
  rcases hevents with rfl | rfl
  · simpa using hmem
  · simpa using hmem

end ReconnectLog

/-- **An active socket is lost**: it schedules the only attempt. -/
theorem OneAttempt.reconnect (h : OneAttempt s) (hactive : s.IsActive i) (hc : Calms s s')
    (hlost : ¬ s'.IsActive i) (hretries : s'.HasRetries) : OneAttempt (s'.reconnect i).2 := by
  have h' := h.of_calms hc
  have htimers : s'.timers = [] := by
    by_contra hne
    rw [hc.timers] at hne
    exact h.exclusive hne i hactive
  have hfresh : .reconnectScheduled i ∉ s'.log := by
    rw [hc.mem_iff (e := .reconnectScheduled i) trivial]
    exact h.fresh i (Or.inl hactive)
  have hnone : ∀ j, ¬ s'.IsActive j := by
    intro j hj
    obtain rfl := h.unique i j hactive (hc.active j hj)
    exact hlost hj
  have hlt : i < s'.sockets.length := by
    rw [hc.length]
    exact hactive.lt_length
  rcases reconnect_cases i s' with ⟨-, retries, events, hevents, heq⟩ | ⟨hno, -⟩
  · rw [heq]
    have hmem : ∀ j, i ≠ j → .reconnectScheduled j ∉ s'.log →
        .reconnectScheduled j ∉ s'.log ++ events ++ [WsEvent.reconnectScheduled i] := by
      intro j hij hnot
      rw [← List.count_eq_zero] at hnot ⊢
      rw [count_reconnectScheduled_append hevents, hnot, if_neg hij]
    refine ⟨?_, fun _ => hnone, fun j _ hj _ => absurd hj (hnone j), fun j hj => ?_,
      fun j => ?_, fun j => ?_, fun j hj => ?_⟩
    · simp [htimers]
    · have hle : s'.sockets.length ≤ j := hj.resolve_left (hnone j)
      exact hmem j (by omega) (h'.fresh j (Or.inr hle))
    · show List.count _ (s'.log ++ events ++ [WsEvent.reconnectScheduled i]) ≤ 1
      rw [count_reconnectScheduled_append hevents]
      split_ifs with hij
      · rw [← hij, List.count_eq_zero.mpr hfresh]
      · exact h'.scheduled j
    · refine (count_retryConsumed_append_le hevents j).trans ?_
      show _ ≤ List.count _ (s'.log ++ events ++ [WsEvent.reconnectScheduled i])
      rw [count_reconnectScheduled_append hevents]
      exact Nat.add_le_add_right (h'.consumed j) _
    · have hold := closed_mem_of_mem_append hevents hj
      obtain ⟨-, hltj, hnot⟩ := h'.normal j hold
      refine ⟨hnone j, hltj, hmem j ?_ hnot⟩
      -- a socket that closed normally was not active any more
      rintro rfl
      rw [hc.mem_iff (e := .closed i 1000) rfl] at hold
      exact (h.normal i hold).1 hactive
  · exact absurd hretries hno

/-- A normal close of an active socket is recorded. -/
theorem OneAttempt.record_closed (h : OneAttempt s) (hactive : s.IsActive i) (hc : Calms s s')
    (hlost : ¬ s'.IsActive i) (code : ℕ) : OneAttempt (s'.record (.closed i code)) := by
  have h' := h.of_calms hc
  have hne : ∀ (e : WsEvent), e ≠ .closed i code →
      (s'.log ++ [WsEvent.closed i code]).count e = s'.log.count e := by
    intro e he
    simp [Ne.symm he]
  refine ⟨h'.timers, h'.exclusive, h'.unique, fun j hj => ?_, fun j => ?_, fun j => ?_,
    fun j hj => ?_⟩
  · show .reconnectScheduled j ∉ s'.log ++ [.closed i code]
    rw [← List.count_eq_zero, hne _ (by simp), List.count_eq_zero]
    exact h'.fresh j hj
  · show List.count _ (s'.log ++ [.closed i code]) ≤ 1
    rw [hne _ (by simp)]
    exact h'.scheduled j
  · show List.count _ (s'.log ++ [.closed i code]) ≤ List.count _ (s'.log ++ [.closed i code])
    rw [hne _ (by simp), hne _ (by simp)]
    exact h'.consumed j
  · have hscheduled : .reconnectScheduled j ∉ s'.log →
        .reconnectScheduled j ∉ s'.log ++ [.closed i code] := by
      simp
    rcases List.mem_append.mp hj with hold | hnew
    · obtain ⟨hnot, hlt, hno⟩ := h'.normal j hold
      exact ⟨hnot, hlt, hscheduled hno⟩
    · obtain ⟨rfl, -⟩ : j = i ∧ 1000 = code := by simpa using hnew
      refine ⟨hlost, ?_, hscheduled ?_⟩
      · show j < s'.sockets.length
        rw [hc.length]
        exact hactive.lt_length
      · rw [hc.mem_iff (e := .reconnectScheduled j) trivial]
        exact h.fresh j (Or.inl hactive)

/-- A socket that is left is not active. -/
theorem not_isActive_leaveSocket (s : WsClient) (i : ℕ) : ¬ (s.leaveSocket i).IsActive i := by
  rintro ⟨socket, hi, hactive⟩
  rcases leaveSocket_cases hi with ⟨-, socket', rfl⟩ | ⟨hne, -⟩
  · rw [Socket.not_isActive_terminate] at hactive
    cases hactive
  · exact hne rfl

/-- A new socket is made when no attempt is going on. -/
theorem OneAttempt.append_new (h : OneAttempt s) (htimers : s.timers = [])
    (hnone : ∀ i, ¬ s.IsActive i) (ws : Option ℕ) :
    OneAttempt { s with ws := ws, sockets := s.sockets ++ [.new] } := by
  have honly : ∀ i, IsActive { s with ws := ws, sockets := s.sockets ++ [.new] } i →
      i = s.sockets.length := by
    rintro i ⟨socket, hi, hactive⟩
    have hget : (s.sockets ++ [.new])[i]? = some socket := hi
    rw [List.getElem?_append] at hget
    split_ifs at hget with hlt
    · exact absurd ⟨socket, hget, hactive⟩ (hnone i)
    · have hzero : i - s.sockets.length < [Socket.new].length :=
        (List.getElem?_eq_some_iff.mp hget).1
      rw [List.length_singleton] at hzero
      omega
  refine ⟨h.timers, fun hne => absurd htimers hne, fun i j hi hj => ?_, fun i hi => ?_,
    h.scheduled, h.consumed, fun i hi => ?_⟩
  · rw [honly i hi, honly j hj]
  · refine h.fresh i (Or.inr ?_)
    rcases hi with hi | hle
    · exact (honly i hi).ge
    · have hle' : (s.sockets ++ [Socket.new]).length ≤ i := hle
      rw [List.length_append, List.length_singleton] at hle'
      omega
  · obtain ⟨-, hlt, hscheduled⟩ := h.normal i hi
    refine ⟨fun hactive => ?_, ?_, hscheduled⟩
    · have heq := honly i hactive
      omega
    · show i < (s.sockets ++ [Socket.new]).length
      rw [List.length_append]
      omega

/-- **The next attempt** leaves the current socket and makes a new one. -/
theorem OneAttempt.openSocket (h : OneAttempt s) (htimers : s.timers = [])
    (honly : ∀ i, s.IsActive i → s.ws = some i) : OneAttempt s.openSocket := by
  unfold WsClient.openSocket
  cases hws : s.ws with
  | none =>
      refine h.append_new htimers (fun i hi => ?_) _
      cases hws.symm.trans (honly i hi)
  | some j =>
      have hcalms := Calms.leaveSocket s j
      refine (h.of_calms hcalms).append_new htimers (fun i hi => ?_) _
      obtain rfl : j = i := Option.some.inj (hws.symm.trans (honly i (hcalms.active i hi)))
      exact not_isActive_leaveSocket s j hi

/-- A socket that is set to one that is not active is not active. -/
theorem not_isActive_setSocket {socket : Socket} (h : socket.isActive = false) :
    ¬ (s.setSocket i socket).IsActive i := by
  rintro ⟨socket', hi, hactive⟩
  rcases setSocket_cases hi with ⟨-, rfl⟩ | ⟨hne, -⟩
  · rw [h] at hactive
    cases hactive
  · exact hne rfl

/-- The listener of an active socket, and what becomes of an exception. -/
theorem OneAttempt.hear {listener : WsClient → Except WsException Unit × WsClient}
    {socket : Socket} (hunheard : socket.isListened = false → OneAttempt s)
    (hlistener : socket.isListened = true → OneAttempt (listener s).2) :
    OneAttempt (s.hear socket listener) := by
  rcases hear_cases socket listener s with ⟨hl, heq⟩ | ⟨hl, ⟨-, heq⟩ | ⟨e, -, heq⟩⟩
  · rw [heq]
    exact hunheard hl
  · rw [heq]
    exact hlistener hl
  · rw [heq]
    exact (hlistener hl).of_calms (Calms.record _ id)

/-- **An error**: after a failure the client reconnects. -/
theorem OneAttempt.socketError (h : OneAttempt s) (i : ℕ) {code : SocketErrorCode}
    (hcode : ∀ c, code ≠ .other c) : OneAttempt (s.step (.socketError i code)) := by
  rw [step]
  rcases socketEvent_cases i Socket.canFail (Socket.failed code) (onErrorListener i code) s with
    heq | ⟨socket, hi, hcan, heq⟩
  · rw [heq]
    exact h
  · rw [heq]
    have hcalms : Calms s (s.setSocket i (socket.failed code)) :=
      Calms.setSocket hi (Socket.isActive_of_failed hcan)
    have hlost : ¬ (s.setSocket i (socket.failed code)).IsActive i :=
      not_isActive_setSocket (Socket.not_isActive_failed hcode socket)
    refine OneAttempt.hear (fun _ => h.of_calms hcalms) fun hlistened => ?_
    have hactive : s.IsActive i := ⟨socket, hi, Socket.isActive_of_canFail hcan hlistened⟩
    rw [onErrorListener_eq hcode]
    by_cases hretries : s.HasRetries
    · exact h.reconnect hactive hcalms hlost hretries
    · have hdone : ¬ (s.setSocket i (socket.failed code)).HasRetries := hretries
      exact h.of_calms (hcalms.trans (.reconnect hdone i))

/-- **A close**: while there are retries, an orderly one is a loss that was not noticed before. -/
theorem OneAttempt.socketClose (h : OneAttempt s) {code : ℕ}
    (hok : Orderly s (.socketClose i code)) : OneAttempt (s.step (.socketClose i code)) := by
  rw [step]
  rcases socketEvent_cases i (Socket.canClose code) Socket.closed (onCloseListener i code) s with
    heq | ⟨socket, hi, hcan, heq⟩
  · rw [heq]
    exact h
  · rw [heq]
    have hcalms : Calms s (s.setSocket i socket.closed) :=
      Calms.setSocket hi fun hactive => by
        rw [Socket.not_isActive_closed] at hactive
        cases hactive
    have hlost : ¬ (s.setSocket i socket.closed).IsActive i :=
      not_isActive_setSocket (Socket.not_isActive_closed socket)
    refine OneAttempt.hear (fun _ => h.of_calms hcalms) fun hlistened => ?_
    rw [onCloseListener_eq]
    by_cases hretries : s.HasRetries
    · obtain ⟨hcode, hfailed⟩ := hok hretries socket hi hlistened hcan
      have hactive : s.IsActive i :=
        ⟨socket, hi, Socket.isActive_of_canClose hcan hlistened (Or.inl hfailed)⟩
      have hrecord := Calms.record (s.setSocket i socket.closed) (e := .closed i code) hcode
      exact h.reconnect hactive (hcalms.trans hrecord) hlost hretries
    · have hdone : ¬ ((s.setSocket i socket.closed).record (.closed i code)).HasRetries := hretries
      by_cases hcode : code = 1000
      · have hactive : s.IsActive i :=
          ⟨socket, hi, Socket.isActive_of_canClose hcan hlistened (Or.inr hcode)⟩
        exact (h.record_closed hactive hcalms hlost code).of_calms (.reconnect hdone i)
      · have hrecord := Calms.record (s.setSocket i socket.closed) (e := .closed i code) hcode
        exact h.of_calms ((hcalms.trans hrecord).trans (.reconnect hdone i))

/-- **Every orderly step keeps the invariant.** -/
theorem OneAttempt.step (h : OneAttempt s) {a : Action} (hok : Orderly s a) :
    OneAttempt (s.step a) := by
  cases a with
  | connect maxRetries =>
      refine OneAttempt.openSocket (h.of_calms (.of_eq rfl rfl rfl)) hok.1 fun i hi => ?_
      exact hok.2 i (IsActive.lt_length hi) hi
  | timer =>
      rw [WsClient.step]
      cases htimers : s.timers with
      | nil => exact h
      | cons i timers =>
          -- while a timer is set no socket is active
          have hnone : ∀ j, ¬ s.IsActive j := h.exclusive (by rw [htimers]; simp)
          have hlength := h.timers
          rw [htimers, List.length_cons] at hlength
          obtain rfl : timers = [] := List.eq_nil_of_length_eq_zero (by omega)
          refine OneAttempt.openSocket ?_ rfl fun j hj => absurd hj (hnone j)
          exact ⟨Nat.zero_le 1, fun hne => absurd rfl hne, h.unique, h.fresh, h.scheduled,
            h.consumed, h.normal⟩
  | socketError i code =>
      cases code with
      | other code => exact h.of_calms (.step id (fun _ => id) s)
      | _ => exact h.socketError i fun _ heq => by cases heq
  | socketClose i code => exact h.socketClose hok
  | _ => exact h.of_calms (.step id (fun _ => id) s)

/-! ## Runs -/

theorem oneAttempt_new (options : WsOptions) : OneAttempt (new options) where
  timers := Nat.zero_le 1
  exclusive := fun hne => absurd rfl hne
  unique := fun i j hi => by
    obtain ⟨socket, hget, -⟩ := hi
    cases hget
  fresh := fun _ _ => List.not_mem_nil
  scheduled := fun _ => Nat.zero_le 1
  consumed := fun _ => Nat.le_refl 0
  normal := fun i hi => absurd hi List.not_mem_nil

/-- **One lost socket causes at most one reconnect**, in every run of orderly steps: a socket
schedules one attempt at most, consumes one retry at most, schedules none when it closed normally,
and there is one timer at most. -/
theorem one_reconnect (options : WsOptions) (as : List Action)
    (has : Machine.Admissible step Orderly (new options) as) :
    OneReconnect (run (new options) as) := by
  have hone : OneAttempt (run (new options) as) :=
    has.invariant (fun _ _ h hok => h.step hok) (oneAttempt_new options)
  exact hone.oneReconnect

/-- Two attempts fail, each with an error, and the third socket is lost. -/
def orderlyActions : List Action :=
  [.connect (some 5), .socketError 0 .ECONNREFUSED, .timer, .socketError 1 .EAI_AGAIN, .timer,
    .socketOpen 2, .socketClose 2 1006]

/-- Three losses, each with one reconnect. -/
theorem one_reconnect_thrice :
    OneReconnect (run (new ⟨none, none, none, none⟩) orderlyActions) :=
  one_reconnect ⟨none, none, none, none⟩ orderlyActions (by decide)

/-- A failed attempt is followed by a close on the same socket: two reconnects. -/
theorem not_one_reconnect :
    ¬ OneReconnect (run (new ⟨none, none, none, none⟩)
        [.connect (some 5), .socketError 0 .ECONNREFUSED, .socketClose 0 1006]) ∧
      (run (new ⟨none, none, none, none⟩)
        [.connect (some 5), .socketError 0 .ECONNREFUSED, .socketClose 0 1006]).timers = [0, 0] ∧
      ¬ OneReconnect (run (new ⟨none, none, none, none⟩)
        [.connect none, .socketOpen 0, .socketClose 0 1000]) := by
  refine ⟨fun h => ?_, by decide, fun h => ?_⟩
  · have htimers := h.timers
    revert htimers
    decide
  · have hnormal := h.normal 0
    revert hnormal
    decide

end WsClient

end Dapi
