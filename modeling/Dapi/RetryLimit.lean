/-
# The limit of the retries

`src/lib/externalApis/tenderdash/WsClient.js`, the option `maxRetries` of `connect`.  The
closure `reconnect` counts the retries and compares their number with the limit before it
is increased; a limit of `0` is taken for none.

* `Attempts`: what the limit depends on, with an abstract step for each loss, timer and
  `close()`; every run of the client is one of it (`attempts_run`).
* `Counted`: so many reconnects are scheduled, for any number of losses: one more than the
  limit.
* `limitRespected_iff`: the limit is respected as long as it is not exceeded by the losses.
-/
import Dapi.ClientSteps

namespace Dapi

/-! ## The attempts of a client -/

/-- What the limit depends on. -/
structure Attempts where
  url : String
  maxRetries : ℤ
  connectionRetries : ℕ
  /-- the timers that are pending, and the sockets that were made -/
  timers : ℕ
  sockets : ℕ
  /-- the reconnects that were scheduled -/
  scheduled : ℕ
  /-- whether there is a socket in `ws` -/
  hasSocket : Bool
  /-- the `connect:max_retry_exceeded` events -/
  exceeded : ℕ
  connects : List ConnectPromise

/-- What happens to the attempts. -/
inductive AttemptEvent
  | quiet
  | loss
  | timer
  | close
  deriving DecidableEq

namespace Attempts

/-- A socket is reported lost. -/
def lose (a : Attempts) : Attempts :=
  if a.connectionRetries ≤ a.maxRetries ∨ a.maxRetries = -1 then
    { a with
      connectionRetries :=
        if a.maxRetries ≠ -1 then a.connectionRetries + 1 else a.connectionRetries
      timers := a.timers + 1
      scheduled := a.scheduled + 1 }
  else if a.hasSocket then
    { a with
      exceeded := a.exceeded + 1
      connects := a.connects.map (ConnectPromise.settle (.connectMaxRetryExceeded a.url)) }
  else a

/-- A timer makes the next socket. -/
def resume (a : Attempts) : Attempts :=
  if a.timers = 0 then a
  else { a with timers := a.timers - 1, sockets := a.sockets + 1, hasSocket := true }

/-- What an event does to the attempts. -/
def step (a : Attempts) : AttemptEvent → Attempts
  | .quiet => a
  | .loss => a.lose
  | .timer => a.resume
  | .close => { a with hasSocket := false }

/-- The attempts after `connect({ maxRetries: n })`. -/
def start (url : String) (n : ℕ) : Attempts where
  url := url
  maxRetries := if n = 0 then -1 else n
  connectionRetries := 0
  timers := 0
  sockets := 1
  scheduled := 0
  hasSocket := true
  exceeded := 0
  connects := [⟨decide (n ≠ 0), .pending⟩]

end Attempts

/-- A reconnect is scheduled. -/
def WsEvent.isReconnect : WsEvent → Bool
  | .reconnectScheduled _ => true
  | _ => false

/-- `connect:max_retry_exceeded` is emitted. -/
def WsEvent.isExceeded : WsEvent → Bool
  | .emitted (.connectMaxRetryExceeded _) => true
  | _ => false

namespace WsClient

/-- The attempts of the client. -/
def attempts (s : WsClient) : Attempts where
  url := s.url
  maxRetries := s.maxRetries
  connectionRetries := s.connectionRetries
  timers := s.timers.length
  sockets := s.sockets.length
  scheduled := s.log.countP WsEvent.isReconnect
  hasSocket := s.ws.isSome
  exceeded := s.log.countP WsEvent.isExceeded
  connects := s.connects

/-- The client listens to the socket, which is in a state for such an event. -/
def hears (s : WsClient) (i : ℕ) (can : Socket → Bool) : Bool :=
  (s.sockets[i]?).any fun socket => can socket && socket.isListened

/-- What an action is to the attempts: an error after which the client reconnects, or a close, is
a loss when the client hears of it. -/
def attemptEvent (s : WsClient) : Action → AttemptEvent
  | .socketError i code =>
    match code with
    | .EAI_AGAIN | .ECONNREFUSED => if s.hears i Socket.canFail then .loss else .quiet
    | .other _ => .quiet
  | .socketClose i code => if s.hears i (Socket.canClose code) then .loss else .quiet
  | .timer => .timer
  | .close => .close
  | _ => .quiet

/-- There is no other call of `connect()`, and no socket opens. -/
def NeverOpens : Action → Prop
  | .connect _ | .socketOpen _ => False
  | _ => True

/-! ## What the methods do to the attempts -/

variable {s : WsClient} {i j n : ℕ}

theorem attempts_record {e : WsEvent} (hr : e.isReconnect = false) (he : e.isExceeded = false) :
    (s.record e).attempts = s.attempts := by
  simp [attempts, record, hr, he]

theorem attempts_leaveSocket (j : ℕ) : (s.leaveSocket j).attempts = s.attempts := by
  simp [attempts, leaveSocket]

theorem attempts_setSocket (socket : Socket) : (s.setSocket i socket).attempts = s.attempts := by
  simp [attempts, setSocket]

/-- The events of users leave the promises of `connect()` alone. -/
theorem attempts_emit {event : ClientEvent}
    (h : ∀ connect, ConnectPromise.settle event connect = connect)
    (he : (WsEvent.emitted event).isExceeded = false) : (s.emit event).attempts = s.attempts := by
  have hmap : s.connects.map (ConnectPromise.settle event) = s.connects := by
    rw [funext h]
    exact List.map_id _
  have hr : (WsEvent.emitted event).isReconnect = false := rfl
  simp [attempts, emit, record, hmap, hr, he]

/-- **A loss is reported** to `reconnect`. -/
theorem attempts_reconnect (i : ℕ) (s : WsClient) :
    (s.reconnect i).2.attempts = s.attempts.lose := by
  unfold reconnect Attempts.lose
  by_cases hretries : s.HasRetries
  · have hretries' : (s.attempts.connectionRetries : ℤ) ≤ s.attempts.maxRetries ∨
        s.attempts.maxRetries = -1 := hretries
    rw [if_pos hretries, if_pos hretries']
    by_cases hbound : s.maxRetries = -1
    · simp [attempts, record, hbound, WsEvent.isReconnect, WsEvent.isExceeded]
    · simp [attempts, record, hbound, WsEvent.isReconnect, WsEvent.isExceeded]
  · have hretries' : ¬ ((s.attempts.connectionRetries : ℤ) ≤ s.attempts.maxRetries ∨
        s.attempts.maxRetries = -1) := hretries
    rw [if_neg hretries, if_neg hretries']
    rcases disconnect_cases s with ⟨j, hws, heq⟩ | ⟨hws, heq⟩
    · rw [heq]
      simp [attempts, leaveSocket, emit, record, hws, WsEvent.isReconnect, WsEvent.isExceeded]
    · rw [heq]
      simp [attempts, hws]

/-- One more socket. -/
theorem attempts_openSocket :
    s.openSocket.attempts =
      { s.attempts with sockets := s.attempts.sockets + 1, hasSocket := true } := by
  unfold openSocket
  cases s.ws with
  | none => simp [attempts]
  | some j => simp [attempts, leaveSocket]

/-- **What is neither a loss, a timer nor a call about the connection** leaves the attempts as they
were. -/
theorem attempts_step_quiet {a : Action} (ha : NeverOpens a) (hopens : ¬ a.Opens)
    (hloses : ∀ i, ¬ a.Loses i) (hclose : a ≠ .close) : (s.step a).attempts = s.attempts := by
  have hkeeps : Keeps a fun s' => s'.attempts = s.attempts := by
    intro s₁ s₂ h hchange
    refine Eq.trans ?_ h
    cases hchange with
    | reset _ _ heq =>
        obtain ⟨n, rfl⟩ := heq
        exact ha.elim
    | released heq => exact absurd heq hclose
    | fired _ _ heq =>
        subst heq
        exact absurd trivial hopens
    | left j => exact attempts_leaveSocket j
    | made hmade => exact absurd hmade hopens
    | moved i socket socket' => exact attempts_setSocket socket'
    | connected => rfl
    | requested query => exact attempts_record (s := s₁) rfl rfl
    | lowered query => rfl
    | dropped query => exact attempts_record (s := s₁) rfl rfl
    | scheduled i _ _ hlost => exact absurd hlost (hloses i)
    | emitted event hemits =>
        -- only messages, and errors that are no losses, are left
        cases a with
        | socketOpen i => exact ha.elim
        | socketError i code =>
            cases code with
            | other code =>
                obtain rfl : event = _ := hemits
                exact attempts_emit (fun _ => rfl) rfl
            | _ => exact absurd rfl (hloses i)
        | socketClose i code => exact absurd rfl (hloses i)
        | socketMessage i message =>
            obtain ⟨query, -, rfl⟩ := hemits
            exact attempts_emit (fun _ => rfl) rfl
        | _ => exact hemits.elim
    | _ => exact attempts_record rfl rfl
  exact hkeeps.step rfl

/-- An event of a socket whose listener reports a loss is a loss, when it is heard. -/
theorem attempts_socketEvent {can : Socket → Bool} {change : Socket → Socket}
    {listener : WsClient → Except WsException Unit × WsClient}
    (hlistener : ∀ s, (listener s).2.attempts = s.attempts.lose) :
    (s.socketEvent i can change listener).attempts =
      s.attempts.step (if s.hears i can then .loss else .quiet) := by
  unfold socketEvent hears
  cases s.sockets[i]? with
  | none => rfl
  | some socket =>
      rw [Option.any_some]
      simp only
      by_cases hcan : can socket = true
      · rw [if_pos hcan, hcan, Bool.true_and]
        rcases hear_cases socket listener (s.setSocket i (change socket)) with
          ⟨hl, heq⟩ | ⟨hl, ⟨-, heq⟩ | ⟨e, -, heq⟩⟩
        · rw [heq, hl, attempts_setSocket]
          rfl
        · rw [heq, hl, hlistener, attempts_setSocket]
          rfl
        · rw [heq, hl, attempts_record rfl rfl, hlistener, attempts_setSocket]
          rfl
      · rw [if_neg hcan, Bool.eq_false_of_not_eq_true hcan]
        rfl

/-- A close is a loss. -/
theorem attempts_onCloseListener (i code : ℕ) (s : WsClient) :
    (s.onCloseListener i code).2.attempts = s.attempts.lose := by
  rw [onCloseListener_eq, attempts_reconnect, attempts_record rfl rfl]

/-- A closed client has no socket. -/
theorem attempts_close (s : WsClient) :
    s.close.2.attempts = { s.attempts with hasSocket := false } := by
  unfold close
  cases hws : s.ws with
  | none => simp [attempts, hws]
  | some j =>
      simp only
      split_ifs
      · simp [attempts, leaveSocket]
      · rfl

/-- **A step of the client is a step of its attempts.** -/
theorem attempts_step (s : WsClient) (a : Action) (ha : NeverOpens a) :
    (s.step a).attempts = s.attempts.step (s.attemptEvent a) := by
  cases a with
  | connect maxRetries => exact absurd ha id
  | socketOpen i => exact absurd ha id
  | close => exact attempts_close s
  | timer =>
      show _ = s.attempts.resume
      rw [WsClient.step, Attempts.resume]
      cases htimers : s.timers with
      | nil => simp [attempts, htimers]
      | cons i timers =>
          simp only [attempts_openSocket]
          simp [attempts, htimers]
  | socketError i code =>
      cases code with
      | other code => exact attempts_step_quiet trivial id (fun _ => id) (by simp)
      | _ => exact attempts_socketEvent (attempts_reconnect i)
  | socketClose i code => exact attempts_socketEvent (attempts_onCloseListener i code)
  | _ => exact attempts_step_quiet trivial id (fun _ => id) (by simp)

/-! ## The law of the attempts -/

end WsClient

namespace Attempts

variable {a : Attempts} {n losses : ℕ}

/-- With a limit `n`, the losses schedule `n + 1` reconnects; without one, each of them does. -/
structure Counted (n losses : ℕ) (a : Attempts) : Prop where
  maxRetries : a.maxRetries = if n = 0 then -1 else (n : ℤ)
  scheduled : a.scheduled = if n = 0 then losses else min losses (n + 1)
  retries : n ≠ 0 → a.connectionRetries = a.scheduled
  opened : a.sockets + a.timers = a.scheduled + 1

/-- At first there is one socket and no loss. -/
theorem counted_start (url : String) (n : ℕ) : Counted n 0 (start url n) where
  maxRetries := rfl
  scheduled := by simp [start]
  retries := fun _ => rfl
  opened := rfl

/-- The retries are exceeded one loss later than the limit says. -/
theorem Counted.hasRetries_iff (h : Counted n losses a) :
    (a.connectionRetries ≤ a.maxRetries ∨ a.maxRetries = -1) ↔ n = 0 ∨ losses ≤ n := by
  have hm := h.maxRetries
  by_cases hn : n = 0
  · rw [if_pos hn] at hm
    exact iff_of_true (Or.inr hm) (Or.inl hn)
  · have hr := (h.retries hn).trans h.scheduled
    rw [if_neg hn] at hm hr
    omega

/-- One more loss is counted. -/
theorem Counted.lose (h : Counted n losses a) : Counted n (losses + 1) a.lose := by
  have hm := h.maxRetries
  have hs := h.scheduled
  have hr := h.retries
  have ho := h.opened
  unfold Attempts.lose
  by_cases hretries : n = 0 ∨ losses ≤ n
  · rw [if_pos (h.hasRetries_iff.mpr hretries)]
    refine ⟨hm, ?_, fun hn => ?_, ?_⟩
    · show a.scheduled + 1 = _
      split_ifs at hs ⊢ <;> omega
    · -- with a limit the retry is counted
      have hlimit : a.maxRetries ≠ -1 := by
        rw [hm, if_neg hn]
        omega
      show (if a.maxRetries ≠ -1 then a.connectionRetries + 1 else a.connectionRetries) = _
      rw [if_pos hlimit, hr hn]
    · show a.sockets + (a.timers + 1) = a.scheduled + 1 + 1
      omega
  · rw [if_neg fun hhas => hretries (h.hasRetries_iff.mp hhas)]
    push Not at hretries
    -- no retry is left: the loss schedules nothing, and the bound was reached before
    have hs' : a.scheduled = if n = 0 then losses + 1 else min (losses + 1) (n + 1) := by
      rw [hs, if_neg hretries.1, if_neg hretries.1]
      omega
    split_ifs
    · exact ⟨hm, hs', hr, ho⟩
    · exact ⟨hm, hs', hr, ho⟩

/-- **Every step counts its losses.** -/
theorem Counted.step (h : Counted n losses a) (e : AttemptEvent) :
    Counted n (losses + [e].count .loss) (a.step e) := by
  cases e with
  | loss => exact h.lose
  | timer =>
      show Counted n losses a.resume
      have ho := h.opened
      unfold resume
      split_ifs with htimers
      · exact h
      · refine ⟨h.maxRetries, h.scheduled, h.retries, ?_⟩
        show a.sockets + 1 + (a.timers - 1) = a.scheduled + 1
        omega
  | quiet => exact h
  | close => exact ⟨h.maxRetries, h.scheduled, h.retries, h.opened⟩

/-- **Losses are counted**, in every run. -/
theorem counted_run (url : String) (n : ℕ) (es : List AttemptEvent) :
    Counted n (es.count .loss) (Machine.run step (start url n) es) := by
  refine Machine.run_induction (P := fun es a => Counted n (es.count .loss) a)
    (counted_start url n) (fun es e h => ?_) es
  rw [List.count_append]
  exact h.step e

/-- The promise of `connect()` after so many losses. -/
def connectAfter (n losses : ℕ) : ConnectPromise where
  rejectsOnMaxRetry := decide (n ≠ 0)
  promise :=
    if n ≠ 0 ∧ n + 1 < losses then .rejected "Connection dropped. Max retries exceeded."
    else .pending

/-- A further loss leaves the promise alone while there are retries. -/
theorem connectAfter_succ (h : n = 0 ∨ losses ≤ n) :
    connectAfter n (losses + 1) = connectAfter n losses := by
  unfold connectAfter
  rw [if_neg (by omega), if_neg (by omega)]

/-- A further loss rejects the promise, when it is not rejected already. -/
theorem settle_connectAfter (url : String) (hn : n ≠ 0) (h : n < losses) :
    ConnectPromise.settle (.connectMaxRetryExceeded url) (connectAfter n losses) =
      connectAfter n (losses + 1) := by
  unfold connectAfter ConnectPromise.settle
  simp only [hn, ne_eq, not_false_eq_true, decide_true, if_true, true_and]
  rw [if_pos (show n + 1 < losses + 1 by omega)]
  split_ifs <;> rfl

/-- As long as nobody calls `close()`, the losses after the reconnects are reported. -/
structure Reported (n losses : ℕ) (a : Attempts) : Prop extends Counted n losses a where
  hasSocket : a.hasSocket = true
  exceeded : a.exceeded = if n = 0 then 0 else losses - (n + 1)
  connects : a.connects = [connectAfter n losses]

/-- At first nothing is reported. -/
theorem reported_start (url : String) (n : ℕ) : Reported n 0 (start url n) where
  toCounted := counted_start url n
  hasSocket := rfl
  exceeded := by simp [start]
  connects := by simp [start, connectAfter]

/-- A loss beyond the limit is reported. -/
theorem Reported.lose (h : Reported n losses a) : Reported n (losses + 1) a.lose := by
  have hx := h.exceeded
  refine ⟨h.toCounted.lose, ?_, ?_, ?_⟩
  all_goals unfold Attempts.lose
  all_goals by_cases hretries : n = 0 ∨ losses ≤ n
  · rw [if_pos (h.hasRetries_iff.mpr hretries)]
    exact h.hasSocket
  · rw [if_neg fun hhas => hretries (h.hasRetries_iff.mp hhas), if_pos h.hasSocket]
    exact h.hasSocket
  · rw [if_pos (h.hasRetries_iff.mpr hretries)]
    show a.exceeded = _
    split_ifs at hx ⊢ <;> omega
  · rw [if_neg fun hhas => hretries (h.hasRetries_iff.mp hhas), if_pos h.hasSocket]
    show a.exceeded + 1 = _
    split_ifs at hx ⊢ <;> omega
  · rw [if_pos (h.hasRetries_iff.mpr hretries), connectAfter_succ hretries]
    exact h.connects
  · rw [if_neg fun hhas => hretries (h.hasRetries_iff.mp hhas), if_pos h.hasSocket]
    push Not at hretries
    show a.connects.map _ = _
    rw [h.connects, List.map_singleton, settle_connectAfter a.url hretries.1 hretries.2]

/-- Every step other than a close keeps to that. -/
theorem Reported.step (h : Reported n losses a) {e : AttemptEvent} (he : e ≠ .close) :
    Reported n (losses + [e].count .loss) (a.step e) := by
  cases e with
  | loss => exact h.lose
  | timer =>
      have hc := h.toCounted.step .timer
      show Reported n losses a.resume
      have hc' : Counted n losses a.resume := hc
      unfold resume at hc' ⊢
      split_ifs at hc' ⊢
      · exact h
      · exact ⟨hc', rfl, h.exceeded, h.connects⟩
  | quiet => exact h
  | close => exact absurd rfl he

/-- **Losses beyond the limit are reported**, in every run without a close. -/
theorem reported_run (url : String) (n : ℕ) (es : List AttemptEvent) (hes : .close ∉ es) :
    Reported n (es.count .loss) (Machine.run step (start url n) es) := by
  induction es using List.reverseRecOn with
  | nil => exact reported_start url n
  | append_singleton es e ih =>
      rw [List.mem_append, not_or, List.mem_singleton] at hes
      rw [List.count_append, Machine.run_append]
      exact (ih hes.1).step (Ne.symm hes.2)

end Attempts

/-! ## Runs -/

namespace WsClient

variable {n : ℕ} {as : List Action}

/-- A new client, after `connect({ maxRetries: n })`. -/
def connecting (options : WsOptions) (n : ℕ) : WsClient :=
  (new options).connect (some (n : ℤ))

/-- What happens to the attempts in a run. -/
def attemptEvents (options : WsOptions) (n : ℕ) (as : List Action) : List AttemptEvent :=
  Machine.outputs step (fun s a => [s.attemptEvent a]) (connecting options n) as

/-- The losses that the client hears of in a run. -/
def losses (options : WsOptions) (n : ℕ) (as : List Action) : ℕ :=
  (attemptEvents options n as).count .loss

/-- The attempts of a client that connects. -/
theorem attempts_connecting (options : WsOptions) (n : ℕ) :
    (connecting options n).attempts = Attempts.start (new options).url n := by
  by_cases hn : n = 0
  · subst hn
    rfl
  · have hlimit : (n : ℤ) ≠ -1 := by omega
    unfold connecting connect
    rw [attempts_openSocket]
    simp [attempts, Attempts.start, new, hn, hlimit]

/-- **A run of the client is a run of its attempts.** -/
theorem attempts_run (options : WsOptions) (has : ∀ a ∈ as, NeverOpens a) :
    (run (connecting options n) as).attempts =
      Machine.run Attempts.step (Attempts.start (new options).url n)
        (attemptEvents options n as) := by
  rw [← attempts_connecting]
  exact Machine.run_outputs attempts_step has

/-- **The limit as the code has it**: with a limit `n` that is not `0`, the losses schedule `n + 1`
reconnects at most, and with the limit `0` each of them does. -/
theorem reconnects_run (options : WsOptions) (has : ∀ a ∈ as, NeverOpens a) :
    (run (connecting options n) as).log.countP WsEvent.isReconnect =
        (if n = 0 then losses options n as else min (losses options n as) (n + 1)) ∧
      (run (connecting options n) as).sockets.length +
          (run (connecting options n) as).timers.length =
        (run (connecting options n) as).log.countP WsEvent.isReconnect + 1 := by
  have hcounted := Attempts.counted_run (new options).url n (attemptEvents options n as)
  rw [← attempts_run options has] at hcounted
  exact ⟨hcounted.scheduled, hcounted.opened⟩

/-- Only a call of `close()` is one to the attempts. -/
theorem not_close_mem_attemptEvents (options : WsOptions) (n : ℕ) (hclose : .close ∉ as) :
    .close ∉ attemptEvents options n as := by
  intro hmem
  obtain ⟨s, a, ha, heq⟩ := Machine.exists_of_mem_outputs hmem
  rw [List.mem_singleton] at heq
  cases a with
  | close => exact hclose ha
  | socketError i code =>
      unfold attemptEvent at heq
      cases code with
      | other code => cases heq
      | _ =>
          simp only at heq
          split_ifs at heq
  | socketClose i code =>
      unfold attemptEvent at heq
      simp only at heq
      split_ifs at heq
  | _ => cases heq

/-- A loss after these is reported, and rejects the promise of `connect()`, when nobody has called
`close()`. -/
theorem exceeded_run (options : WsOptions) (has : ∀ a ∈ as, NeverOpens a)
    (hclose : .close ∉ as) :
    (run (connecting options n) as).log.countP WsEvent.isExceeded =
        (if n = 0 then 0 else losses options n as - (n + 1)) ∧
      (run (connecting options n) as).connects =
        [Attempts.connectAfter n (losses options n as)] := by
  have hreported :=
    Attempts.reported_run (new options).url n (attemptEvents options n as)
      (not_close_mem_attemptEvents options n hclose)
  rw [← attempts_run options has] at hreported
  exact ⟨hreported.exceeded, hreported.connects⟩

/-- **The retry limit**: `n` reconnects at most are scheduled, and no other sockets are made; with
one loss more, the client reports that the retries are exceeded and `connect()` is rejected. -/
structure LimitRespected (n losses : ℕ) (s : WsClient) : Prop where
  scheduled : s.log.countP WsEvent.isReconnect ≤ n
  sockets : s.sockets.length ≤ n + 1
  exceeded : n < losses → .emitted (.connectMaxRetryExceeded s.url) ∈ s.log ∧
    ∃ connect ∈ s.connects, ∃ message, connect.promise = .rejected message

/-- **The limit is respected as long as the losses do not exceed it**, and no longer: in every run
without another `connect()` and without a socket that opens. -/
theorem limitRespected_iff (options : WsOptions) (n : ℕ) (as : List Action)
    (has : ∀ a ∈ as, NeverOpens a) :
    LimitRespected n (losses options n as) (run (connecting options n) as) ↔
      losses options n as ≤ n := by
  obtain ⟨hscheduled, hopened⟩ := reconnects_run (n := n) options has
  constructor
  · intro h
    have hle := h.scheduled
    rw [hscheduled] at hle
    split_ifs at hle <;> omega
  · intro hle
    have hcount : (run (connecting options n) as).log.countP WsEvent.isReconnect ≤ n := by
      rw [hscheduled]
      split_ifs <;> omega
    exact ⟨hcount, by omega, fun hlt => by omega⟩

/-- One socket is refused, with one retry. -/
theorem limitRespected_iff_once :
    LimitRespected 1 (losses ⟨none, none, none, none⟩ 1 [.socketError 0 .ECONNREFUSED, .timer])
      (run (connecting ⟨none, none, none, none⟩ 1) [.socketError 0 .ECONNREFUSED, .timer]) :=
  (limitRespected_iff ⟨none, none, none, none⟩ 1 [.socketError 0 .ECONNREFUSED, .timer]
    (by simp [NeverOpens])).mpr (by decide)

/-- With one retry two reconnects are scheduled, and with none there is one. -/
theorem not_limitRespected :
    ¬ LimitRespected 1
        (losses ⟨none, none, none, none⟩ 1
          [.socketError 0 .ECONNREFUSED, .timer, .socketError 1 .ECONNREFUSED])
        (run (connecting ⟨none, none, none, none⟩ 1)
          [.socketError 0 .ECONNREFUSED, .timer, .socketError 1 .ECONNREFUSED]) ∧
      ¬ LimitRespected 0 (losses ⟨none, none, none, none⟩ 0 [.socketError 0 .ECONNREFUSED])
        (run (connecting ⟨none, none, none, none⟩ 0) [.socketError 0 .ECONNREFUSED]) := by
  refine ⟨fun h => ?_, fun h => ?_⟩
  · have hscheduled := h.scheduled
    revert hscheduled
    decide
  · have hscheduled := h.scheduled
    revert hscheduled
    decide

end WsClient

end Dapi
