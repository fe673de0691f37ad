/-
# The ZMQ client

`src/lib/externalApis/dashcore/ZmqClient.js`.  The client listens to a subscriber socket, counts
the failures of its connection, and hands messages on under their topics.

* An event of the socket is a `SocketEvent`; the listeners of `start` are `ZmqClient.handle`.  The
  error of too many failures is not caught, in an event of the socket.
* `failuresSinceConnect` counts the failures at the end of a list of events.
* `ZmqClient.handled`, `ZmqClient.handle_error_iff`: the counter of the client is that count, and
  an error is thrown when it is too high.
-/
import Dapi.Trace

namespace Dapi

/-- An event of the subscriber socket, with what the client reads of it. -/
inductive SocketEvent
  | connect
  | connectDelay
  | disconnect
  | monitorError (error : String)
  | message (topic : String) (payload : List UInt8)
  deriving DecidableEq

/-- The connection has failed. -/
def SocketEvent.isFailure : SocketEvent → Bool
  | .connectDelay | .disconnect | .monitorError _ => true
  | _ => false

/-- What an event is emitted with. -/
inductive ZmqArgument
  | text (message : String)
  | frame (payload : List UInt8)
  deriving DecidableEq

namespace ZmqClient.Events

/-- The connection takes long. -/
def CONNECTION_DELAY : String := "CONNECTION_DELAY"

/-- The connection is lost. -/
def DISCONNECTED : String := "DISCONNECTED"

/-- The monitor has failed. -/
def MONITOR_ERROR : String := "MONITOR_ERROR"

end ZmqClient.Events

/-- `ZMQ_TOPICS` -/
def ZMQ_TOPICS : List String :=
  ["hashtx", "hashtxlock", "hashblock", "rawblock", "rawtx", "rawtxlock", "rawtxlocksig"]

/-- `class ZmqClient`.  `isStarted` says whether the promise of `start` is resolved, `restarts`
counts the timers that start the monitor again. -/
structure ZmqClient where
  topics : List String
  maxRetryCount : ℕ
  connectionFailuresCount : ℕ
  subscriptions : List String
  isStarted : Bool
  monitors : ℕ
  restarts : ℕ

namespace ZmqClient

/-- `defaultOptions.maxRetryCount` -/
def defaultMaxRetryCount : ℕ := 20

/-- `new ZmqClient(host, port)` -/
def new : ZmqClient where
  topics := ZMQ_TOPICS
  maxRetryCount := defaultMaxRetryCount
  connectionFailuresCount := 0
  subscriptions := []
  isStarted := false
  monitors := 0
  restarts := 0

/-- `this.subscriberSocket.monitor(500, 0)` -/
def startMonitor (client : ZmqClient) : ZmqClient := { client with monitors := client.monitors + 1 }

/-- The method `start`, up to the first event. -/
def start (client : ZmqClient) : ZmqClient :=
  { client with subscriptions := client.topics }.startMonitor

/-- The listeners for `connect`: the one that resolves the promise, and the one that resets. -/
def onConnect (client : ZmqClient) : ZmqClient :=
  { client with isStarted := true, connectionFailuresCount := 0 }

/-- The method `incrementErrorCount`. -/
def incrementErrorCount (client : ZmqClient) : Except String Unit × ZmqClient :=
  let client := { client with connectionFailuresCount := client.connectionFailuresCount + 1 }
  if client.maxRetryCount ≤ client.connectionFailuresCount then
    (.error ("Failed to connect to ZMQ after " ++ toString client.maxRetryCount ++ " tries"),
      client)
  else (.ok (), client)

/-- What the client emits for an event of the socket, before anything else. -/
def emission : SocketEvent → Option (String × ZmqArgument)
  | .connect => none
  | .connectDelay => some (Events.CONNECTION_DELAY, .text "Dashcore ZMQ connection delay")
  | .disconnect => some (Events.DISCONNECTED, .text "Dashcore ZMQ connection is lost")
  | .monitorError error => some (Events.MONITOR_ERROR, .text error)
  | .message topic payload => some (topic, .frame payload)

/-- The rest of the listeners for an event of the socket. -/
def handle (client : ZmqClient) : SocketEvent → Except String Unit × ZmqClient
  | .connect => (.ok (), client.onConnect)
  | .connectDelay | .disconnect => client.incrementErrorCount
  | .monitorError _ =>
    match client.incrementErrorCount with
    | (.ok (), client) => (.ok (), { client with restarts := client.restarts + 1 })
    | r => r
  | .message _ _ => (.ok (), client)

/-- The timer that starts the monitor again. -/
def restartMonitor (client : ZmqClient) : ZmqClient :=
  if client.restarts = 0 then client
  else { client with restarts := client.restarts - 1 }.startMonitor

end ZmqClient

/-! ## What a client counts -/

/-- The failures since the last `connect`. -/
def failuresSinceConnect (events : List SocketEvent) : ℕ :=
  (events.rtakeWhile (fun event => decide (event ≠ .connect))).countP SocketEvent.isFailure

@[simp] theorem failuresSinceConnect_nil : failuresSinceConnect [] = 0 := rfl

/-- A `connect` starts the count again. -/
theorem failuresSinceConnect_connect (events : List SocketEvent) :
    failuresSinceConnect (events ++ [.connect]) = 0 := by
  unfold failuresSinceConnect
  rw [List.rtakeWhile_concat, if_neg (by decide)]
  rfl

/-- Another event counts when it is a failure. -/
theorem failuresSinceConnect_snoc (events : List SocketEvent) {event : SocketEvent}
    (h : event ≠ .connect) : failuresSinceConnect (events ++ [event]) =
      failuresSinceConnect events + if event.isFailure then 1 else 0 := by
  unfold failuresSinceConnect
  rw [List.rtakeWhile_concat, if_pos (by simpa using h), List.countP_append, List.countP_singleton]

/-- A failure that is one too many, after the events before it. -/
def IsLastFailure (maxRetryCount : ℕ) (before : List SocketEvent) (event : SocketEvent) : Prop :=
  event.isFailure = true ∧ maxRetryCount ≤ failuresSinceConnect before + 1

/-- An outage adds its failures. -/
theorem failuresSinceConnect_append {events outage : List SocketEvent}
    (h : .connect ∉ outage) : failuresSinceConnect (events ++ outage) =
      failuresSinceConnect events + outage.countP SocketEvent.isFailure := by
  induction outage using List.reverseRecOn with
  | nil => rw [List.append_nil, List.countP_nil, Nat.add_zero]
  | append_singleton outage event ih =>
      have hne : event ≠ .connect := fun heq => h (by simp [heq])
      rw [← List.append_assoc, failuresSinceConnect_snoc _ hne,
        ih fun hmem => h (List.mem_append_left _ hmem), List.countP_append, List.countP_singleton,
        Nat.add_assoc]

/-- **Outages.**  Some failure is one too many exactly when that many failures follow one another
without a `connect`. -/
theorem sometime_isLastFailure_iff {maxRetryCount : ℕ} (hmax : 0 < maxRetryCount)
    {events : List SocketEvent} : Trace.Sometime (IsLastFailure maxRetryCount) events ↔
      ∃ outage, outage <:+: events ∧ .connect ∉ outage ∧
        maxRetryCount ≤ outage.countP SocketEvent.isFailure := by
  constructor
  · rintro ⟨before, event, after, rfl, hfailure, hle⟩
    obtain ⟨start, hstart⟩ :=
      List.rtakeWhile_suffix (fun event : SocketEvent => decide (event ≠ .connect)) before
    refine ⟨before.rtakeWhile (fun event => decide (event ≠ .connect)) ++ [event],
      ⟨start, after, ?_⟩, ?_, ?_⟩
    · conv_rhs => rw [← hstart]
      simp
    · intro hmem
      rcases List.mem_append.mp hmem with hmem | hmem
      · simpa using List.mem_rtakeWhile_imp hmem
      · rw [← List.mem_singleton.mp hmem] at hfailure
        cases hfailure
    · rw [List.countP_append, List.countP_singleton, if_pos hfailure]
      exact hle
  · rintro ⟨outage, ⟨start, after, rfl⟩, hconnect, hle⟩
    -- the last failure of the outage is the one
    induction outage using List.reverseRecOn generalizing after with
    | nil => exact absurd hle (not_le.mpr hmax)
    | append_singleton outage event ih =>
        have hconnect' : .connect ∉ outage := fun hmem => hconnect (List.mem_append_left _ hmem)
        rw [List.countP_append, List.countP_singleton] at hle
        by_cases hfailure : event.isFailure = true
        · rw [if_pos hfailure] at hle
          refine ⟨start ++ outage, event, after, by simp, hfailure, ?_⟩
          rw [failuresSinceConnect_append hconnect']
          omega
        · rw [if_neg hfailure] at hle
          have hsometime := ih (event :: after) hconnect' hle
          rwa [show start ++ outage ++ event :: after = start ++ (outage ++ [event]) ++ after by
            simp] at hsometime

namespace ZmqClient

variable {client : ZmqClient} {event : SocketEvent}

/-- One more failure is counted. -/
theorem incrementErrorCount_snd (client : ZmqClient) : client.incrementErrorCount.2 =
    { client with connectionFailuresCount := client.connectionFailuresCount + 1 } := by
  unfold incrementErrorCount
  simp only
  split_ifs <;> rfl

/-- The client raises when the limit is reached. -/
theorem incrementErrorCount_ok_iff : client.incrementErrorCount.1 = .ok () ↔
    client.connectionFailuresCount + 1 < client.maxRetryCount := by
  unfold incrementErrorCount
  simp only
  split_ifs with hmax
  · exact iff_of_false (fun h => by cases h) (not_lt.mpr hmax)
  · exact iff_of_true rfl (not_le.mp hmax)

/-- The listeners of a failure count it. -/
theorem handle_of_isFailure (h : event.isFailure = true) :
    (client.handle event).1 = client.incrementErrorCount.1 ∧
      ∃ restarts, (client.handle event).2 = { client with
        connectionFailuresCount := client.connectionFailuresCount + 1, restarts } := by
  have hcount := incrementErrorCount_snd client
  cases event with
  | connect => cases h
  | message topic payload => cases h
  | monitorError error =>
      unfold handle
      rcases hresult : client.incrementErrorCount with ⟨_ | _, client'⟩
      · rw [hresult] at hcount
        exact ⟨rfl, client.restarts, hcount⟩
      · rw [hresult] at hcount
        obtain rfl := hcount
        exact ⟨rfl, client.restarts + 1, rfl⟩
  | _ => exact ⟨rfl, client.restarts, hcount⟩

/-- **What the listeners for an event do.**  The counter follows the events, the promise of `start`
is resolved by a `connect`, and an error is thrown at a failure that is one too many. -/
structure Handled (client : ZmqClient) (event : SocketEvent) (client' : ZmqClient) : Prop where
  maxRetryCount : client'.maxRetryCount = client.maxRetryCount
  isStarted : client'.isStarted = (client.isStarted || decide (event = .connect))
  count : ∀ events, client.connectionFailuresCount = failuresSinceConnect events →
    client'.connectionFailuresCount = failuresSinceConnect (events ++ [event])

/-- A failure is no `connect`. -/
theorem ne_connect_of_isFailure (h : event.isFailure = true) : event ≠ .connect := by
  rintro rfl
  cases h

/-- What the listeners have done for an event. -/
theorem handled (client : ZmqClient) (event : SocketEvent) :
    Handled client event (client.handle event).2 := by
  by_cases hfailure : event.isFailure = true
  · have hne := ne_connect_of_isFailure hfailure
    obtain ⟨-, restarts, heq⟩ : _ ∧ ∃ restarts, (client.handle event).2 = _ :=
      handle_of_isFailure hfailure
    rw [heq]
    refine ⟨rfl, by simp [hne], fun events h => ?_⟩
    rw [failuresSinceConnect_snoc events hne, if_pos hfailure, ← h]
  · cases event with
    | connect =>
        refine ⟨rfl, (Bool.or_true _).symm, fun events _ => ?_⟩
        rw [failuresSinceConnect_connect]
        rfl
    | message topic payload =>
        refine ⟨rfl, (Bool.or_false _).symm, fun events h => ?_⟩
        rw [failuresSinceConnect_snoc events (by simp)]
        exact h
    | _ => exact absurd rfl hfailure

/-- The listeners throw at a failure that is one too many. -/
theorem handle_error_iff {events : List SocketEvent}
    (h : client.connectionFailuresCount = failuresSinceConnect events) :
    (client.handle event).1 ≠ .ok () ↔ IsLastFailure client.maxRetryCount events event := by
  by_cases hfailure : event.isFailure = true
  · rw [(handle_of_isFailure hfailure).1, Ne, incrementErrorCount_ok_iff, h, not_lt]
    exact ⟨fun hle => ⟨hfailure, hle⟩, fun hlast => hlast.2⟩
  · refine iff_of_false ?_ (fun hlast => hfailure hlast.1)
    cases event with
    | connect => simp [handle]
    | message topic payload => simp [handle]
    | _ => exact absurd rfl hfailure

end ZmqClient

end Dapi
