import Jterm.Lib.Runs
import Jterm.Page.Emsocket

/-!
The received bytes across the close of the socket. The WebSocket brings messages until it
is closed, `recv` takes them from `ws_buffer` in pieces of its own. Against them stands the
stream a TCP socket would give: every byte received, less those returned. `jss_recv` looks
at the closed socket before it looks at `ws_buffer`, so what is left there at the close is
never returned.
-/
namespace Jterm.Page

open Runs

/-- What happens to the socket while no reader callback is active. -/
inductive SocketEvent
  | onopen
  | onmessage (array : List UInt8)
  | closing
  | onclose
  | recv (length : ℕ)
  deriving DecidableEq, Repr

/-- The `readyState` only moves on: an open, a closing handshake and the close. -/
def ReadyState.after : ReadyState → SocketEvent → ReadyState
  | .connecting, .onopen => .opened
  | .connecting, .closing => .closing
  | .opened, .closing => .closing
  | _, .onclose => .closed
  | readyState, _ => readyState

/-- The C side's `recv`: what `jss_recv` returns, a negative result also put in `errno`. -/
def recv (em : Emsocket) (errno : ℤ) (length : ℕ) : Option (ℤ × ℤ × List UInt8 × Emsocket) :=
  (jssRecv em length).map fun (ret, data, em) => (ret, if ret < 0 then -ret else errno, data, em)

/-- The page and, beside it, all bytes the messages brought and all that `recv` returned. -/
structure SocketRun where
  em : Emsocket
  errno : ℤ
  received : List UInt8
  returned : List UInt8
  deriving DecidableEq, Repr

/-- A socket on which `connect` was just called. -/
def SocketRun.start (serverAddress : List UInt16) : SocketRun :=
  ⟨(jssConnect (.initial serverAddress)).2, 0, [], []⟩

/-- The handlers run only where the WebSocket fires them: `onopen` on a connecting socket,
`onmessage` on an open one, `onclose` once. -/
def SocketRun.step (run : SocketRun) (event : SocketEvent) : SocketRun :=
  let before := run.em.serversocket
  let em := { run.em with serversocket := before.map (·.after event) }
  match event with
  | .onopen => if before = some .connecting then { run with em := onopen em } else run
  | .onmessage array =>
    if before = some .opened then
      { run with em := onmessage em array, received := run.received ++ array }
    else run
  | .closing => { run with em := em }
  | .onclose => if before = some .closed then run else { run with em := onclose em }
  | .recv length =>
    match recv run.em run.errno length with
    | some (_, errno, data, em) => ⟨em, errno, run.received, run.returned ++ data⟩
    | none => run

/-- A `recv` is a TCP stream's: while a received byte is left it returns the next ones, and
it reports the closed connection only when none is left. -/
def StreamRecv (run : SocketRun) : SocketEvent → Prop
  | .recv length => ∃ rest ret errno data em,
      run.received = run.returned ++ rest ∧
        recv run.em run.errno length = some (ret, errno, data, em) ∧
        (ret = connectionClosed → rest = []) ∧
        (rest ≠ [] → ret = ↑(min length rest.length) ∧ data = rest.take length)
  | _ => True

/-- The socket's state and the number of bytes not yet returned, read off the events. -/
def countUnread : ReadyState × ℕ → SocketEvent → ReadyState × ℕ
  | (readyState, unread), event =>
    (readyState.after event,
      match event with
      | .onmessage array => if readyState = .opened then unread + array.length else unread
      | .recv length => if readyState = .closed then unread else unread - length
      | _ => unread)

/-- No `recv` meets a closed socket with bytes still unread. -/
def ReadBeforeClose : ReadyState × ℕ → SocketEvent → Prop
  | (readyState, unread), .recv _ => readyState = .closed → unread = 0
  | _, _ => True

/-- What the events keep: the bytes received are those returned and those in `ws_buffer`. -/
structure SocketRun.Counts (run : SocketRun) (count : ReadyState × ℕ) : Prop where
  socket : run.em.serversocket = some count.1
  unread : run.em.wsBuffer.length = count.2
  split : run.received = run.returned ++ run.em.wsBuffer

theorem SocketRun.start_counts (serverAddress : List UInt16) :
    (SocketRun.start serverAddress).Counts (.connecting, 0) := ⟨rfl, rfl, rfl⟩

theorem recv_closed {em : Emsocket} (errno : ℤ) (length : ℕ)
    (hclosed : em.serversocket = some .closed) :
    recv em errno length = some (-107, 107, [], { em with jssClosed := true }) := by
  simp [recv, jssRecv, hclosed, connectionClosed]

theorem recv_empty {em : Emsocket} {readyState : ReadyState} (errno : ℤ) (length : ℕ)
    (hsocket : em.serversocket = some readyState) (hopen : readyState ≠ .closed)
    (hempty : em.wsBuffer = []) : recv em errno length = some (-11, 11, [], em) := by
  simp [recv, jssRecv, hsocket, hopen, hempty, eagain]

theorem recv_bytes {em : Emsocket} {readyState : ReadyState} (errno : ℤ) (length : ℕ)
    (hsocket : em.serversocket = some readyState) (hopen : readyState ≠ .closed)
    (hbytes : em.wsBuffer ≠ []) :
    recv em errno length =
      some (↑(min length em.wsBuffer.length), errno, em.wsBuffer.take length,
        { em with wsBuffer := em.wsBuffer.drop length }) := by
  have hpos : em.wsBuffer.length ≠ 0 := fun h => hbytes (List.length_eq_zero_iff.mp h)
  have htake : em.wsBuffer.take (min length em.wsBuffer.length) = em.wsBuffer.take length := by
    rw [List.take_eq_take_iff]
    omega
  have hdrop : em.wsBuffer.drop (min length em.wsBuffer.length) = em.wsBuffer.drop length := by
    rw [List.drop_eq_drop_iff]
    omega
  have hsign : ¬ ((min length em.wsBuffer.length : ℕ) : ℤ) < 0 := by omega
  simp only [recv, jssRecv, hsocket, Option.map_some, if_neg hopen, if_neg hpos, htake, hdrop]
  rw [if_neg hsign]

theorem SocketRun.step_counts {run : SocketRun} {count : ReadyState × ℕ} (event : SocketEvent)
    (h : run.Counts count) : (run.step event).Counts (countUnread count event) := by
  obtain ⟨readyState, unread⟩ := count
  obtain ⟨hsocket, hunread, hsplit⟩ := h
  dsimp only at hsocket hunread
  cases event with
  | onopen =>
    cases readyState <;> constructor <;>
      simp [SocketRun.step, countUnread, ReadyState.after, onopen, hsocket, hunread, hsplit]
  | onmessage array =>
    cases readyState <;> constructor <;>
      simp [SocketRun.step, countUnread, ReadyState.after, onmessage, hsocket, hunread, hsplit]
  | closing =>
    cases readyState <;> constructor <;>
      simp [SocketRun.step, countUnread, ReadyState.after, hsocket, hunread, hsplit]
  | onclose =>
    cases readyState <;> constructor <;>
      simp [SocketRun.step, countUnread, ReadyState.after, onclose, hsocket, hunread, hsplit]
  | recv length =>
    have hafter : readyState.after (.recv length) = readyState := by cases readyState <;> rfl
    by_cases hclosed : readyState = .closed
    · subst hclosed
      constructor <;>
        simp [SocketRun.step, recv_closed run.errno length hsocket, countUnread, ReadyState.after,
          hsocket, hunread, hsplit]
    · by_cases hempty : run.em.wsBuffer = []
      · have hzero : unread = 0 := by rw [← hunread, hempty, List.length_nil]
        constructor <;>
          simp [SocketRun.step, recv_empty run.errno length hsocket hclosed hempty, countUnread,
            hafter, hclosed, hsocket, hempty, hzero, hsplit]
      · constructor
        · simp [SocketRun.step, recv_bytes run.errno length hsocket hclosed hempty, countUnread,
            hafter, hsocket]
        · simp [SocketRun.step, recv_bytes run.errno length hsocket hclosed hempty, countUnread,
            hclosed, hunread]
        · simp [SocketRun.step, recv_bytes run.errno length hsocket hclosed hempty, hsplit]

/-- Only a closed socket keeps `recv` from the bytes that are left. -/
theorem streamRecv_iff {run : SocketRun} {count : ReadyState × ℕ} (event : SocketEvent)
    (h : run.Counts count) : StreamRecv run event ↔ ReadBeforeClose count event := by
  obtain ⟨readyState, unread⟩ := count
  obtain ⟨hsocket, hunread, hsplit⟩ := h
  dsimp only at hsocket hunread
  cases event with
  | recv length =>
    have hrest : ∀ rest, run.received = run.returned ++ rest → rest = run.em.wsBuffer :=
      fun rest heq => List.append_cancel_left (heq.symm.trans hsplit)
    constructor
    · rintro ⟨rest, ret, errno, data, em, hreceived, hret, hclose, -⟩ hclosed
      rw [recv_closed run.errno length (hclosed ▸ hsocket)] at hret
      cases hret
      rw [← hunread, ← hrest rest hreceived, hclose rfl, List.length_nil]
    · intro hread
      by_cases hclosed : readyState = .closed
      · have hempty : run.em.wsBuffer = [] :=
          List.length_eq_zero_iff.mp (hunread.trans (hread hclosed))
        exact ⟨_, _, _, _, _, hsplit, recv_closed run.errno length (hclosed ▸ hsocket),
          fun _ => hempty, fun hleft => absurd hempty hleft⟩
      · by_cases hempty : run.em.wsBuffer = []
        · exact ⟨_, _, _, _, _, hsplit, recv_empty run.errno length hsocket hclosed hempty,
            fun _ => hempty, fun hleft => absurd hempty hleft⟩
        · refine ⟨_, _, _, _, _, hsplit, recv_bytes run.errno length hsocket hclosed hempty,
            fun hret => ?_, fun _ => ⟨rfl, rfl⟩⟩
          unfold connectionClosed at hret
          omega
  | _ => exact Iff.rfl

/-- Over any order of messages, the close and reads of any lengths, every `recv` is a TCP
stream's exactly when none of them comes after the close with bytes left to read. -/
theorem streamRecv_run (serverAddress : List UInt16) (events : List SocketEvent) :
    AllSteps SocketRun.step StreamRecv (.start serverAddress) events ↔
      AllSteps countUnread ReadBeforeClose (.connecting, 0) events :=
  allSteps_iff_of_related SocketRun.step SocketRun.Counts
    (fun _ _ event h => SocketRun.step_counts event h) (fun _ _ event h => streamRecv_iff event h)
    events (SocketRun.start_counts serverAddress)

/-- One byte comes, the socket is closed, and the byte is then asked for. -/
theorem not_streamRecv_afterClose :
    ¬ ∀ serverAddress events, AllSteps SocketRun.step StreamRecv (.start serverAddress) events := by
  intro h
  obtain ⟨-, -, -, ⟨rest, ret, errno, data, em, hreceived, hret, hclose, -⟩, -⟩ :=
    h [] [.onopen, .onmessage [1], .onclose, .recv 1]
  rw [recv_closed _ _ rfl] at hret
  cases hret
  rw [hclose rfl] at hreceived
  exact absurd hreceived (by decide)

end Jterm.Page
