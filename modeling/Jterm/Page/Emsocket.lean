import Mathlib.Data.Int.Notation
import Mathlib.Data.List.Basic

/-!
The socket emulation of the page. The socket calls of libssh2 go to one WebSocket and
one array of received bytes. A JavaScript string is its list of UTF-16 units, a
`none` result a thrown TypeError.
-/
namespace Jterm.Page

/-- `WebSocket.readyState` -/
inductive ReadyState
  | connecting
  | opened
  | closing
  | closed
  deriving DecidableEq, Repr

/-- The globals of emsocket.js; `sent` is what the WebSocket has been given to send. -/
structure Emsocket where
  serversocket : Option ReadyState
  wsBuffer : List UInt8
  jssReady : Bool
  jssClosed : Bool
  serverAddress : List UInt16
  sent : List (List UInt8)
  deriving DecidableEq, Repr

def Emsocket.initial (serverAddress : List UInt16) : Emsocket :=
  ⟨none, [], false, false, serverAddress, []⟩

/-- The negative error numbers the two socket calls return. -/
def eagain : ℤ := -11
def connectionClosed : ℤ := -107

/-- What `onopen` sends: `charCodeAt` stored in a Uint8Array, and a zero. -/
def addressMessage (serverAddress : List UInt16) : List UInt8 :=
  serverAddress.map UInt16.toUInt8 ++ [0]

def jssConnect (em : Emsocket) : ℤ × Emsocket :=
  (0, { em with serversocket := some .connecting })

def onopen (em : Emsocket) : Emsocket :=
  { em with sent := em.sent ++ [addressMessage em.serverAddress], jssReady := true }

def onclose (em : Emsocket) : Emsocket :=
  { em with jssReady := false, jssClosed := true }

/-- The part of `onmessage` before it calls the receive callback. -/
def onmessage (em : Emsocket) (array : List UInt8) : Emsocket :=
  { em with wsBuffer := em.wsBuffer ++ array }

def jssSend (em : Emsocket) (buffer : List UInt8) : Option (ℤ × Emsocket) :=
  em.serversocket.map fun readyState =>
    let em := { em with jssReady := readyState = .opened }
    if readyState = .closed then (connectionClosed, { em with jssClosed := true })
    else if em.jssReady = false then (eagain, em)
    else (buffer.length, { em with sent := em.sent ++ [buffer] })

/-- The part of `jss_recv` before it calls the receive callback, and the bytes copied. -/
def jssRecv (em : Emsocket) (length : ℕ) : Option (ℤ × List UInt8 × Emsocket) :=
  em.serversocket.map fun readyState =>
    if readyState = .closed then (connectionClosed, [], { em with jssClosed := true })
    else if em.wsBuffer.length = 0 then (eagain, [], em)
    else
      let recvLen := min length em.wsBuffer.length
      (recvLen, em.wsBuffer.take recvLen, { em with wsBuffer := em.wsBuffer.drop recvLen })

/-- `close()` of a WebSocket that is not closed starts the closing handshake. -/
def jssClose (em : Emsocket) : Option Emsocket :=
  em.serversocket.map fun readyState =>
    { em with
      jssReady := false
      jssClosed := true
      serversocket := some (if readyState = .closed then .closed else .closing) }

/-- A send either goes out whole on an open socket or leaves nothing behind. -/
theorem jssSend_cases {em em' : Emsocket} {buffer : List UInt8} {ret : ℤ}
    (h : jssSend em buffer = some (ret, em')) :
    em'.serversocket = em.serversocket ∧ em'.serverAddress = em.serverAddress ∧
      (em.serversocket = some .opened ∧ ret = buffer.length ∧ em'.sent = em.sent ++ [buffer] ∨
        (ret = eagain ∨ ret = connectionClosed) ∧ em'.sent = em.sent) := by
  obtain ⟨readyState, hstate, heq⟩ := Option.map_eq_some_iff.mp h
  rw [hstate]
  cases readyState <;> obtain ⟨rfl, rfl⟩ := Prod.mk.inj heq <;> simp [hstate]

/-- A recv takes the front of `ws_buffer`, or nothing when it returns no length. -/
theorem jssRecv_cases {em em' : Emsocket} {length : ℕ} {ret : ℤ} {data : List UInt8}
    (h : jssRecv em length = some (ret, data, em')) :
    (ret ≤ 0 → em'.wsBuffer = em.wsBuffer) ∧
      (0 < ret → data = em.wsBuffer.take length ∧ em'.wsBuffer = em.wsBuffer.drop length) := by
  obtain ⟨readyState, -, heq⟩ := Option.map_eq_some_iff.mp h
  split at heq
  · obtain ⟨hret, hpair⟩ := Prod.mk.inj heq
    obtain ⟨-, rfl⟩ := Prod.mk.inj hpair
    subst hret
    exact ⟨fun _ => rfl, fun hpos => absurd hpos (by decide)⟩
  · split at heq
    · obtain ⟨hret, hpair⟩ := Prod.mk.inj heq
      obtain ⟨-, rfl⟩ := Prod.mk.inj hpair
      subst hret
      exact ⟨fun _ => rfl, fun hpos => absurd hpos (by decide)⟩
    · obtain ⟨hret, hpair⟩ := Prod.mk.inj heq
      obtain ⟨rfl, rfl⟩ := Prod.mk.inj hpair
      dsimp only
      rcases Nat.le_total length em.wsBuffer.length with hle | hle
      · rw [Nat.min_eq_left hle] at hret ⊢
        refine ⟨fun hneg => ?_, fun _ => ⟨rfl, rfl⟩⟩
        rw [show length = 0 by omega, List.drop_zero]
      · rw [Nat.min_eq_right hle] at hret ⊢
        refine ⟨fun hneg => ?_, fun _ => ?_⟩
        · rw [show em.wsBuffer.length = 0 by omega, List.drop_zero]
        · simp [List.take_of_length_le hle, List.drop_eq_nil_of_le hle]

/-- A recv from an empty `ws_buffer` returns no length. -/
theorem jssRecv_empty {em em' : Emsocket} {length : ℕ} {ret : ℤ} {data : List UInt8}
    (hempty : em.wsBuffer = []) (h : jssRecv em length = some (ret, data, em')) : ret ≤ 0 := by
  obtain ⟨readyState, -, heq⟩ := Option.map_eq_some_iff.mp h
  rw [hempty, if_pos (show ([] : List UInt8).length = 0 from rfl)] at heq
  split at heq
  · rw [← (Prod.mk.inj heq).1]
    decide
  · rw [← (Prod.mk.inj heq).1]
    decide

/-- Only a socket that is not closed gives bytes. -/
theorem jssRecv_notClosed {em em' : Emsocket} {length : ℕ} {ret : ℤ} {data : List UInt8}
    (h : jssRecv em length = some (ret, data, em')) (hret : 0 < ret) :
    em.serversocket ≠ some .closed := by
  obtain ⟨readyState, hstate, heq⟩ := Option.map_eq_some_iff.mp h
  intro hclosed
  rw [if_pos (Option.some.inj (hstate.symm.trans hclosed))] at heq
  rw [← (Prod.mk.inj heq).1] at hret
  exact absurd hret (by decide)

end Jterm.Page
