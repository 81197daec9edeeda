import Jterm.Ssh.ChannelRequests
import Mathlib.Data.List.Count

/-!
The requests before the channel is there: userauth none, userauth password, channel open. Each is
sent and resumed by a function of libssh2 that is idle again once it has its answer, whatever the
answer is; the page's timer calls it until its wrapper returns 1. The socket is open and takes every
packet whole.
-/
namespace Jterm.Ssh

open Runs

inductive MessageType
  | userauthSuccess
  | userauthFailure
  | userauthPasswdChangereq
  | channelOpenConfirmation
  | channelOpenFailure
  | other
  deriving DecidableEq, Repr

/-- A message of the server; `other` is one that none of the three functions asks for. -/
inductive Message
  | userauthSuccess
  | userauthFailure (methods : List UInt8)
  | userauthPasswdChangereq
  | channelOpenConfirmation (recipient : ℕ)
  | channelOpenFailure (recipient : ℕ)
  | other
  deriving DecidableEq, Repr

def Message.type : Message → MessageType
  | .userauthSuccess => .userauthSuccess
  | .userauthFailure _ => .userauthFailure
  | .userauthPasswdChangereq => .userauthPasswdChangereq
  | .channelOpenConfirmation _ => .channelOpenConfirmation
  | .channelOpenFailure _ => .channelOpenFailure
  | .other => .other

/-- The bytes behind the type; only a channel open compares them. -/
def Message.recipient : Message → Option ℕ
  | .channelOpenConfirmation recipient => some recipient
  | .channelOpenFailure recipient => some recipient
  | _ => none

inductive LoginRequest
  | userauthNone (username : List UInt8)
  | userauthPassword (username password : List UInt8)
  | channelOpen (localChannel : ℕ)
  deriving DecidableEq, Repr

/-- `reply_codes` -/
def LoginRequest.replyCodes : LoginRequest → List MessageType
  | .userauthNone _ => [.userauthSuccess, .userauthFailure]
  | .userauthPassword _ _ => [.userauthSuccess, .userauthFailure, .userauthPasswdChangereq]
  | .channelOpen _ => [.channelOpenConfirmation, .channelOpenFailure]

/-- `match_buf` -/
def LoginRequest.accepts : LoginRequest → Message → Bool
  | .channelOpen localChannel, m => m.recipient = some localChannel
  | _, _ => true

/-- `requests` is what the server has received, `incoming` has arrived and is not read, `packets` is
the brigade; `taken` is the record of the answers that requests have taken from it. -/
structure LoginSession where
  requests : List LoginRequest
  incoming : List Message
  packets : List Message
  taken : List (LoginRequest × Message)
  deriving DecidableEq, Repr

/-- `_libssh2_packet_askv`: the first type that is there at all, its first packet. -/
def LoginRequest.askv (request : LoginRequest) (packets : List Message) : Option Message :=
  request.replyCodes.findSome? fun code =>
    packets.find? fun m => m.type = code ∧ request.accepts m = true

/-- Calls of transport_read until one returns a type of the list. -/
def LoginRequest.read (request : LoginRequest) :
    ℕ → List Message → List Message → Bool × List Message × List Message
  | 0, incoming, packets => (false, incoming, packets)
  | _, [], packets => (false, [], packets)
  | n + 1, m :: rest, packets =>
    if m.type ∈ request.replyCodes then (true, rest, packets ++ [m])
    else request.read n rest (packets ++ [m])

inductive Awaited
  | found (m : Message)
  | eagain
  | failed
  deriving DecidableEq, Repr

/-- `_libssh2_packet_requirev`. A packet of the right type for another channel ends the wait. -/
def LoginRequest.requirev (request : LoginRequest) (s : LoginSession) (resumed : Bool) (poll : Poll) :
    Awaited × LoginSession :=
  let take (m : Message) (s : LoginSession) : Awaited × LoginSession :=
    (.found m, { s with packets := s.packets.erase m, taken := s.taken ++ [(request, m)] })
  match request.askv s.packets with
  | some m => take m s
  | none =>
    let (seen, incoming, packets) := request.read poll.reads s.incoming s.packets
    let s := { s with incoming := incoming, packets := packets }
    if seen then
      match request.askv packets with
      | some m => take m s
      | none => (.failed, s)
    else (if resumed && poll.timedOut then .failed else .eagain, s)

/-- The states created and sent of a request function; it is idle again unless it waits. -/
def LoginRequest.poll (request : LoginRequest) (s : LoginSession) (state : RequestState) (poll : Poll) :
    Awaited × RequestState × LoginSession :=
  let await (s : LoginSession) (resumed : Bool) : Awaited × RequestState × LoginSession :=
    let (awaited, s) := request.requirev s resumed poll
    (awaited, if awaited = .eagain then .sent else .idle, s)
  match state with
  | .sent => await s true
  | _ =>
    if poll.kex then (.eagain, .created, s)
    else await { s with requests := s.requests ++ [request] } false

inductive LoginPhase
  | authcheck
  | authenticate
  | requestshell
  | setenv
  | connectFailed
  deriving DecidableEq, Repr

/-- The page's queued timer with its counter, the globals of webssh2.c and the session's states. -/
structure Login where
  phase : LoginPhase
  c : ℕ
  username : List UInt8
  password : List UInt8
  userauthlist : Option (List UInt8)
  userauthListState : RequestState
  userauthPswdState : RequestState
  openState : RequestState
  openLocalChannel : ℕ
  nextChannel : ℕ
  session : LoginSession
  deriving DecidableEq, Repr

/-- Behind the handshake. -/
def handshaken (username password : List UInt8) : Login :=
  { phase := .authcheck
    c := 0
    username := username
    password := password
    userauthlist := none
    userauthListState := .idle
    userauthPswdState := .idle
    openState := .idle
    openLocalChannel := 0
    nextChannel := 0
    session := ⟨[], [], [], []⟩ }

/-- A SUCCESS has no list either. -/
def userauthList (s : Login) (poll : Poll) : Option (List UInt8) × Login :=
  let (awaited, state, session) :=
    (LoginRequest.userauthNone s.username).poll s.session s.userauthListState poll
  let methods := match awaited with
    | .found (.userauthFailure methods) => some methods
    | _ => none
  (methods, { s with userauthListState := state, session := session })

def webssh2Authcheck (s : Login) (poll : Poll) : Bool × Login :=
  let (methods, s) := userauthList s poll
  (methods.isSome, { s with userauthlist := methods })

/-- Without a callback for it, a request to change the password is a refusal. -/
def userauthPassword (s : Login) (poll : Poll) : Bool × Login :=
  let (awaited, state, session) :=
    (LoginRequest.userauthPassword s.username s.password).poll s.session s.userauthPswdState poll
  (awaited = .found .userauthSuccess, { s with userauthPswdState := state, session := session })

/-- What has been accepted is wiped out. -/
def webssh2Authenticate (s : Login) (poll : Poll) : Bool × Login :=
  let (accepted, s) := userauthPassword s poll
  if accepted then
    (true, { s with username := s.username.map fun _ => 0, password := s.password.map fun _ => 0 })
  else (false, s)

/-- A new attempt has a new channel number. -/
def channelOpen (s : Login) (poll : Poll) : Bool × Login :=
  let s := if s.openState = .idle then
      { s with openLocalChannel := s.nextChannel, nextChannel := s.nextChannel + 1 }
    else s
  let (awaited, state, session) :=
    (LoginRequest.channelOpen s.openLocalChannel).poll s.session s.openState poll
  (awaited = .found (.channelOpenConfirmation s.openLocalChannel),
    { s with openState := state, session := session })

def webssh2Requestshell (s : Login) (poll : Poll) : Bool × Login := channelOpen s poll

/-- What the timers do with the result: the next phase for 1, another call for 0, fifty times. -/
def Login.polled (next : LoginPhase) (result : Bool × Login) : Login :=
  let (granted, s) := result
  if granted then { s with c := 0, phase := next }
  else if s.c < 50 then { s with c := s.c + 1 }
  else { s with phase := .connectFailed }

def queueAuthcheck (s : Login) (poll : Poll) : Login :=
  .polled .authenticate (webssh2Authcheck s poll)

def queueAuthenticate (s : Login) (poll : Poll) : Login :=
  .polled .requestshell (webssh2Authenticate s poll)

def queueRequestshell (s : Login) (poll : Poll) : Login :=
  .polled .setenv (webssh2Requestshell s poll)

inductive LoginEvent
  | timer (poll : Poll)
  | arrives (m : Message)
  deriving DecidableEq, Repr

def loginStep (s : Login) : LoginEvent → Login
  | .timer poll =>
    match s.phase with
    | .authcheck => queueAuthcheck s poll
    | .authenticate => queueAuthenticate s poll
    | .requestshell => queueRequestshell s poll
    | _ => s
  | .arrives m => { s with session := { s.session with incoming := s.session.incoming ++ [m] } }

end Jterm.Ssh
