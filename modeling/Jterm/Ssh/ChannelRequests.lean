import Jterm.Lib.Runs
import Mathlib.Data.List.Basic

/-!
The start-up requests on the SSH channel. `env`, `pty-req` and `shell` are sent by
three resumable functions of libssh2 that end in `_libssh2_packet_requirev`, a search
of one reply queue by message type. The page's timers call each of them on a
non-blocking session; the first two only once. The socket is open and takes every
packet whole, so a send waits for nothing but a key exchange.
-/
namespace Jterm.Ssh

open Runs

/-- Channel requests as the server receives them. -/
inductive Request
  | env
  | ptyReq (width height : UInt32)
  | shell
  | windowChange (width height : UInt32)
  deriving DecidableEq, Repr

/-- The `want_reply` byte. -/
def Request.wantsReply : Request → Bool
  | .windowChange _ _ => false
  | _ => true

/-- CHANNEL_SUCCESS or CHANNEL_FAILURE; the message does not say what it answers. -/
structure Reply where
  answers : Request
  success : Bool
  deriving DecidableEq, Repr

inductive Packet
  | reply (r : Reply)
  | other
  deriving DecidableEq, Repr

/-- `incoming` has arrived and is not read, `packets` is the queue of read replies;
`replies` is the record of all replies that have arrived. -/
structure Session where
  requests : List Request
  replies : List Reply
  incoming : List Packet
  packets : List Reply
  deriving DecidableEq, Repr

/-- What a poll meets: a key exchange, the number of packets transport_read delivers
before EAGAIN, and whether more than the read timeout has passed since the first try. -/
structure Poll where
  kex : Bool
  readable : ℕ
  timedOut : Bool
  deriving DecidableEq, Repr

/-- `_libssh2_packet_askv` for the types SUCCESS and FAILURE, in this order. -/
def askv (packets : List Reply) : Option Reply :=
  (packets.find? fun r => r.success).or (packets.find? fun r => !r.success)

/-- Calls of transport_read up to the first reply. -/
def readReply : ℕ → List Packet → Option Reply × List Packet
  | 0, incoming => (none, incoming)
  | _, [] => (none, [])
  | n + 1, .other :: rest => readReply n rest
  | _ + 1, .reply r :: rest => (some r, rest)

/-- The packets a poll can read. -/
def Poll.reads (poll : Poll) : ℕ := if poll.kex then 0 else poll.readable

inductive Required
  | found (r : Reply)
  | eagain
  | timeout
  deriving DecidableEq, Repr

/-- `_libssh2_packet_requirev`; only a resumed wait can be out of time. -/
def requirev (s : Session) (resumed : Bool) (poll : Poll) : Required × Session :=
  match askv s.packets with
  | some r => (.found r, { s with packets := s.packets.erase r })
  | none =>
    match readReply poll.reads s.incoming with
    | (some r, incoming) => (.found r, { s with incoming := incoming })
    | (none, incoming) =>
      (if resumed && poll.timedOut then .timeout else .eagain, { s with incoming := incoming })

inductive RequestState
  | idle
  | created
  | sent
  deriving DecidableEq, Repr

inductive Returned
  | success
  | denied
  | failed
  | eagain
  deriving DecidableEq, Repr

/-- The state sent of a request function. -/
def awaitReply (s : Session) (resumed : Bool) (poll : Poll) : Returned × RequestState × Session :=
  match requirev s resumed poll with
  | (.found r, s) => (if r.success then .success else .denied, .idle, s)
  | (.timeout, s) => (.failed, .idle, s)
  | (.eagain, s) => (.eagain, .sent, s)

/-- A resumable channel request: built, sent, answered. -/
def channelRequest (s : Session) (state : RequestState) (request : Request) (poll : Poll) :
    Returned × RequestState × Session :=
  match state with
  | .sent => awaitReply s true poll
  | _ =>
    if poll.kex then (.eagain, .created, s)
    else awaitReply { s with requests := s.requests ++ [request] } false poll

def channelSetenv (s : Session) (state : RequestState) (poll : Poll) :=
  channelRequest s state .env poll

/-- With the sizes of `libssh2_channel_request_pty`. -/
def channelRequestPty (s : Session) (state : RequestState) (poll : Poll) :=
  channelRequest s state (.ptyReq 80 24) poll

def channelProcessStartup (s : Session) (state : RequestState) (poll : Poll) :=
  channelRequest s state .shell poll

/-- window-change uses the state and the packet of pty-req, and the transport can send:
what a pty-req left built goes out, after one left sent nothing does. -/
def channelRequestPtySize (s : Session) (state : RequestState) (width height : UInt32) :
    RequestState × Session :=
  match state with
  | .idle => (.idle, { s with requests := s.requests ++ [.windowChange width height] })
  | .created => (.idle, { s with requests := s.requests ++ [.ptyReq 80 24] })
  | .sent => (.idle, s)

inductive Phase
  | setenv
  | setterm
  | getshell
  | reading
  | stopped
  deriving DecidableEq, Repr

/-- The page's queued timer with its counter, and the channel's request states. -/
structure Startup where
  phase : Phase
  c : ℕ
  setenvState : RequestState
  reqPtyState : RequestState
  processState : RequestState
  session : Session
  deriving DecidableEq, Repr

def openedSession : Startup := ⟨.setenv, 0, .idle, .idle, .idle, ⟨[], [], [], []⟩⟩

/-- `webssh2_setenv` returns 1 whatever the request did. -/
def queueSetenv (s : Startup) (poll : Poll) : Startup :=
  let (_, state, session) := channelSetenv s.session s.setenvState poll
  { s with setenvState := state, session := session, c := 0, phase := .setterm }

/-- `webssh2_setterm` returns 1 whatever the request did. -/
def queueSetterm (s : Startup) (poll : Poll) : Startup :=
  let (_, state, session) := channelRequestPty s.session s.reqPtyState poll
  { s with reqPtyState := state, session := session, c := 0, phase := .getshell }

def queueGetshell (s : Startup) (poll : Poll) : Startup :=
  let (returned, state, session) := channelProcessStartup s.session s.processState poll
  let s := { s with processState := state, session := session }
  if returned = .success then { s with c := 0, phase := .reading }
  else if s.c < 25 then { s with c := s.c + 1 }
  else { s with phase := .stopped }

/-- The server answers the requests that want a reply in the order received. -/
def arrive (s : Session) (success : Bool) : Session :=
  match (s.requests.filter Request.wantsReply)[s.replies.length]? with
  | none => s
  | some request =>
    { s with
      replies := s.replies ++ [⟨request, success⟩]
      incoming := s.incoming ++ [.reply ⟨request, success⟩] }

/-- Another function of libssh2 reads `n` packets. -/
def readAll (s : Session) (n : ℕ) : Session :=
  { s with
    packets := s.packets ++ (s.incoming.take n).filterMap fun
      | .reply r => some r
      | .other => none
    incoming := s.incoming.drop n }

inductive StartupEvent
  | timer (poll : Poll)
  | replyArrives (success : Bool)
  | otherArrives
  | otherReads (n : ℕ)
  deriving DecidableEq, Repr

def startupStep (s : Startup) : StartupEvent → Startup
  | .timer poll =>
    match s.phase with
    | .setenv => queueSetenv s poll
    | .setterm => queueSetterm s poll
    | .getshell => queueGetshell s poll
    | _ => s
  | .replyArrives success => { s with session := arrive s.session success }
  | .otherArrives =>
      { s with session := { s.session with incoming := s.session.incoming ++ [.other] } }
  | .otherReads n => { s with session := readAll s.session n }

/-- `webssh2_resize` on the open channel. -/
def webssh2Resize (s : Startup) (cols rows : UInt32) : Startup :=
  let (state, session) := channelRequestPtySize s.session s.reqPtyState cols rows
  { s with reqPtyState := state, session := session }

end Jterm.Ssh
