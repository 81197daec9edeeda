import Jterm.Ssh.ChannelRequests
import Mathlib.Data.List.Basic

/-!
Channel data on its way to webvterm_recv. Before queue_read the WebSocket's callback is empty: the
polls of the start-up take their replies from what has arrived and leave the data where it is. Then
on_recv runs with every message, and inside the recv that takes the message's bytes as well, where
`ws_buffer` is empty already. The socket and the channel are open.
-/
namespace Jterm.Ssh

open Runs

/-- A packet that is complete in what has been received; `data` is what packet_add keeps of the
output. -/
inductive ChannelMessage
  | reply (success : Bool)
  | data (bytes : List UInt8)
  | other
  deriving DecidableEq, Repr

def ChannelMessage.bytes : ChannelMessage → List UInt8
  | .data bytes => bytes
  | _ => []

def dataOf (packets : List ChannelMessage) : List UInt8 := packets.flatMap ChannelMessage.bytes

/-- The queued timer and the requests' states; `incoming` is in `ws_buffer` or in transport_read's
buffer, `packets` is the brigade, `shown` has been given to webvterm_recv, `received` is the record
of all data that messages have brought. -/
structure Shell where
  phase : Phase
  c : ℕ
  setenvState : RequestState
  reqPtyState : RequestState
  processState : RequestState
  incoming : List ChannelMessage
  packets : List ChannelMessage
  shown : List UInt8
  received : List UInt8
  deriving DecidableEq, Repr

/-- How a run of on_recv goes: the packets transport_read has buffered before it receives, and for
each webssh2_read, in the nested run and in the run itself, whether a key exchange holds up an
adjustment of the window that it begins with. -/
structure Reads where
  buffered : ℕ
  nested : List Bool
  blocked : List Bool
  deriving DecidableEq, Repr

namespace Shell

/-- queue_setenv has been called; packets may have come behind the confirmation of the channel. -/
def opened (incoming packets : List ChannelMessage) : Shell :=
  { phase := .setenv
    c := 0
    setenvState := .idle
    reqPtyState := .idle
    processState := .idle
    incoming := incoming
    packets := packets
    shown := []
    received := dataOf packets ++ dataOf incoming }

/-- `_libssh2_packet_askv` for SUCCESS and FAILURE, in this order. -/
def replyIn (packets : List ChannelMessage) : Option Bool :=
  if .reply true ∈ packets then some true
  else if .reply false ∈ packets then some false
  else none

/-- Calls of transport_read up to the first reply, which is handed over. -/
def readToReply : ℕ → List ChannelMessage → List ChannelMessage →
    Option Bool × List ChannelMessage × List ChannelMessage
  | 0, incoming, packets => (none, incoming, packets)
  | _, [], packets => (none, [], packets)
  | _ + 1, .reply success :: rest, packets => (some success, rest, packets)
  | n + 1, m :: rest, packets => readToReply n rest (packets ++ [m])

/-- The state sent of a request function. -/
def awaitReply (s : Shell) (resumed : Bool) (poll : Poll) : Returned × RequestState × Shell :=
  match replyIn s.packets with
  | some success =>
    (if success then .success else .denied, .idle,
      { s with packets := s.packets.erase (.reply success) })
  | none =>
    let (found, incoming, packets) := readToReply poll.reads s.incoming s.packets
    let s := { s with incoming := incoming, packets := packets }
    match found with
    | some success => (if success then .success else .denied, .idle, s)
    | none => if resumed && poll.timedOut then (.failed, .idle, s) else (.eagain, .sent, s)

/-- A resumable channel request: built, sent, answered. -/
def request (s : Shell) (state : RequestState) (poll : Poll) : Returned × RequestState × Shell :=
  match state with
  | .sent => s.awaitReply true poll
  | _ => if poll.kex then (.eagain, .created, s) else s.awaitReply false poll

def queueSetenv (s : Shell) (poll : Poll) : Shell :=
  let (_, state, s) := s.request s.setenvState poll
  { s with setenvState := state, c := 0, phase := .setterm }

def queueSetterm (s : Shell) (poll : Poll) : Shell :=
  let (_, state, s) := s.request s.reqPtyState poll
  { s with reqPtyState := state, c := 0, phase := .getshell }

/-- queue_read puts on_recv in the place of the callback and does not call it. -/
def queueGetshell (s : Shell) (poll : Poll) : Shell :=
  let (returned, state, s) := s.request s.processState poll
  let s := { s with processState := state }
  if returned = .success then { s with c := 0, phase := .reading }
  else if s.c < 25 then { s with c := s.c + 1 }
  else { s with phase := .stopped }

/-- The loop of channel_read over the brigade, for `n` bytes. -/
def takeData : ℕ → List ChannelMessage → List UInt8 × List ChannelMessage
  | _, [] => ([], [])
  | 0, packets => ([], packets)
  | n + 1, .data bytes :: rest =>
    if bytes.length ≤ n + 1 then
      let (taken, left) := takeData (n + 1 - bytes.length) rest
      (bytes ++ taken, left)
    else (bytes.take (n + 1), .data (bytes.drop (n + 1)) :: rest)
  | n + 1, m :: rest =>
    let (taken, left) := takeData (n + 1) rest
    (taken, m :: left)

/-- webssh2_read; no bytes stand for a length that is not positive. `transportRead` are the calls
of transport_read until EAGAIN. -/
def webssh2Read (transportRead : Shell → Shell) (blocked : Bool) (s : Shell) : List UInt8 × Shell :=
  if blocked then ([], s)
  else
    let s := transportRead s
    let (bytes, packets) := takeData 1024 s.packets
    (bytes, { s with packets := packets })

/-- The loop of on_recv. -/
def recvLoop (transportRead : Shell → Shell) : ℕ → List Bool → Shell → Shell
  | 0, _, s => s
  | n + 1, blocked, s =>
    let (bytes, s) := s.webssh2Read transportRead (blocked.headD false)
    if bytes = [] then s
    else recvLoop transportRead n blocked.tail { s with shown := s.shown ++ bytes }

/-- Data that no one has read. -/
def waiting (s : Shell) : List UInt8 := dataOf s.packets ++ dataOf s.incoming

def onRecv (transportRead : Shell → Shell) (blocked : List Bool) (s : Shell) : Shell :=
  s.recvLoop transportRead (s.waiting.length + 1) blocked

/-- transport_read until EAGAIN. The recv that gets the rest calls on_recv before it returns, and
that one's transport_read has nothing to receive. -/
def transportRead (reads : Reads) (s : Shell) : Shell :=
  if s.incoming = [] then s
  else
    let s := { s with
      packets := s.packets ++ s.incoming.take reads.buffered
      incoming := s.incoming.drop reads.buffered }
    let s := s.onRecv id reads.nested
    { s with packets := s.packets ++ s.incoming, incoming := [] }

end Shell

inductive ShellEvent
  | timer (poll : Poll)
  | message (ms : List ChannelMessage) (reads : Reads)
  | otherReads (reads : Reads)
  deriving DecidableEq, Repr

/-- What is buffered when a message comes was there before it. Other functions than webssh2_read
leave what they have read in the brigade. -/
def shellStep (s : Shell) : ShellEvent → Shell
  | .timer poll =>
    match s.phase with
    | .setenv => s.queueSetenv poll
    | .setterm => s.queueSetterm poll
    | .getshell => s.queueGetshell poll
    | _ => s
  | .message ms reads =>
    let reads := { reads with buffered := min reads.buffered s.incoming.length }
    let s := { s with incoming := s.incoming ++ ms, received := s.received ++ dataOf ms }
    if s.phase = .reading then s.onRecv (Shell.transportRead reads) reads.blocked else s
  | .otherReads reads =>
    if s.phase = .reading then s.transportRead reads
    else { s with packets := s.packets ++ s.incoming, incoming := [] }

end Jterm.Ssh
