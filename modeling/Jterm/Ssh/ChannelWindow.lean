import Jterm.Ssh.PacketRead

/-!
The receive window of a channel (channel.c, packet.c): what packet_add keeps of the data
that arrives, and how a read gives the server more window before it takes data from the
brigade. The mode of extended data is left as it is in a new channel.
-/
namespace Jterm.Ssh.Window

open Transport (toSize)

/-- LIBSSH2_CHANNEL_MINADJUST -/
def minadjust : ℕ := 1024

/-- A stream of extended data, or the channel's data. -/
abbrev Stream := Option ℕ

/-- What the server sends to the channel; `other` ends in the brigade, too, and is not data of
this channel. -/
inductive Arriving
  | data (stream : Stream) (bytes : List UInt8)
  | eof
  | close
  | other
  deriving DecidableEq, Repr

/-- A packet of the brigade, from `data_head` on. -/
inductive Queued
  | data (stream : Stream) (bytes : List UInt8)
  | other
  deriving DecidableEq, Repr

/-- A channel with the fields of `remote`. `adjusting` is the amount in `adjust_adjust` while
`adjust_state` is created, `jump1` the state of a read that has not adjusted yet. -/
structure Channel where
  windowSizeInitial : ℕ
  windowSize : ℕ
  packetSize : ℕ
  eof : Bool
  close : Bool
  adjustQueue : ℕ
  readAvail : ℕ
  adjusting : Option ℕ
  jump1 : Bool
  packets : List Queued
  deriving DecidableEq, Repr

namespace Channel

/-- The part of packet_add for CHANNEL_DATA, CHANNEL_EXTENDED_DATA, CHANNEL_EOF and
CHANNEL_CLOSE: data behind the packet size or the window is dropped. -/
def packetAdd (c : Channel) : Arriving → Channel
  | .data stream bytes =>
    let bytes := if c.packetSize < bytes.length then bytes.take c.packetSize else bytes
    if c.windowSize ≤ c.readAvail then c
    else
      let bytes :=
        if c.windowSize < toSize (c.readAvail + bytes.length : ℕ) then
          bytes.take (c.windowSize - c.readAvail)
        else bytes
      { c with
        eof := false
        readAvail := toSize (c.readAvail + bytes.length : ℕ)
        packets := c.packets ++ [.data stream bytes] }
  | .eof => { c with eof := true }
  | .close => { c with close := true, eof := true }
  | .other => { c with packets := c.packets ++ [.other] }

end Channel

/-- What transport_send returns: nothing, EAGAIN or an error. -/
inductive Sending
  | done
  | again
  | fails
  deriving DecidableEq, Repr

namespace Channel

/-- The window grows by what the caller has asked for, the server is told what is in
`adjust_adjust`. -/
def sendAdjust (c : Channel) (adjustment amount : ℕ) : Sending → Sending × List ℕ × Channel
  | .done => (.done, [amount],
      { c with adjusting := none, windowSize := toSize (c.windowSize + adjustment : ℕ) })
  | .again => (.again, [], { c with adjusting := some amount })
  | .fails => (.fails, [], { c with adjusting := some amount, adjustQueue := adjustment })

/-- `_libssh2_channel_receive_window_adjust`, with the amounts of the packets sent. -/
def receiveWindowAdjust (c : Channel) (adjustment : ℕ) (force : Bool) (send : Sending) :
    Sending × List ℕ × Channel :=
  match c.adjusting with
  | some amount => c.sendAdjust adjustment amount send
  | none =>
    let total := toSize (adjustment + c.adjustQueue : ℕ)
    if !force ∧ total < minadjust then (.done, [], { c with adjustQueue := total })
    else if adjustment = 0 ∧ c.adjustQueue = 0 then (.done, [], c)
    else { c with adjustQueue := 0 }.sendAdjust total total send

end Channel

/-- The loop over the brigade for `want` more bytes of a stream: the bytes, and what is left. -/
def readPackets (stream : Stream) : ℕ → List Queued → List UInt8 × List Queued
  | _, [] => ([], [])
  | want, packet :: packets =>
    if want = 0 then ([], packet :: packets)
    else
      match packet with
      | .data id bytes =>
        if id = stream then
          if bytes.length ≤ want then
            let (more, left) := readPackets stream (want - bytes.length) packets
            (bytes ++ more, left)
          else (bytes.take want, .data id (bytes.drop want) :: packets)
        else
          let (more, left) := readPackets stream want packets
          (more, packet :: left)
      | .other =>
        let (more, left) := readPackets stream want packets
        (more, packet :: left)

/-- How the last transport_read of a read has ended. -/
inductive Drained
  | eagain
  | nothing
  | error
  deriving DecidableEq, Repr

inductive Outcome
  | got (bytes : List UInt8)
  | zero
  | again
  | error
  deriving DecidableEq, Repr

namespace Channel

/-- channel_read behind the adjustment: the packets that have arrived, then the brigade. -/
def takeData (c : Channel) (stream : Stream) (buflen : ℕ) (arrived : List Arriving)
    (drained : Drained) : Outcome × Channel :=
  let c := arrived.foldl packetAdd c
  if drained = .error then (.error, c)
  else
    let (bytes, packets) := readPackets stream buflen c.packets
    let c := { c with packets := packets }
    if bytes = [] then (if c.eof || c.close || drained = .nothing then .zero else .again, c)
    else
      (.got bytes, { c with
        readAvail := toSize (c.readAvail - bytes.length)
        windowSize := toSize (c.windowSize - bytes.length) })

/-- `_libssh2_channel_read` -/
def channelRead (c : Channel) (stream : Stream) (buflen : ℕ) (send : Sending)
    (arrived : List Arriving) (drained : Drained) : Outcome × List ℕ × Channel :=
  if c.jump1 ∨ c.windowSize < toSize (c.windowSizeInitial / 4 * 3 + buflen : ℕ) then
    let adjustment := max (toSize (c.windowSizeInitial + buflen - c.windowSize)) minadjust
    match { c with jump1 := true }.receiveWindowAdjust adjustment false send with
    | (.done, sent, c) =>
      let (outcome, c) := { c with jump1 := false }.takeData stream buflen arrived drained
      (outcome, sent, c)
    | (.again, sent, c) => (.again, sent, c)
    | (.fails, sent, c) => (.error, sent, c)
  else
    let (outcome, c) := c.takeData stream buflen arrived drained
    (outcome, [], c)

/-- `libssh2_channel_read_ex`, not blocking: what its own adjustment returns is not looked at. -/
def readEx (c : Channel) (stream : Stream) (buflen : ℕ) (sends : Sending × Sending)
    (arrived : List Arriving) (drained : Drained) : Outcome × List ℕ × Channel :=
  if c.windowSize < buflen then
    let (_, sent, c) := c.receiveWindowAdjust buflen true sends.1
    let (outcome, more, c) := c.channelRead stream buflen sends.2 arrived drained
    (outcome, sent ++ more, c)
  else c.channelRead stream buflen sends.2 arrived drained

end Channel

end Jterm.Ssh.Window
