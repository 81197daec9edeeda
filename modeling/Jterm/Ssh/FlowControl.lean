import Jterm.Lib.Runs
import Jterm.Ssh.ChannelWindow

/-!
Flow control between a server that keeps to the window it has been given and the channel. The
adjustments of the window may have to be sent in several calls, and packets may arrive in any
call. The window that the channel counts is at every time what the server may still send, what
is on its way and what has not been read, so nothing is dropped, and the server never waits for
a window that the channel believes to have given.
-/
namespace Jterm.Ssh.Window

open Runs Transport

def Queued.bytesFor (stream : Stream) : Queued → List UInt8
  | .data id bytes => if id = stream then bytes else []
  | .other => []

def Queued.size : Queued → ℕ
  | .data _ bytes => bytes.length
  | .other => 0

def bytesFor (stream : Stream) (packets : List Queued) : List UInt8 :=
  packets.flatMap (Queued.bytesFor stream)

def size (packets : List Queued) : ℕ := (packets.map Queued.size).sum

/-- What becomes of a message in the brigade. -/
def Arriving.queued : Arriving → Option Queued
  | .data stream bytes => some (.data stream bytes)
  | .other => some .other
  | _ => none

def inFlight (messages : List Arriving) : List Queued := messages.filterMap Arriving.queued

/-- `credit` is the window as the server counts it; `sent` and `given` are the records of the data
that the server has sent and reads have returned, `asked` the length of the last read. -/
structure Flow where
  channel : Channel
  credit : ℕ
  toClient : List Arriving
  toServer : List ℕ
  sent : List Queued
  given : List Queued
  asked : ℕ
  deriving DecidableEq, Repr

/-- Behind the CHANNEL_OPEN_CONFIRMATION. -/
def Flow.opened (windowSize packetSize : ℕ) : Flow where
  channel :=
    { windowSizeInitial := windowSize, windowSize := windowSize, packetSize := packetSize
      eof := false, close := false, adjustQueue := 0, readAvail := 0, adjusting := none
      jump1 := false, packets := [] }
  credit := windowSize
  toClient := []
  toServer := []
  sent := []
  given := []
  asked := 0

/-- A packet arrives in a call of another function, or in a read. -/
inductive FlowEvent
  | serverSends (message : Arriving)
  | serverAdjusts
  | arrives
  | read (stream : Stream) (buflen : ℕ) (sends : Sending × Sending) (arrivals : ℕ)
      (drained : Drained)
  deriving DecidableEq, Repr

def Flow.serverSends (l : Flow) (message : Arriving) : Flow :=
  let packets := inFlight [message]
  { l with
    credit := l.credit - size packets
    toClient := l.toClient ++ [message]
    sent := l.sent ++ packets }

def Flow.serverAdjusts (l : Flow) : Flow :=
  match l.toServer with
  | [] => l
  | amount :: amounts => { l with credit := l.credit + amount, toServer := amounts }

def Flow.arrives (l : Flow) : Flow :=
  match l.toClient with
  | [] => l
  | message :: messages =>
    { l with channel := l.channel.packetAdd message, toClient := messages }

def Outcome.given (stream : Stream) : Outcome → List Queued
  | .got bytes => [.data stream bytes]
  | _ => []

/-- A read whose adjustment has not gone through has not come to transport_read. -/
def Flow.read (l : Flow) (stream : Stream) (buflen : ℕ) (sends : Sending × Sending)
    (arrivals : ℕ) (drained : Drained) : Flow :=
  let (outcome, amounts, channel) :=
    l.channel.readEx stream buflen sends (l.toClient.take arrivals) drained
  { l with
    channel := channel
    toClient := if channel.jump1 then l.toClient else l.toClient.drop arrivals
    toServer := l.toServer ++ amounts
    given := l.given ++ outcome.given stream
    asked := buflen }

def flowStep (l : Flow) : FlowEvent → Flow
  | .serverSends message => l.serverSends message
  | .serverAdjusts => l.serverAdjusts
  | .arrives => l.arrives
  | .read stream buflen sends arrivals drained => l.read stream buflen sends arrivals drained

/-- The server keeps to the window and the packet size, no send fails, and a read that has got
EAGAIN for its adjustment is called again with the same length. -/
def KeepsTo (limit : ℕ) (l : Flow) : FlowEvent → Prop
  | .serverSends message =>
    ∀ packet ∈ inFlight [message], packet.size ≤ l.credit ∧ packet.size ≤ l.channel.packetSize
  | .read _ buflen sends _ _ =>
    buflen ≤ limit ∧ sends.2 ≠ .fails ∧ (l.channel.jump1 = true → buflen = l.asked)
  | _ => True

instance (limit : ℕ) (l : Flow) : DecidablePred (KeepsTo limit l)
  | .serverSends _ => inferInstanceAs (Decidable (∀ _ ∈ _, _ ∧ _))
  | .read _ _ _ _ _ => inferInstanceAs (Decidable (_ ∧ _ ∧ (_ → _)))
  | .serverAdjusts => .isTrue trivial
  | .arrives => .isTrue trivial

/-! Queues. -/

@[simp] theorem bytesFor_nil (stream : Stream) : bytesFor stream [] = [] := rfl

@[simp] theorem bytesFor_append (stream : Stream) (packets more : List Queued) :
    bytesFor stream (packets ++ more) = bytesFor stream packets ++ bytesFor stream more :=
  List.flatMap_append

theorem bytesFor_cons (stream : Stream) (packet : Queued) (packets : List Queued) :
    bytesFor stream (packet :: packets) = packet.bytesFor stream ++ bytesFor stream packets := rfl

@[simp] theorem size_nil : size [] = 0 := rfl

theorem size_cons (packet : Queued) (packets : List Queued) :
    size (packet :: packets) = packet.size + size packets := rfl

@[simp] theorem size_append (packets more : List Queued) :
    size (packets ++ more) = size packets + size more := by
  unfold size
  rw [List.map_append, List.sum_append]

@[simp] theorem inFlight_nil : inFlight [] = [] := rfl

@[simp] theorem inFlight_append (messages more : List Arriving) :
    inFlight (messages ++ more) = inFlight messages ++ inFlight more := List.filterMap_append

theorem inFlight_cons (message : Arriving) (messages : List Arriving) :
    inFlight (message :: messages) = inFlight [message] ++ inFlight messages :=
  inFlight_append [message] messages

/-! What arrives. -/

/-- The channel has taken in some packets. -/
structure TakesIn (c c' : Channel) (packets : List Queued) : Prop where
  same : c' = { c with
    eof := c'.eof, close := c'.close, readAvail := c'.readAvail, packets := c'.packets }
  avail : c'.readAvail = c.readAvail + size packets
  queue : size c'.packets = size c.packets + size packets
  bytes : ∀ stream, bytesFor stream c'.packets = bytesFor stream c.packets ++ bytesFor stream packets

/-- Data within the window is kept whole. -/
theorem packetAdd_takesIn {c : Channel} {message : Arriving}
    (hpacket : ∀ packet ∈ inFlight [message], packet.size ≤ c.packetSize)
    (hwindow : c.readAvail + size (inFlight [message]) ≤ c.windowSize)
    (hfits : c.windowSize < 2 ^ 32) :
    TakesIn c (c.packetAdd message) (inFlight [message]) := by
  cases message with
  | data stream bytes =>
    have hsmall : bytes.length ≤ c.packetSize := hpacket _ List.mem_cons_self
    change c.readAvail + (bytes.length + 0) ≤ c.windowSize at hwindow
    have hsize : toSize (c.readAvail + bytes.length : ℕ) = c.readAvail + bytes.length := by
      unfold toSize
      omega
    unfold Channel.packetAdd
    dsimp only
    rw [if_neg (by omega : ¬ c.packetSize < bytes.length)]
    by_cases hfull : c.windowSize ≤ c.readAvail
    · -- no byte can be in it
      have hnone : bytes = [] := List.eq_nil_of_length_eq_zero (by omega)
      rw [if_pos hfull, hnone]
      refine ⟨rfl, rfl, rfl, ?_⟩
      intro other
      simp [inFlight, Arriving.queued, bytesFor, Queued.bytesFor]
    · rw [if_neg hfull, hsize, if_neg (by omega)]
      exact ⟨rfl, hsize, size_append _ _, fun other => bytesFor_append other _ _⟩
  | eof => exact ⟨rfl, rfl, rfl, fun _ => (List.append_nil _).symm⟩
  | close => exact ⟨rfl, rfl, rfl, fun _ => (List.append_nil _).symm⟩
  | other => exact ⟨rfl, rfl, size_append _ _, fun stream => bytesFor_append stream _ _⟩

theorem TakesIn.trans {c c' c'' : Channel} {packets more : List Queued} (h : TakesIn c c' packets)
    (h' : TakesIn c' c'' more) : TakesIn c c'' (packets ++ more) := by
  refine ⟨?_, ?_, ?_, ?_⟩
  · rw [h'.same, h.same]
  · rw [h'.avail, h.avail, size_append, Nat.add_assoc]
  · rw [h'.queue, h.queue, size_append, Nat.add_assoc]
  · intro stream
    rw [h'.bytes, h.bytes, bytesFor_append, List.append_assoc]

theorem foldl_takesIn {messages : List Arriving} {c : Channel}
    (hpacket : ∀ packet ∈ inFlight messages, packet.size ≤ c.packetSize)
    (hwindow : c.readAvail + size (inFlight messages) ≤ c.windowSize)
    (hfits : c.windowSize < 2 ^ 32) :
    TakesIn c (messages.foldl Channel.packetAdd c) (inFlight messages) := by
  induction messages generalizing c with
  | nil => exact ⟨rfl, rfl, rfl, fun _ => (List.append_nil _).symm⟩
  | cons message messages ih =>
    rw [inFlight_cons] at hpacket hwindow ⊢
    rw [size_append] at hwindow
    have hfirst := packetAdd_takesIn (fun packet h => hpacket packet (List.mem_append_left _ h))
      (by omega) hfits
    have hwindowSame : (c.packetAdd message).windowSize = c.windowSize := by rw [hfirst.same]
    have hpacketSame : (c.packetAdd message).packetSize = c.packetSize := by rw [hfirst.same]
    have havail := hfirst.avail
    refine hfirst.trans (ih ?_ (by omega) (by omega))
    intro packet h
    rw [hpacketSame]
    exact hpacket packet (List.mem_append_right _ h)

/-! What is read. -/

/-- A read has taken the first bytes of its stream and left the others. -/
structure Taken (stream : Stream) (want : ℕ) (packets : List Queued) (bytes : List UInt8)
    (left : List Queued) : Prop where
  front : bytesFor stream packets = bytes ++ bytesFor stream left
  others : ∀ other, other ≠ stream → bytesFor other left = bytesFor other packets
  sizes : size packets = bytes.length + size left
  le : bytes.length ≤ want
  nothing : bytes = [] → 0 < want → bytesFor stream packets = []

theorem Taken.skip {stream : Stream} {want : ℕ} {packets left : List Queued} {bytes : List UInt8}
    (h : Taken stream want packets bytes left) {packet : Queued}
    (hother : packet.bytesFor stream = []) :
    Taken stream want (packet :: packets) bytes (packet :: left) := by
  refine ⟨?_, ?_, ?_, h.le, ?_⟩
  · rw [bytesFor_cons, bytesFor_cons, hother, List.nil_append, List.nil_append, h.front]
  · intro other hne
    rw [bytesFor_cons, bytesFor_cons, h.others other hne]
  · rw [size_cons, size_cons, h.sizes, Nat.add_left_comm]
  · intro hnone hwant
    rw [bytesFor_cons, hother, h.nothing hnone hwant]
    rfl

theorem readPackets_taken (stream : Stream) (want : ℕ) (packets : List Queued) :
    Taken stream want packets (readPackets stream want packets).1
      (readPackets stream want packets).2 := by
  induction packets generalizing want with
  | nil => exact ⟨rfl, fun _ _ => rfl, rfl, Nat.zero_le _, fun _ _ => rfl⟩
  | cons packet packets ih =>
    unfold readPackets
    by_cases hnone : want = 0
    · rw [if_pos hnone]
      exact ⟨rfl, fun _ _ => rfl, (Nat.zero_add _).symm, Nat.zero_le _, fun _ h => by omega⟩
    · rw [if_neg hnone]
      cases packet with
      | other => exact (ih want).skip rfl
      | data id bytes =>
        dsimp only
        by_cases hid : id = stream
        · subst hid
          have hhere : Queued.bytesFor id (.data id bytes) = bytes := if_pos rfl
          rw [if_pos rfl]
          by_cases hall : bytes.length ≤ want
          · rw [if_pos hall]
            have hmore := ih (want - bytes.length)
            refine ⟨?_, ?_, ?_, ?_, ?_⟩
            · rw [bytesFor_cons, hhere, hmore.front, List.append_assoc]
            · intro other hne
              rw [bytesFor_cons, Queued.bytesFor, if_neg (Ne.symm hne), hmore.others other hne]
              rfl
            · rw [size_cons, hmore.sizes, List.length_append, Nat.add_assoc]
              rfl
            · have hle := hmore.le
              rw [List.length_append]
              omega
            · intro hempty hwant
              obtain ⟨hbytes, hrest⟩ := List.append_eq_nil_iff.mp hempty
              rw [bytesFor_cons, hhere, hbytes, hmore.nothing hrest (by rw [hbytes]; exact hwant)]
              rfl
          · rw [if_neg hall]
            refine ⟨?_, ?_, ?_, ?_, ?_⟩
            · rw [bytesFor_cons, bytesFor_cons, hhere, Queued.bytesFor, if_pos rfl,
                ← List.append_assoc, List.take_append_drop]
            · intro other hne
              rw [bytesFor_cons, bytesFor_cons, Queued.bytesFor, Queued.bytesFor,
                if_neg (Ne.symm hne), if_neg (Ne.symm hne)]
            · change bytes.length + size packets =
                (bytes.take want).length + ((bytes.drop want).length + size packets)
              rw [List.length_take, List.length_drop]
              omega
            · rw [List.length_take]
              omega
            · intro hempty hwant
              have hlen := congrArg List.length hempty
              rw [List.length_take, List.length_nil] at hlen
              omega
        · rw [if_neg hid]
          exact (ih want).skip (if_neg hid)

def Outcome.bytes : Outcome → List UInt8
  | .got bytes => bytes
  | _ => []

theorem bytesFor_given (outcome : Outcome) (stream other : Stream) :
    bytesFor other (outcome.given stream) = if stream = other then outcome.bytes else [] := by
  cases outcome with
  | got bytes => exact List.append_nil _
  | _ => exact (ite_self _).symm

/-- What takeData makes of a channel whose window has room for what has arrived. -/
structure TakesData (c c' : Channel) (stream : Stream) (buflen : ℕ) (arrived : List Queued)
    (drained : Drained) (outcome : Outcome) : Prop where
  same : c' = { c with
    eof := c'.eof, close := c'.close, readAvail := c'.readAvail, packets := c'.packets
    windowSize := c'.windowSize }
  avail : c'.readAvail + outcome.bytes.length = c.readAvail + size arrived
  window : c'.windowSize + outcome.bytes.length = c.windowSize
  queue : size c'.packets + outcome.bytes.length = size c.packets + size arrived
  le : outcome.bytes.length ≤ buflen
  front : bytesFor stream c.packets ++ bytesFor stream arrived =
    outcome.bytes ++ bytesFor stream c'.packets
  others : ∀ other, other ≠ stream →
    bytesFor other c.packets ++ bytesFor other arrived = bytesFor other c'.packets
  nothing : drained ≠ .error → outcome.bytes = [] → 0 < buflen → bytesFor stream c'.packets = []

theorem takeData_spec {c : Channel} (stream : Stream) (buflen : ℕ) {arrived : List Arriving}
    (drained : Drained) (hpacket : ∀ packet ∈ inFlight arrived, packet.size ≤ c.packetSize)
    (hwindow : c.readAvail + size (inFlight arrived) ≤ c.windowSize)
    (havail : c.readAvail = size c.packets) (hfits : c.windowSize < 2 ^ 32) :
    TakesData c (c.takeData stream buflen arrived drained).2 stream buflen (inFlight arrived)
      drained (c.takeData stream buflen arrived drained).1 := by
  have htakes := foldl_takesIn hpacket hwindow hfits
  unfold Channel.takeData
  generalize arrived.foldl Channel.packetAdd c = t at htakes
  dsimp only
  have hwindowSame : t.windowSize = c.windowSize := by rw [htakes.same]
  have hqueue := htakes.queue
  have hread := readPackets_taken stream buflen t.packets
  by_cases herror : drained = .error
  · rw [if_pos herror]
    refine ⟨?_, htakes.avail, hwindowSame, hqueue, Nat.zero_le _, (htakes.bytes stream).symm,
      fun other _ => (htakes.bytes other).symm, fun h => absurd herror h⟩
    rw [htakes.same]
  · rw [if_neg herror]
    generalize readPackets stream buflen t.packets = found at hread
    obtain ⟨bytes, left⟩ := found
    dsimp only at hread ⊢
    have hsizes := hread.sizes
    have hothers : ∀ other, other ≠ stream →
        bytesFor other c.packets ++ bytesFor other (inFlight arrived) = bytesFor other left := by
      intro other hne
      rw [hread.others other hne, htakes.bytes]
    by_cases hnone : bytes = []
    · have hfront : bytesFor stream c.packets ++ bytesFor stream (inFlight arrived) =
          [] ++ bytesFor stream left := by
        rw [← htakes.bytes, hread.front, hnone]
      subst hnone
      rw [if_pos rfl]
      dsimp only
      generalize hout : (if (t.eof || t.close || drained = .nothing) then Outcome.zero
        else Outcome.again) = outcome
      have hempty : outcome.bytes = [] := by
        rw [← hout]
        split <;> rfl
      refine ⟨?_, ?_, ?_, ?_, ?_, ?_, hothers, ?_⟩
      · rw [htakes.same]
      · rw [hempty]
        exact htakes.avail
      · rw [hempty]
        exact hwindowSame
      · rw [hempty]
        simp only [List.length_nil] at hsizes ⊢
        omega
      · rw [hempty]
        exact Nat.zero_le _
      · rw [hempty]
        exact hfront
      · intro _ _ hwant
        rw [← hread.nothing rfl hwant, hread.front]
        rfl
    · rw [if_neg hnone]
      have htaken := htakes.avail
      have hsizeAvail : toSize (t.readAvail - bytes.length) = t.readAvail - bytes.length := by
        unfold toSize
        omega
      have hsizeWindow : toSize (t.windowSize - bytes.length) = t.windowSize - bytes.length := by
        unfold toSize
        omega
      dsimp only
      rw [hsizeAvail, hsizeWindow]
      refine ⟨?_, ?_, ?_, ?_, hread.le, ?_, hothers, fun _ h => absurd h hnone⟩
      · rw [htakes.same]
      · change t.readAvail - bytes.length + bytes.length = _
        omega
      · change t.windowSize - bytes.length + bytes.length = _
        omega
      · change size left + bytes.length = _
        omega
      · change _ = bytes ++ bytesFor stream left
        rw [← htakes.bytes, hread.front]

/-! A step. -/

/-- What a new channel is and remains: its window is between three quarters of the first one and
little more than that, and a read that waits for its adjustment has not told the server yet. -/
structure ChannelInv (limit initial asked : ℕ) (c : Channel) : Prop where
  start : c.windowSizeInitial = initial
  queue : c.adjustQueue = 0
  low : initial / 4 * 3 ≤ c.windowSize
  high : c.windowSize ≤ initial + limit + minadjust
  avail : c.readAvail = size c.packets
  state : (c.jump1 = false ∧ c.adjusting = none) ∨
    (c.jump1 = true ∧ c.windowSize < initial / 4 * 3 + asked ∧
      c.adjusting = some (max (initial + asked - c.windowSize) minadjust))

/-- A read either has to be called again for its adjustment, or gives the server what its window
grows by and takes data. -/
theorem readEx_cases {limit initial asked : ℕ} {c : Channel} (hc : ChannelInv limit initial asked c)
    (hlimit : limit ≤ initial / 4 * 3) (hfits : initial + limit + minadjust < 2 ^ 32)
    (stream : Stream) {buflen : ℕ} (hbuflen : buflen ≤ limit) {sends : Sending × Sending}
    (hsends : sends.2 ≠ .fails) (hasked : c.jump1 = true → buflen = asked)
    (arrived : List Arriving) (drained : Drained) :
    (c.readEx stream buflen sends arrived drained = (.again, [], { c with
        jump1 := true, adjusting := some (max (initial + buflen - c.windowSize) minadjust) }) ∧
      c.windowSize < initial / 4 * 3 + buflen) ∨
    ∃ amounts, initial / 4 * 3 + buflen ≤ c.windowSize + amounts.sum ∧
      c.windowSize + amounts.sum ≤ initial + limit + minadjust ∧
        c.readEx stream buflen sends arrived drained =
          let c' := { c with
            windowSize := c.windowSize + amounts.sum, jump1 := false, adjusting := none }
          ((c'.takeData stream buflen arrived drained).1, amounts,
            (c'.takeData stream buflen arrived drained).2) := by
  obtain ⟨rfl, hqueue, hlow, hhigh, -, hstate⟩ := hc
  have hmin : minadjust = 1024 := rfl
  have hsize : toSize (c.windowSizeInitial / 4 * 3 + buflen : ℕ) =
      c.windowSizeInitial / 4 * 3 + buflen := by
    unfold toSize
    omega
  unfold Channel.readEx
  rw [if_neg (by omega)]
  unfold Channel.channelRead
  rw [hsize]
  by_cases hnarrow : c.jump1 = true ∨ c.windowSize < c.windowSizeInitial / 4 * 3 + buflen
  · have hbelow : c.windowSize < c.windowSizeInitial / 4 * 3 + buflen := by
      rcases hnarrow with hjump | hbelow
      · rcases hstate with ⟨hidle, -⟩ | ⟨-, hbelow, -⟩
        · rw [hidle] at hjump
          cases hjump
        · rw [hasked hjump]
          exact hbelow
      · exact hbelow
    have hadjust : toSize ((c.windowSizeInitial : ℤ) + buflen - c.windowSize) =
        c.windowSizeInitial + buflen - c.windowSize := by
      unfold toSize
      omega
    rw [if_pos hnarrow, hadjust]
    generalize hamount : max (c.windowSizeInitial + buflen - c.windowSize) minadjust = amount
    -- the adjustment is prepared now or has been before, with the same amount
    have hsend : Channel.receiveWindowAdjust { c with jump1 := true } amount false sends.2 =
        Channel.sendAdjust { c with jump1 := true } amount amount sends.2 := by
      unfold Channel.receiveWindowAdjust
      rcases hstate with ⟨-, hnone⟩ | ⟨hjump, -, hsome⟩
      · have htotal : toSize (amount + 0 : ℕ) = amount := by
          unfold toSize
          omega
        dsimp only
        rw [hnone, hqueue, htotal]
        dsimp only
        rw [if_neg (by omega), if_neg (by omega)]
      · dsimp only
        rw [hsome, ← hasked hjump, hamount]
    dsimp only
    rw [hsend]
    generalize hsent : sends.2 = send at hsends
    cases send with
    | fails => exact absurd rfl hsends
    | again => exact .inl ⟨rfl, hbelow⟩
    | done =>
      have hgrown : toSize (c.windowSize + amount : ℕ) = c.windowSize + [amount].sum := by
        unfold toSize
        rw [List.sum_singleton]
        omega
      refine .inr ⟨[amount], ?_, ?_, ?_⟩
      · rw [List.sum_singleton]
        omega
      · rw [List.sum_singleton]
        omega
      · unfold Channel.sendAdjust
        dsimp only
        rw [hgrown]
  · rw [if_neg hnarrow]
    rw [not_or] at hnarrow
    refine .inr ⟨[], by rw [List.sum_nil]; omega, by rw [List.sum_nil]; omega, ?_⟩
    rcases hstate with ⟨hidle, hnone⟩ | ⟨hjump, -, -⟩
    · have hsame : { c with windowSize := c.windowSize + [].sum, jump1 := false, adjusting := none } =
          c := by rw [List.sum_nil, Nat.add_zero, ← hidle, ← hnone]
      dsimp only
      rw [hsame]
    · exact absurd hjump hnarrow.1

/-- The channel counts as its window what the server may send, what is on its way, what has not
been read and what the server has not been told of. -/
structure FlowInv (limit initial : ℕ) (l : Flow) : Prop where
  channel : ChannelInv limit initial l.asked l.channel
  asked : l.channel.jump1 = true → l.asked ≤ limit
  window : l.credit + size (inFlight l.toClient) + l.channel.readAvail + l.toServer.sum =
    l.channel.windowSize
  whole : ∀ packet ∈ inFlight l.toClient, packet.size ≤ l.channel.packetSize
  bytes : ∀ stream, bytesFor stream l.sent = bytesFor stream l.given ++
    (bytesFor stream l.channel.packets ++ bytesFor stream (inFlight l.toClient))

theorem flowInv_opened (limit initial packetSize : ℕ) :
    FlowInv limit initial (Flow.opened initial packetSize) where
  channel := by
    have hlow : initial / 4 * 3 ≤ initial := by omega
    have hhigh : initial ≤ initial + limit + minadjust := by omega
    exact ⟨rfl, rfl, hlow, hhigh, rfl, .inl ⟨rfl, rfl⟩⟩
  asked h := nomatch h
  window := rfl
  whole := nofun
  bytes _ := rfl

theorem FlowInv.serverSends {limit initial : ℕ} {l : Flow} (h : FlowInv limit initial l)
    {message : Arriving} (hkeeps : ∀ packet ∈ inFlight [message],
      packet.size ≤ l.credit ∧ packet.size ≤ l.channel.packetSize) :
    FlowInv limit initial (l.serverSends message) := by
  have hsize : size (inFlight [message]) ≤ l.credit := by
    cases hqueued : message.queued with
    | none => simp [inFlight, hqueued]
    | some packet =>
      have hone := (hkeeps packet (by simp [inFlight, hqueued])).1
      simpa [inFlight, hqueued, size_cons] using hone
  refine ⟨h.channel, h.asked, ?_, ?_, ?_⟩
  · have hwindow := h.window
    change l.credit - size (inFlight [message]) + size (inFlight (l.toClient ++ [message])) +
      l.channel.readAvail + l.toServer.sum = l.channel.windowSize
    rw [inFlight_append, size_append]
    omega
  · intro packet hpacket
    change packet ∈ inFlight (l.toClient ++ [message]) at hpacket
    rw [inFlight_append] at hpacket
    rcases List.mem_append.mp hpacket with hold | hnew
    · exact h.whole packet hold
    · exact (hkeeps packet hnew).2
  · intro stream
    change bytesFor stream (l.sent ++ inFlight [message]) = bytesFor stream l.given ++
      (bytesFor stream l.channel.packets ++ bytesFor stream (inFlight (l.toClient ++ [message])))
    rw [inFlight_append, bytesFor_append, bytesFor_append, h.bytes]
    simp only [List.append_assoc]

theorem FlowInv.serverAdjusts {limit initial : ℕ} {l : Flow} (h : FlowInv limit initial l) :
    FlowInv limit initial l.serverAdjusts := by
  unfold Flow.serverAdjusts
  cases hamounts : l.toServer with
  | nil => exact h
  | cons amount amounts =>
    refine ⟨h.channel, h.asked, ?_, h.whole, h.bytes⟩
    have hwindow := h.window
    rw [hamounts, List.sum_cons] at hwindow
    dsimp only
    omega

theorem FlowInv.arrives {limit initial : ℕ} (hfits : initial + limit + minadjust < 2 ^ 32)
    {l : Flow} (h : FlowInv limit initial l) : FlowInv limit initial l.arrives := by
  unfold Flow.arrives
  cases hmessages : l.toClient with
  | nil => exact h
  | cons message messages =>
    obtain ⟨⟨hstart, hqueue, hlow, hhigh, havail, hstate⟩, hasked, hwindow, hwhole, hbytes⟩ := h
    rw [hmessages, inFlight_cons, size_append] at hwindow
    rw [hmessages, inFlight_cons] at hwhole
    have htakes := packetAdd_takesIn (c := l.channel)
      (fun packet hp => hwhole packet (List.mem_append_left _ hp)) (by omega) (by omega)
    have htaken := htakes.avail
    have hqueued := htakes.queue
    dsimp only
    generalize hc : l.channel.packetAdd message = c' at htakes htaken hqueued
    have hsame := htakes.same
    refine ⟨⟨?_, ?_, ?_, ?_, ?_, ?_⟩, ?_, ?_, ?_, ?_⟩
    · rw [hsame]
      exact hstart
    · rw [hsame]
      exact hqueue
    · rw [hsame]
      exact hlow
    · rw [hsame]
      exact hhigh
    · change c'.readAvail = size c'.packets
      omega
    · rw [hsame]
      exact hstate
    · rw [hsame]
      exact hasked
    · have hkept : c'.windowSize = l.channel.windowSize := by rw [hsame]
      dsimp only
      omega
    · intro packet hp
      rw [hsame]
      exact hwhole packet (List.mem_append_right _ hp)
    · intro stream
      dsimp only
      rw [hbytes, hmessages, inFlight_cons, bytesFor_append, htakes.bytes, List.append_assoc]

theorem FlowInv.read {limit initial : ℕ} (hlimit : limit ≤ initial / 4 * 3)
    (hfits : initial + limit + minadjust < 2 ^ 32) {l : Flow} (h : FlowInv limit initial l)
    (stream : Stream) {buflen : ℕ} (hbuflen : buflen ≤ limit) {sends : Sending × Sending}
    (hsends : sends.2 ≠ .fails) (hasked : l.channel.jump1 = true → buflen = l.asked)
    (arrivals : ℕ) (drained : Drained) :
    let l' := l.read stream buflen sends arrivals drained
    FlowInv limit initial l' ∧
      (l'.channel.jump1 = false → drained ≠ .error → 0 < buflen → l.toClient.length ≤ arrivals →
        bytesFor stream l'.given = bytesFor stream l.given →
          bytesFor stream l'.channel.packets = [] ∧ l'.toClient = []) := by
  obtain ⟨hchannel, -, hwindow, hwhole, hbytes⟩ := h
  have hcases := readEx_cases hchannel hlimit hfits stream hbuflen hsends hasked
    (l.toClient.take arrivals) drained
  obtain ⟨hstart, hqueue, hlow, hhigh, havail, hstate⟩ := hchannel
  unfold Flow.read
  rcases hcases with ⟨hagain, hbelow⟩ | ⟨amounts, hlow', hhigh', hread⟩
  · rw [hagain]
    unfold Outcome.given
    dsimp only
    rw [if_pos rfl, List.append_nil, List.append_nil]
    exact ⟨⟨⟨hstart, hqueue, hlow, hhigh, havail, .inr ⟨rfl, hbelow, by rw [hstart]⟩⟩,
      fun _ => hbuflen, hwindow, hwhole, hbytes⟩, nofun⟩
  · rw [hread]
    have hsplit : inFlight l.toClient =
        inFlight (l.toClient.take arrivals) ++ inFlight (l.toClient.drop arrivals) := by
      rw [← inFlight_append, List.take_append_drop]
    rw [hsplit, size_append] at hwindow
    have hpacket : ∀ packet ∈ inFlight (l.toClient.take arrivals),
        packet.size ≤ l.channel.packetSize := by
      intro packet hp
      refine hwhole packet ?_
      rw [hsplit]
      exact List.mem_append_left _ hp
    have htakes := takeData_spec (c := { l.channel with
      windowSize := l.channel.windowSize + amounts.sum, jump1 := false, adjusting := none }) stream
        buflen drained hpacket (by dsimp only; omega) havail (by dsimp only; omega)
    dsimp only
    generalize Channel.takeData _ stream buflen _ drained = result at htakes
    obtain ⟨outcome, c'⟩ := result
    obtain ⟨hsame, htaken, hwindow', hqueued, hle, hfront, hothers, hnothing⟩ := htakes
    dsimp only at hsame htaken hwindow' hqueued hle hfront hothers hnothing ⊢
    have hjump : c'.jump1 = false := by rw [hsame]
    rw [hjump, if_neg Bool.false_ne_true]
    refine ⟨⟨⟨?_, ?_, ?_, ?_, ?_, ?_⟩, ?_, ?_, ?_, ?_⟩, ?_⟩
    · rw [hsame]
      exact hstart
    · rw [hsame]
      exact hqueue
    · dsimp only
      omega
    · dsimp only
      omega
    · change c'.readAvail = size c'.packets
      omega
    · rw [hsame]
      exact .inl ⟨rfl, rfl⟩
    · intro hwaits
      rw [hsame] at hwaits
      cases hwaits
    · dsimp only
      rw [List.sum_append]
      omega
    · intro packet hp
      rw [hsame]
      refine hwhole packet ?_
      rw [hsplit]
      exact List.mem_append_right _ hp
    · intro other
      dsimp only
      rw [hbytes, bytesFor_append, bytesFor_given, hsplit, bytesFor_append]
      by_cases hother : stream = other
      · subst hother
        rw [if_pos rfl, ← List.append_assoc (bytesFor stream l.channel.packets), hfront]
        simp only [List.append_assoc]
      · rw [if_neg hother, List.append_nil, ← hothers other (Ne.symm hother), List.append_assoc]
    · intro _ herror hwant hall hsame
      rw [bytesFor_append, bytesFor_given, if_pos rfl] at hsame
      have hnone := List.append_right_eq_self.mp hsame
      exact ⟨hnothing herror hnone hwant, List.drop_of_length_le hall⟩

theorem FlowInv.step {limit initial : ℕ} (hlimit : limit ≤ initial / 4 * 3)
    (hfits : initial + limit + minadjust < 2 ^ 32) {l : Flow} (h : FlowInv limit initial l)
    {e : FlowEvent} (he : KeepsTo limit l e) : FlowInv limit initial (flowStep l e) := by
  cases e with
  | serverSends message => exact h.serverSends he
  | serverAdjusts => exact h.serverAdjusts
  | arrives => exact h.arrives hfits
  | read stream buflen sends arrivals drained =>
    obtain ⟨hbuflen, hsends, hasked⟩ := he
    exact (h.read hlimit hfits stream hbuflen hsends hasked arrivals drained).1

/-- A small window: the first read has to be called again for its adjustment, stderr is not read. -/
def smallWindow : List FlowEvent :=
  [.serverSends (.data none [0x68, 0x69]), .read none 4 (.done, .again) 1 .eagain, .arrives,
    .serverSends .other, .read none 4 (.done, .done) 0 .eagain, .serverAdjusts,
    .serverSends (.data (some 1) [0x21]), .serverSends (.data none [0x6a, 0x74, 0x65, 0x72, 0x6d]),
    .read none 4 (.done, .done) 3 .eagain]

-- An adjustment that transport_send has refused is queued, although it will be sent; the next one
-- then tells the server more than the window grows by if it, too, takes two calls.
example :
    let grown := .serverSends (.data none (List.replicate 1024 0))
    let l := run flowStep (Flow.opened 8 2048)
      [.read none 4 (.done, .fails) 0 .eagain, .read none 4 (.done, .done) 0 .eagain,
        .serverAdjusts, grown, .read none 1024 (.done, .done) 1 .eagain,
        .read none 4 (.done, .again) 0 .eagain, .read none 4 (.done, .done) 0 .eagain,
        .serverAdjusts]
    l.channel.windowSize = 1032 ∧ l.credit = 2056 := by decide +kernel

end Jterm.Ssh.Window
