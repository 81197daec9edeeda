import Jterm.Lib.Runs
import Mathlib.Data.Int.Notation

/-!
Typing into the SSH channel. `ssh_send` copies its string to the one staging buffer
and calls `_libssh2_channel_write` once, whatever that returns. The write is
resumable: a closed window, a short write and an EAGAIN are all reported to the
caller, who has to call again. What follows says exactly which calls lose nothing.
The channel is open, so `local.close` and `local.eof` are not set.
-/
namespace Jterm.Ssh

open Runs

inductive WriteState
  | idle
  | created
  deriving DecidableEq, Repr

/-- The packet in `p->outbuf` that the socket has not taken whole: one built from
`channel->write_packet`, with its channel data, or one of another function. -/
inductive Outgoing
  | channelData (payload : List UInt8)
  | other
  deriving DecidableEq, Repr

/-- `sent` is the data of the CHANNEL_DATA packets the socket has taken whole, `passed`
what the page has given to ssh_send. -/
structure Writer where
  writeState : WriteState
  writeBufwrite : ℕ
  windowSize : UInt32
  packetSize : UInt32
  pending : Option Outgoing
  strptr : List UInt8
  sent : List UInt8
  passed : List UInt8
  deriving DecidableEq, Repr

/-- What a transport_send finds of a key exchange; one that is running goes on in it. -/
inductive Exchange
  | absent
  | waits
  | fails
  | completes
  deriving DecidableEq, Repr

inductive SocketResult
  | whole
  | blocked
  | fails
  deriving DecidableEq, Repr

/-- How one transport_send goes; `leavesOther` says whether a packet of the key exchange
is in `outbuf` after it. -/
structure Sending where
  exchange : Exchange
  leavesOther : Bool
  socket : SocketResult
  deriving DecidableEq, Repr

inductive Outcome
  | done
  | eagain
  | error
  deriving DecidableEq, Repr

/-- Other functions finish their packet or leave one, but only if none of the channel's
is in their way. -/
def otherPacket (pending : Option Outgoing) (leavesOther : Bool) : Option Outgoing :=
  match pending with
  | some (.channelData payload) => some (.channelData payload)
  | _ => if leavesOther then some .other else none

def afterExchange (pending : Option Outgoing) (sending : Sending) : Option Outgoing :=
  if sending.exchange = .absent then pending else otherPacket pending sending.leavesOther

/-- The packet already in `outbuf` is finished first if it is one of the channel's, and
the call then returns without a look at `payload`; another packet is a BAD_USE. -/
def sendPacket (w : Writer) (payload : List UInt8) (socket : SocketResult) : Outcome × Writer :=
  match w.pending, socket with
  | some .other, _ => (.error, w)
  | some (.channelData old), .whole => (.done, { w with pending := none, sent := w.sent ++ old })
  | some (.channelData _), .blocked => (.eagain, w)
  | some (.channelData _), .fails => (.error, w)
  | none, .whole => (.done, { w with sent := w.sent ++ payload })
  | none, .blocked => (.eagain, { w with pending := some (.channelData payload) })
  | none, .fails => (.error, w)

/-- `_libssh2_transport_send` of `channel->write_packet` and `payload`. -/
def transportSend (w : Writer) (payload : List UInt8) (sending : Sending) : Outcome × Writer :=
  let w := { w with pending := afterExchange w.pending sending }
  match sending.exchange with
  | .waits => (.eagain, w)
  | .fails => (.error, w)
  | _ => sendPacket w payload sending.socket

/-- What reading the incoming flow does: it may fail, window adjustments add up, and
the packets it makes other functions send come and go. -/
structure Drain where
  fails : Bool
  adjust : UInt32
  leavesOther : Bool
  deriving DecidableEq, Repr

def drained (w : Writer) (drain : Drain) : Writer :=
  { w with
    windowSize := w.windowSize + drain.adjust
    pending := otherPacket w.pending drain.leavesOther }

/-- `channel->write_bufwrite` of a new packet. -/
def bufwrite (w : Writer) (buflen : ℕ) : ℕ :=
  min (min (min buflen 32700) w.windowSize.toNat) w.packetSize.toNat

def withHeader (w : Writer) (buflen : ℕ) : Writer :=
  { w with writeBufwrite := bufwrite w buflen, writeState := .created }

/-- The second half of the write: the packet of state created is sent. -/
def writeCreated (w : Writer) (sending : Sending) : Writer :=
  match transportSend w (w.strptr.take w.writeBufwrite) sending with
  | (.eagain, w) => w
  | (.error, w) => { w with writeState := .idle }
  | (.done, w) =>
    { w with windowSize := w.windowSize - w.writeBufwrite.toUInt32, writeState := .idle }

def channelWrite (w : Writer) (buflen : ℕ) (drain : Drain) (sending : Sending) : Writer :=
  match w.writeState with
  | .created => writeCreated w sending
  | .idle =>
    if drain.fails then drained w drain
    else if (drained w drain).windowSize = 0 then drained w drain
    else writeCreated (withHeader (drained w drain) buflen) sending

/-- A string that fits in `strptr` with the two zeros written behind it. -/
structure Typed where
  chars : List UInt8
  fits : chars.length + 2 ≤ 2048
  deriving DecidableEq, Repr

/-- `writeAsciiToMemory` and the second zero of ssh_send. -/
def stage (strptr : List UInt8) (data : Typed) : List UInt8 :=
  data.chars ++ [0, 0] ++ strptr.drop (data.chars.length + 2)

def staged (w : Writer) (data : Typed) : Writer :=
  { w with strptr := stage w.strptr data, passed := w.passed ++ data.chars }

inductive Event
  | sshSend (data : Typed) (drain : Drain) (sending : Sending)
  | otherCall (drain : Drain)
  deriving DecidableEq, Repr

/-- The page ignores the result of the write. -/
def step (w : Writer) : Event → Writer
  | .sshSend data drain sending =>
      channelWrite (staged w data) data.chars.length drain sending
  | .otherCall drain => drained w drain

def openedChannel (windowSize packetSize : UInt32) (strptr : List UInt8) : Writer :=
  ⟨.idle, 0, windowSize, packetSize, none, strptr, [], []⟩

/-- What a later call still sends: the data of the packet in `outbuf`, else what the
staging buffer holds for a packet that has a header only. -/
def held (w : Writer) : List UInt8 :=
  match w.pending with
  | some (.channelData payload) => payload
  | _ =>
    match w.writeState with
    | .created => w.strptr.take w.writeBufwrite
    | .idle => []

def Kept (w : Writer) : Prop := w.sent ++ held w = w.passed

/-- The packet of the channel is built and sent, or waits for the key exchange. -/
def Accepted (pending : Option Outgoing) (sending : Sending) : Prop :=
  sending.exchange = .waits ∨ sending.exchange ≠ .fails ∧ sending.socket ≠ .fails ∧
    afterExchange pending sending ≠ some .other

/-- The calls of ssh_send that lose nothing. An earlier write that has not finished
leaves no room for a new string, and its own bytes must survive the staging. -/
def SendKeeps (w : Writer) (data : Typed) (drain : Drain) (sending : Sending) : Prop :=
  match w.writeState, w.pending with
  | _, some (.channelData _) => data.chars = []
  | .idle, _ =>
      data.chars = [] ∨ drain.fails = false ∧
        data.chars.length ≤ bufwrite (drained w drain) data.chars.length ∧
        Accepted (otherPacket w.pending drain.leavesOther) sending
  | .created, pending =>
      data.chars = [] ∧ (w.strptr.take w.writeBufwrite = [] ∨ Accepted pending sending ∧
        (stage w.strptr data).take w.writeBufwrite = w.strptr.take w.writeBufwrite)

def StepKeeps (w : Writer) : Event → Prop
  | .sshSend data drain sending => SendKeeps w data drain sending
  | .otherCall _ => True

theorem stage_length (strptr : List UInt8) (data : Typed) (h : strptr.length = 2048) :
    (stage strptr data).length = 2048 := by
  have := data.fits
  simp only [stage, List.length_append, List.length_cons, List.length_nil, List.length_drop]
  omega

theorem stage_take (strptr : List UInt8) (data : Typed) (n : ℕ) (h : n ≤ data.chars.length) :
    (stage strptr data).take n = data.chars.take n := by
  rw [stage, List.append_assoc, List.take_append_of_le_length h]

theorem otherPacket_channelData (pending : Option Outgoing) (leavesOther : Bool)
    (old : List UInt8) : otherPacket pending leavesOther = some (.channelData old) ↔
      pending = some (.channelData old) := by
  unfold otherPacket
  split
  · rfl
  · rename_i hnot
    constructor
    · intro h
      split at h <;> simp at h
    · intro h
      exact absurd h (hnot old)

theorem afterExchange_channelData (pending : Option Outgoing) (sending : Sending)
    (old : List UInt8) : afterExchange pending sending = some (.channelData old) ↔
      pending = some (.channelData old) := by
  unfold afterExchange
  split
  · rfl
  · exact otherPacket_channelData pending _ old

/-- With a packet of the channel in `outbuf` the write gets rid of that packet at most. -/
theorem writeCreated_pending (w : Writer) (sending : Sending) (old : List UInt8)
    (h : w.pending = some (.channelData old)) :
    (writeCreated w sending).sent ++ held (writeCreated w sending) = w.sent ++ old ∧
      (writeCreated w sending).passed = w.passed := by
  have hafter := (afterExchange_channelData w.pending sending old).mpr h
  cases hexchange : sending.exchange <;> cases hsocket : sending.socket <;>
    simp [writeCreated, transportSend, sendPacket, held, hafter, hexchange, hsocket]

/-- Otherwise the data of state created is sent or kept when it is accepted, and lost
when it is not. -/
theorem writeCreated_unbuilt (w : Writer) (sending : Sending) (hstate : w.writeState = .created)
    (h : ∀ old, w.pending ≠ some (.channelData old)) :
    ((writeCreated w sending).passed = w.passed) ∧
      (Accepted w.pending sending →
        (writeCreated w sending).sent ++ held (writeCreated w sending) =
          w.sent ++ w.strptr.take w.writeBufwrite) ∧
      (¬ Accepted w.pending sending →
        (writeCreated w sending).sent ++ held (writeCreated w sending) = w.sent) := by
  cases hafter : afterExchange w.pending sending with
  | none =>
    cases hexchange : sending.exchange <;> cases hsocket : sending.socket <;>
      simp [writeCreated, transportSend, sendPacket, held, Accepted, hafter, hexchange, hsocket,
        hstate]
  | some outgoing =>
    cases outgoing with
    | channelData old => exact absurd ((afterExchange_channelData _ _ old).mp hafter) (h old)
    | other =>
      cases hexchange : sending.exchange <;>
        simp [writeCreated, transportSend, sendPacket, held, Accepted, hafter, hexchange, hstate]

theorem held_pending (w : Writer) (old : List UInt8) (h : w.pending = some (.channelData old)) :
    held w = old := by
  simp [held, h]

theorem held_idle (w : Writer) (hstate : w.writeState = .idle)
    (h : ∀ old, w.pending ≠ some (.channelData old)) : held w = [] := by
  unfold held
  split
  · rename_i old hold
    exact absurd hold (h old)
  · rw [hstate]

theorem held_created (w : Writer) (hstate : w.writeState = .created)
    (h : ∀ old, w.pending ≠ some (.channelData old)) :
    held w = w.strptr.take w.writeBufwrite := by
  unfold held
  split
  · rename_i old hold
    exact absurd hold (h old)
  · rw [hstate]

theorem drained_pending (w : Writer) (drain : Drain) (old : List UInt8) :
    (drained w drain).pending = some (.channelData old) ↔
      w.pending = some (.channelData old) :=
  otherPacket_channelData w.pending drain.leavesOther old

/-- What other calls of libssh2 do changes nothing that is held. -/
theorem drained_held (w : Writer) (drain : Drain) : held (drained w drain) = held w := by
  by_cases h : ∃ old, w.pending = some (.channelData old)
  · obtain ⟨old, hold⟩ := h
    rw [held_pending w old hold, held_pending _ old ((drained_pending w drain old).mpr hold)]
  · have hw : ∀ old, w.pending ≠ some (.channelData old) := fun old hold => h ⟨old, hold⟩
    have hd : ∀ old, (drained w drain).pending ≠ some (.channelData old) :=
      fun old hold => hw old ((drained_pending w drain old).mp hold)
    cases hstate : w.writeState with
    | idle => rw [held_idle w hstate hw, held_idle (drained w drain) hstate hd]
    | created =>
      rw [held_created w hstate hw, held_created (drained w drain) hstate hd]
      rfl

theorem step_strptr (w : Writer) (e : Event) (h : w.strptr.length = 2048) :
    (step w e).strptr.length = 2048 := by
  have hsend : ∀ (w : Writer) (payload : List UInt8) (sending : Sending),
      (transportSend w payload sending).2.strptr = w.strptr := by
    intro w payload sending
    simp only [transportSend]
    split
    · rfl
    · rfl
    · unfold sendPacket
      split <;> rfl
  have hwrite : ∀ (w : Writer) (sending : Sending),
      (writeCreated w sending).strptr = w.strptr := by
    intro w sending
    have hkeep := hsend w (w.strptr.take w.writeBufwrite) sending
    unfold writeCreated
    split <;> rename_i heq <;> rw [heq] at hkeep <;> exact hkeep
  cases e with
  | otherCall drain => exact h
  | sshSend data drain sending =>
    have hstage := stage_length w.strptr data h
    simp only [step, channelWrite]
    split
    · rw [hwrite]
      exact hstage
    · split
      · exact hstage
      · split
        · exact hstage
        · rw [hwrite]
          exact hstage

theorem sendKeeps_pending (w : Writer) (data : Typed) (drain : Drain) (sending : Sending)
    (old : List UInt8) (h : w.pending = some (.channelData old)) :
    SendKeeps w data drain sending ↔ data.chars = [] := by
  simp [SendKeeps, h]

theorem sendKeeps_idle (w : Writer) (data : Typed) (drain : Drain) (sending : Sending)
    (hstate : w.writeState = .idle) (h : ∀ old, w.pending ≠ some (.channelData old)) :
    SendKeeps w data drain sending ↔ data.chars = [] ∨ drain.fails = false ∧
      data.chars.length ≤ bufwrite (drained w drain) data.chars.length ∧
      Accepted (drained w drain).pending sending := by
  cases hpending : w.pending with
  | none => simp [SendKeeps, hstate, hpending, drained]
  | some outgoing =>
    cases outgoing with
    | channelData old => exact absurd hpending (h old)
    | other => simp [SendKeeps, hstate, hpending, drained]

theorem sendKeeps_created (w : Writer) (data : Typed) (drain : Drain) (sending : Sending)
    (hstate : w.writeState = .created) (h : ∀ old, w.pending ≠ some (.channelData old)) :
    SendKeeps w data drain sending ↔ data.chars = [] ∧ (w.strptr.take w.writeBufwrite = [] ∨
      Accepted w.pending sending ∧
        (stage w.strptr data).take w.writeBufwrite = w.strptr.take w.writeBufwrite) := by
  cases hpending : w.pending with
  | none => simp [SendKeeps, hstate, hpending]
  | some outgoing =>
    cases outgoing with
    | channelData old => exact absurd hpending (h old)
    | other => simp [SendKeeps, hstate, hpending]

/-- The call with the string already staged; `front` is what was held before it. -/
theorem kept_iff_tail {w w' : Writer} {front data tail : List UInt8} (hkept : Kept w)
    (hfront : held w = front) (hpassed : w'.passed = w.passed ++ data)
    (hsum : w'.sent ++ held w' = w.sent ++ tail) : Kept w' ↔ tail = front ++ data := by
  unfold Kept at hkept ⊢
  rw [hsum, hpassed, ← hkept, hfront, List.append_assoc, List.append_cancel_left_eq]

theorem channelWrite_created (w : Writer) (buflen : ℕ) (drain : Drain) (sending : Sending)
    (h : w.writeState = .created) : channelWrite w buflen drain sending = writeCreated w sending := by
  simp only [channelWrite, h]

theorem channelWrite_idle (w : Writer) (buflen : ℕ) (drain : Drain) (sending : Sending)
    (h : w.writeState = .idle) :
    channelWrite w buflen drain sending =
      if drain.fails ∨ (drained w drain).windowSize = 0 then drained w drain
      else writeCreated (withHeader (drained w drain) buflen) sending := by
  simp only [channelWrite, h]
  cases drain.fails <;> simp

/-- A call of ssh_send while data of an earlier one is in `outbuf`. -/
theorem sshSend_pending (w : Writer) (data : Typed) (drain : Drain) (sending : Sending)
    (old : List UInt8) (h : w.pending = some (.channelData old)) (hkept : Kept w) :
    Kept (step w (.sshSend data drain sending)) ↔ data.chars = [] := by
  have htail : (old = old ++ data.chars) ↔ data.chars = [] := by simp
  have hfront : held w = old := held_pending w old h
  have hdrained : (drained (staged w data) drain).pending = some (.channelData old) :=
    (drained_pending (staged w data) drain old).mpr h
  rw [← htail, step]
  cases hstate : w.writeState with
  | created =>
    rw [channelWrite_created (staged w data) _ _ _ hstate]
    obtain ⟨hsum, hpassed⟩ := writeCreated_pending (staged w data) sending old h
    exact kept_iff_tail hkept hfront hpassed hsum
  | idle =>
    rw [channelWrite_idle (staged w data) _ _ _ hstate]
    split
    · apply kept_iff_tail hkept hfront rfl
      rw [held_pending _ old hdrained]
      rfl
    · obtain ⟨hsum, hpassed⟩ := writeCreated_pending
        (withHeader (drained (staged w data) drain) data.chars.length) sending old hdrained
      exact kept_iff_tail hkept hfront hpassed hsum

/-- A call of ssh_send when the earlier ones are done. -/
theorem sshSend_idle (w : Writer) (data : Typed) (drain : Drain) (sending : Sending)
    (hstate : w.writeState = .idle) (h : ∀ old, w.pending ≠ some (.channelData old))
    (hkept : Kept w) :
    Kept (step w (.sshSend data drain sending)) ↔ SendKeeps w data drain sending := by
  have hfront : held w = [] := held_idle w hstate h
  have hother : ∀ old, (drained (staged w data) drain).pending ≠ some (.channelData old) :=
    fun old hold => h old ((drained_pending (staged w data) drain old).mp hold)
  rw [sendKeeps_idle w data drain sending hstate h, step,
    channelWrite_idle (staged w data) _ _ _ hstate]
  set n := bufwrite (drained w drain) data.chars.length with hn
  have hle : n ≤ data.chars.length := by
    simp only [hn, bufwrite]
    omega
  by_cases hnot : drain.fails = true ∨ (drained (staged w data) drain).windowSize = 0
  · have hsum : (drained (staged w data) drain).sent ++ held (drained (staged w data) drain) =
        w.sent ++ [] := by
      rw [held_idle (drained (staged w data) drain) hstate hother]
      rfl
    rw [if_pos hnot, kept_iff_tail hkept hfront rfl hsum, List.nil_append]
    have hzero : drain.fails = false → n = 0 := by
      intro hfails
      have hwindow : (drained w drain).windowSize = 0 :=
        hnot.resolve_left (by simp [hfails])
      simp [hn, bufwrite, hwindow]
    constructor
    · intro hnil
      exact Or.inl hnil.symm
    · rintro (hnil | ⟨hfails, hlen, -⟩)
      · exact hnil.symm
      · have := hzero hfails
        exact (List.length_eq_zero_iff.mp (by omega)).symm
  · rw [if_neg hnot]
    have hfails : drain.fails = false := by
      by_contra hf
      exact hnot (Or.inl (by simpa using hf))
    obtain ⟨hpassed, hyes, hno⟩ := writeCreated_unbuilt
      (withHeader (drained (staged w data) drain) data.chars.length) sending rfl hother
    by_cases hacc : Accepted (drained w drain).pending sending
    · rw [kept_iff_tail hkept hfront hpassed (hyes hacc), List.nil_append]
      change (stage w.strptr data).take n = data.chars ↔ _
      rw [stage_take _ data n hle]
      constructor
      · intro heq
        have hlen := congrArg List.length heq
        rw [List.length_take] at hlen
        exact Or.inr ⟨hfails, by omega, hacc⟩
      · rintro (hnil | ⟨-, hlen, -⟩)
        · rw [hnil, List.take_nil]
        · exact List.take_of_length_le hlen
    · rw [kept_iff_tail hkept hfront hpassed ((hno hacc).trans (List.append_nil _).symm),
        List.nil_append]
      constructor
      · intro hnil
        exact Or.inl hnil.symm
      · rintro (hnil | ⟨-, -, hacc'⟩)
        · exact hnil.symm
        · exact absurd hacc' hacc

/-- A call of ssh_send while the header of an earlier one waits for the key exchange. -/
theorem sshSend_created (w : Writer) (data : Typed) (drain : Drain) (sending : Sending)
    (hstate : w.writeState = .created) (h : ∀ old, w.pending ≠ some (.channelData old))
    (hlength : w.strptr.length = 2048) (hkept : Kept w) :
    Kept (step w (.sshSend data drain sending)) ↔ SendKeeps w data drain sending := by
  have hfront : held w = w.strptr.take w.writeBufwrite := held_created w hstate h
  have hstage : (stage w.strptr data).length = 2048 := stage_length w.strptr data hlength
  rw [sendKeeps_created w data drain sending hstate h, step,
    channelWrite_created (staged w data) _ _ _ hstate]
  obtain ⟨hpassed, hyes, hno⟩ := writeCreated_unbuilt (staged w data) sending hstate h
  by_cases hacc : Accepted w.pending sending
  · rw [kept_iff_tail hkept hfront hpassed (hyes hacc)]
    change (stage w.strptr data).take w.writeBufwrite = _ ↔ _
    constructor
    · intro heq
      have hlen := congrArg List.length heq
      simp only [List.length_append, List.length_take, hstage, hlength] at hlen
      have hnil : data.chars = [] := List.length_eq_zero_iff.mp (by omega)
      rw [hnil, List.append_nil] at heq
      exact ⟨hnil, Or.inr ⟨hacc, heq⟩⟩
    · rintro ⟨hnil, hempty | ⟨-, heq⟩⟩
      · have hlen := congrArg List.length hempty
        rw [List.length_take, hlength, List.length_nil] at hlen
        have hzero : w.writeBufwrite = 0 := by omega
        simp [hzero, hnil]
      · rw [heq, hnil, List.append_nil]
  · rw [kept_iff_tail hkept hfront hpassed ((hno hacc).trans (List.append_nil _).symm)]
    constructor
    · intro heq
      obtain ⟨hempty, hnil⟩ := List.append_eq_nil_iff.mp heq.symm
      exact ⟨hnil, Or.inl hempty⟩
    · rintro ⟨hnil, hempty | ⟨hacc', -⟩⟩
      · rw [hempty, hnil, List.append_nil]
      · exact absurd hacc' hacc

theorem step_kept_iff (w : Writer) (e : Event) (hlength : w.strptr.length = 2048)
    (hkept : Kept w) : Kept (step w e) ↔ StepKeeps w e := by
  cases e with
  | otherCall drain =>
    have hsame : Kept (step w (.otherCall drain)) := by
      change w.sent ++ held (drained w drain) = w.passed
      rw [drained_held]
      exact hkept
    simp [hsame, StepKeeps]
  | sshSend data drain sending =>
    by_cases hchannel : ∃ old, w.pending = some (.channelData old)
    · obtain ⟨old, hold⟩ := hchannel
      exact (sshSend_pending w data drain sending old hold hkept).trans
        (sendKeeps_pending w data drain sending old hold).symm
    · have hother : ∀ old, w.pending ≠ some (.channelData old) :=
        fun old hold => hchannel ⟨old, hold⟩
      cases hstate : w.writeState with
      | idle => exact sshSend_idle w data drain sending hstate hother hkept
      | created => exact sshSend_created w data drain sending hstate hother hlength hkept

/-- Nothing is lost or altered at any moment of a run exactly when every call of
ssh_send finds the channel able to take or keep the whole string. -/
theorem run_kept_iff (windowSize packetSize : UInt32) (strptr : List UInt8) (es : List Event)
    (hlength : strptr.length = 2048) :
    (∀ pre, pre <+: es → Kept (run step (openedChannel windowSize packetSize strptr) pre)) ↔
      AllSteps step StepKeeps (openedChannel windowSize packetSize strptr) es :=
  forall_prefix_iff step step_strptr step_kept_iff hlength rfl

def typedAb : Typed := ⟨[0x61, 0x62], by decide⟩

def quiet : Drain := ⟨false, 0, false⟩

def toSocket (socket : SocketResult) : Sending := ⟨.absent, false, socket⟩

/-- "ab" typed twice into an open window. -/
theorem run_kept_iff_twice :
    Kept (run step (openedChannel 1000 32768 (List.replicate 2048 0))
      [.sshSend typedAb quiet (toSocket .whole), .sshSend typedAb quiet (toSocket .blocked)]) :=
  (run_kept_iff 1000 32768 (List.replicate 2048 0)
    [.sshSend typedAb quiet (toSocket .whole), .sshSend typedAb quiet (toSocket .blocked)]
    List.length_replicate).mpr
    ⟨Or.inr (by unfold Accepted; decide), Or.inr (by unfold Accepted; decide), trivial⟩ _
    List.prefix_rfl

/-- A window of one byte takes the "a" of "ab"; after a key exchange the "a" goes out
instead of the "c" typed during it. -/
theorem run_loses_typed :
    ¬ Kept (run step (openedChannel 1 32768 (List.replicate 2048 0))
        [.sshSend typedAb quiet (toSocket .whole)]) ∧
      ¬ Kept (run step (openedChannel 1000 32768 (List.replicate 2048 0))
        [.sshSend ⟨[0x63], by decide⟩ quiet ⟨.waits, false, .whole⟩,
          .sshSend typedAb quiet (toSocket .whole)]) := by
  unfold Kept
  decide

end Jterm.Ssh
