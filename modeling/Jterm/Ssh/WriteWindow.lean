import Jterm.Ssh.ChannelWrite
import Mathlib.Algebra.Ring.Nat

/-!
The window in the other direction: what the page types stays within the window and the packet
size that the server has set, in whatever pieces the packets and the window adjustments go.
-/
namespace Jterm.Ssh

open Runs

/-- A writer, and all the window that it has been told of. -/
structure Granted where
  writer : Writer
  granted : ℕ
  deriving DecidableEq, Repr

/-- What a call adds to the window; a write in state created does not read. -/
def adjusts (w : Writer) : Event → ℕ
  | .sshSend _ drain _ => if w.writeState = .idle then drain.adjust.toNat else 0
  | .otherCall drain => drain.adjust.toNat

def grantStep (g : Granted) (e : Event) : Granted := ⟨step g.writer e, g.granted + adjusts g.writer e⟩

/-- The server's window stays a uint32, and neither the key exchange nor the socket fails. -/
def Lasting (g : Granted) (e : Event) : Prop :=
  g.writer.windowSize.toNat + adjusts g.writer e < 2 ^ 32 ∧
    match e with
    | .sshSend _ _ sending => sending.exchange ≠ .fails ∧ sending.socket ≠ .fails
    | .otherCall _ => True

instance : DecidableRel Lasting
  | _, .sshSend _ _ _ => inferInstanceAs (Decidable (_ ∧ _ ∧ _))
  | _, .otherCall _ => inferInstanceAs (Decidable (_ ∧ True))

/-- The window is what has been granted and not been sent. A packet that has not been sent whole
is one of a write in state created, and its data is in the window. -/
structure WindowInv (packetSize : UInt32) (g : Granted) : Prop where
  strptr : g.writer.strptr.length = 2048
  packets : g.writer.packetSize = packetSize
  window : g.writer.sent.length + g.writer.windowSize.toNat = g.granted
  pending : ∀ old, g.writer.pending = some (.channelData old) →
    g.writer.writeState = .created ∧ old.length = g.writer.writeBufwrite
  created : g.writer.writeState = .created → g.writer.writeBufwrite ≤ g.writer.windowSize.toNat ∧
    g.writer.writeBufwrite ≤ packetSize.toNat ∧ g.writer.writeBufwrite ≤ 2048

theorem WindowInv.drained {packetSize : UInt32} {g : Granted} (h : WindowInv packetSize g)
    {drain : Drain} (hfits : g.writer.windowSize.toNat + drain.adjust.toNat < 2 ^ 32) :
    WindowInv packetSize ⟨drained g.writer drain, g.granted + drain.adjust.toNat⟩ := by
  have hgrown : (g.writer.windowSize + drain.adjust).toNat =
      g.writer.windowSize.toNat + drain.adjust.toNat := by
    rw [UInt32.toNat_add, Nat.mod_eq_of_lt hfits]
  obtain ⟨hstrptr, hpacket, hwindow, hpending, hcreated⟩ := h
  refine ⟨hstrptr, hpacket, ?_, ?_, ?_⟩
  · change g.writer.sent.length + (g.writer.windowSize + drain.adjust).toNat = _
    rw [hgrown]
    dsimp only
    omega
  · intro old hold
    exact hpending old ((drained_pending g.writer drain old).mp hold)
  · intro hstate
    obtain ⟨hle, hpacketLe, hbuffer⟩ := hcreated hstate
    refine ⟨?_, hpacketLe, hbuffer⟩
    change g.writer.writeBufwrite ≤ (g.writer.windowSize + drain.adjust).toNat
    omega

/-- The data of the packet that a write in state created is about. -/
def PacketOf (w : Writer) (data : List UInt8) : Prop :=
  w.pending = some (.channelData data) ∨ data = w.strptr.take w.writeBufwrite

/-- A write in state created keeps its packet, gives it up or sends it. -/
theorem writeCreated_cases (w : Writer) {sending : Sending} (hexchange : sending.exchange ≠ .fails)
    (hsocket : sending.socket ≠ .fails) :
    (∃ pending, (∀ old, pending = some (.channelData old) → PacketOf w old) ∧
      writeCreated w sending = { w with pending := pending }) ∨
    writeCreated w sending = { w with pending := some .other, writeState := .idle } ∨
    ∃ data, PacketOf w data ∧ writeCreated w sending = { w with
      pending := none, sent := w.sent ++ data
      windowSize := w.windowSize - w.writeBufwrite.toUInt32, writeState := .idle } := by
  have hafter := afterExchange_channelData w.pending sending
  generalize hp : afterExchange w.pending sending = pending at hafter
  unfold writeCreated
  by_cases hwaits : sending.exchange = .waits
  · have hsend : ∀ payload, transportSend w payload sending =
        (.eagain, { w with pending := pending }) := by
      intro payload
      unfold transportSend
      rw [hp, hwaits]
    rw [hsend]
    exact .inl ⟨pending, fun old hold => .inl ((hafter old).mp hold), rfl⟩
  · have hsend : ∀ payload, transportSend w payload sending =
        sendPacket { w with pending := pending } payload sending.socket := by
      intro payload
      unfold transportSend
      rw [hp]
      cases h : sending.exchange with
      | waits => exact absurd h hwaits
      | fails => exact absurd h hexchange
      | absent => rfl
      | completes => rfl
    rw [hsend]
    cases pending with
    | none =>
      cases h : sending.socket with
      | fails => exact absurd h hsocket
      | whole => exact .inr (.inr ⟨_, .inr rfl, rfl⟩)
      | blocked =>
        refine .inl ⟨some (.channelData (w.strptr.take w.writeBufwrite)), ?_, rfl⟩
        intro old hold
        exact .inr (Outgoing.channelData.inj (Option.some.inj hold)).symm
    | some outgoing =>
      cases outgoing with
      | other => exact .inr (.inl rfl)
      | channelData old =>
        have hold := (hafter old).mp rfl
        cases h : sending.socket with
        | fails => exact absurd h hsocket
        | whole => exact .inr (.inr ⟨old, .inl hold, rfl⟩)
        | blocked =>
          refine .inl ⟨some (.channelData old), ?_, rfl⟩
          intro other hother
          exact .inl ((hafter other).mp hother)

theorem WindowInv.packetOf {packetSize : UInt32} {g : Granted} (h : WindowInv packetSize g)
    (hstate : g.writer.writeState = .created) {data : List UInt8} (hdata : PacketOf g.writer data) :
    data.length = g.writer.writeBufwrite := by
  have hbuffer := (h.created hstate).2.2
  have hstrptr := h.strptr
  rcases hdata with hpending | rfl
  · exact (h.pending data hpending).2
  · rw [List.length_take]
    omega

theorem WindowInv.writeCreated {packetSize : UInt32} {g : Granted} (h : WindowInv packetSize g)
    (hstate : g.writer.writeState = .created) {sending : Sending}
    (hexchange : sending.exchange ≠ .fails) (hsocket : sending.socket ≠ .fails) :
    WindowInv packetSize ⟨writeCreated g.writer sending, g.granted⟩ := by
  obtain ⟨hle, -, -⟩ := h.created hstate
  have hpacket : ∀ data, PacketOf g.writer data → data.length = g.writer.writeBufwrite :=
    fun _ => h.packetOf hstate
  obtain ⟨hstrptr, hpackets, hwindow, hpending, hcreated⟩ := h
  rcases writeCreated_cases g.writer hexchange hsocket with
    ⟨pending, hof, hkept⟩ | hgiven | ⟨data, hof, hsent⟩
  · rw [hkept]
    exact ⟨hstrptr, hpackets, hwindow, fun old hold => ⟨hstate, hpacket old (hof old hold)⟩, hcreated⟩
  · rw [hgiven]
    exact ⟨hstrptr, hpackets, hwindow, nofun, nofun⟩
  · rw [hsent]
    refine ⟨hstrptr, hpackets, ?_, nofun, nofun⟩
    have hlen := hpacket data hof
    have hlt := g.writer.windowSize.toNat_lt
    have hcount : g.writer.writeBufwrite.toUInt32.toNat = g.writer.writeBufwrite := by
      rw [Nat.toUInt32_eq, UInt32.toNat_ofNat', Nat.mod_eq_of_lt (by omega)]
    have hshrunk : (g.writer.windowSize - g.writer.writeBufwrite.toUInt32).toNat =
        g.writer.windowSize.toNat - g.writer.writeBufwrite := by
      rw [UInt32.toNat_sub_of_le]
      · rw [hcount]
      · rw [UInt32.le_iff_toNat_le, hcount]
        exact hle
    dsimp only
    rw [hshrunk, List.length_append, hlen]
    omega

/-- A new packet is within the window, the packet size and the staging buffer. -/
theorem WindowInv.withHeader {packetSize : UInt32} {g : Granted} (h : WindowInv packetSize g)
    (hstate : g.writer.writeState = .idle) {buflen : ℕ} (hbuflen : buflen ≤ 2048) :
    WindowInv packetSize ⟨withHeader g.writer buflen, g.granted⟩ := by
  have hpacket := h.packets
  have hle : bufwrite g.writer buflen ≤ g.writer.windowSize.toNat ∧
      bufwrite g.writer buflen ≤ packetSize.toNat ∧ bufwrite g.writer buflen ≤ 2048 := by
    unfold bufwrite
    rw [hpacket]
    omega
  refine ⟨h.strptr, hpacket, h.window, ?_, fun _ => hle⟩
  intro old hold
  have hcreated := (h.pending old hold).1
  rw [hstate] at hcreated
  cases hcreated

theorem WindowInv.step {packetSize : UInt32} {g : Granted} (h : WindowInv packetSize g) {e : Event}
    (he : Lasting g e) : WindowInv packetSize (grantStep g e) := by
  obtain ⟨hfits, hfine⟩ := he
  cases e with
  | otherCall drain => exact h.drained hfits
  | sshSend data drain sending =>
    obtain ⟨hexchange, hsocket⟩ := hfine
    have hstaged : WindowInv packetSize ⟨staged g.writer data, g.granted⟩ :=
      ⟨stage_length _ _ h.strptr, h.packets, h.window, h.pending, h.created⟩
    unfold adjusts at hfits
    unfold grantStep adjusts
    dsimp only at hfits ⊢
    change WindowInv packetSize
      ⟨channelWrite (staged g.writer data) data.chars.length drain sending, _⟩
    cases hstate : g.writer.writeState with
    | created =>
      have hcreated : (staged g.writer data).writeState = .created := hstate
      rw [channelWrite_created _ _ _ _ hcreated, if_neg nofun, Nat.add_zero]
      exact hstaged.writeCreated hcreated hexchange hsocket
    | idle =>
      have hidle : (staged g.writer data).writeState = .idle := hstate
      rw [if_pos hstate] at hfits
      rw [channelWrite_idle _ _ _ _ hidle, if_pos rfl]
      have hdrained := hstaged.drained hfits
      by_cases hstops : drain.fails ∨ (Ssh.drained (staged g.writer data) drain).windowSize = 0
      · rw [if_pos hstops]
        exact hdrained
      · rw [if_neg hstops]
        have hroom : data.chars.length ≤ 2048 := by
          have hfits := data.fits
          omega
        exact (hdrained.withHeader hidle hroom).writeCreated rfl hexchange hsocket

end Jterm.Ssh
