import Jterm.Proxy.Relay

/-!
What becomes of a client's first message when something goes wrong. A message without its last
byte, a SOCKS server that cannot be dialled and a reply to a request that was not written are not
told apart from what they should be.
-/
namespace Jterm.Proxy

open GoNet

/-- The request was written, and the whole reply grants it. -/
def Negotiated (socks conn : Conn) : Prop :=
  socks.writable = true ∧ ∃ request data, (socks.write request).read 8 = some (data, conn) ∧
    data.length = 8 ∧ replyCode data = 0x5a

/-- The connection of the address, or of the SOCKS server behind a negotiation. -/
def Established (usesocks address : Bytes) (dial : Bytes → Option Conn) (conn : Conn) : Prop :=
  if dialsDirectly usesocks address then dial address = some conn
  else ∃ socks, dial usesocks = some socks ∧ Negotiated socks conn

/-- The handler returns, and what it has started the relays on is established. -/
def FailsCleanly (usesocks : Bytes) (message : Option Bytes) (dial : Bytes → Option Conn) : Prop :=
  ∃ handled, wsProxyHandler usesocks message dial = .ok handled ∧
    ∀ conn, handled.relay = some conn →
      ∃ c, message = some c ∧ Established usesocks (addressOf c) dial conn

/-- A first Read that looks granted answers a request that was written, and is a whole reply. -/
def AnswersRequest (socks : Conn) : Prop :=
  ∀ data conn, socks.read 8 = some (data, conn) → replyCode data = 0x5a →
    socks.writable = true ∧ data.length = 8

/-- What has been written does not show in what is read. -/
theorem read_write (conn : Conn) (bytes : Bytes) (size : ℕ) :
    (conn.write bytes).read size =
      (conn.read size).map fun (data, next) => (data, next.write bytes) := by
  obtain ⟨incoming, written, writable⟩ := conn
  unfold Conn.read
  rw [Conn.write_incoming]
  cases incoming with
  | nil => rfl
  | cons data rest =>
    dsimp only
    split
    · cases writable <;> rfl
    · cases writable <;> rfl

/-- The result of the negotiation on a connection, once the port has parsed. -/
theorem socksConnect_some {address host portstr : Bytes} {port : ℤ}
    (hsplit : (splitHostPort address).getD ([], []) = (host, portstr))
    (hatoi : atoi portstr = some port) (socks : Conn) :
    socksConnect (some socks) address =
      .ok (match socks.read 8 with
        | none => (some unableToConnect, some (socks.write (socksRequest host port)))
        | some (data, conn) =>
          (if replyCode data = 0x5a then none else some unableToConnect,
            some (conn.write (socksRequest host port)))) := by
  unfold socksConnect
  rw [hsplit]
  dsimp only
  rw [hatoi]
  dsimp only
  rw [read_write]
  cases hread : socks.read 8 with
  | none => rfl
  | some found =>
    obtain ⟨data, conn⟩ := found
    dsimp only [Option.map_some]
    by_cases hcode : replyCode data = 0x5a
    · have hlength : data.length ≠ 0 := by
        intro hzero
        exact replyCode_short data (by omega) hcode
      rw [if_neg hlength, if_pos hcode, if_pos hcode]
    · rw [if_neg hcode, if_neg hcode]
      split <;> rfl

/-- Without a port nothing is written and nothing is read. -/
theorem socksConnect_unparsed {address : Bytes} (hport : portParses address = false)
    (conn : Option Conn) : socksConnect conn address = .ok (some unableToParsePort, conn) := by
  have hatoi : atoi ((splitHostPort address).getD ([], [])).2 = none :=
    Option.not_isSome_iff_eq_none.mp (Bool.eq_false_iff.mp hport)
  unfold socksConnect
  dsimp only
  rw [hatoi]

theorem socksConnect_none {address : Bytes} (hport : portParses address = true) :
    socksConnect none address = .error .nilDereference := by
  obtain ⟨port, hatoi⟩ := Option.isSome_iff_exists.mp hport
  unfold socksConnect
  dsimp only
  rw [hatoi]

/-- The negotiation, by what the dial has given. -/
theorem wsProxyHandler_socks {usesocks c : Bytes} {dial : Bytes → Option Conn} (hc : c ≠ [])
    (hsocks : dialsDirectly usesocks (addressOf c) = false) :
    wsProxyHandler usesocks (some c) dial =
      match socksConnect (dial usesocks) (addressOf c) with
      | .error panic => .error panic
      | .ok (none, conn) => .ok ⟨[usesocks], conn⟩
      | .ok (some _, _) => .ok ⟨[usesocks], none⟩ := by
  have hlength : c.length ≠ 0 := fun hzero => hc (List.length_eq_zero_iff.mp hzero)
  unfold wsProxyHandler
  dsimp only
  rw [if_neg hlength, hsocks]
  rfl

/-- Through a SOCKS server that the handler has to ask. -/
theorem failsCleanly_socks {usesocks c : Bytes} {dial : Bytes → Option Conn} (hc : c ≠ [])
    (hsocks : dialsDirectly usesocks (addressOf c) = false)
    (hport : portParses (addressOf c) = true) :
    FailsCleanly usesocks (some c) dial ↔
      ∃ socks, dial usesocks = some socks ∧ AnswersRequest socks := by
  unfold FailsCleanly Established
  rw [wsProxyHandler_socks hc hsocks]
  cases hdial : dial usesocks with
  | none =>
    rw [socksConnect_none hport]
    simp
  | some socks =>
    obtain ⟨port, hatoi⟩ := Option.isSome_iff_exists.mp hport
    generalize hsplit : (splitHostPort (addressOf c)).getD ([], []) = parts at hatoi
    obtain ⟨host, portstr⟩ := parts
    rw [socksConnect_some hsplit hatoi socks]
    generalize socksRequest host port = request
    constructor
    · rintro ⟨handled, hhandled, hrelay⟩
      refine ⟨socks, rfl, fun data conn hread hcode => ?_⟩
      rw [hread] at hhandled
      dsimp only at hhandled
      rw [if_pos hcode] at hhandled
      obtain rfl := Except.ok.inj hhandled
      obtain ⟨_, ⟨⟩, hestablished⟩ := hrelay _ rfl
      rw [hsocks, if_neg Bool.false_ne_true] at hestablished
      obtain ⟨_, ⟨⟩, hwritable, request', data', hread', hlength, -⟩ := hestablished
      rw [read_write, hread, Option.map_some] at hread'
      obtain ⟨rfl, -⟩ := Prod.mk.inj (Option.some.inj hread')
      exact ⟨hwritable, hlength⟩
    · rintro ⟨_, ⟨⟩, hanswers⟩
      cases hread : socks.read 8 with
      | none => exact ⟨_, rfl, nofun⟩
      | some found =>
        obtain ⟨data, conn⟩ := found
        dsimp only
        by_cases hcode : replyCode data = 0x5a
        · rw [if_pos hcode]
          refine ⟨_, rfl, ?_⟩
          rintro _ ⟨⟩
          obtain ⟨hwritable, hlength⟩ := hanswers data conn hread hcode
          refine ⟨c, rfl, ?_⟩
          rw [hsocks, if_neg Bool.false_ne_true]
          refine ⟨socks, rfl, hwritable, request, data, ?_, hlength, hcode⟩
          rw [read_write, hread, Option.map_some]
        · rw [if_neg hcode]
          exact ⟨_, rfl, nofun⟩

end Jterm.Proxy
