import Jterm.Proxy.Main

/-!
What the browser gets of a TCP stream that arrives in any pieces. On a direct
connection it is the destination's stream. Through a SOCKS server the negotiation
takes one Read for the whole 8-byte reply, so a reply that arrives in two parts is
relayed from its second part on; the exact condition is `ReplyReadWhole`.
-/
namespace Jterm.Proxy

open GoNet

/-- The reply of a SOCKS4 server that grants the request. -/
def Grants (reply : List Octet) : Prop :=
  reply.length = 8 ∧ replyCode reply = 0x5a ∧ ∀ o ∈ reply, o.sender = .socksServer

instance (reply : List Octet) : Decidable (Grants reply) :=
  inferInstanceAs (Decidable (_ ∧ _ ∧ _))

def FromDestination (dest : List Octet) : Prop := ∀ o ∈ dest, o.sender = .destination

instance (dest : List Octet) : Decidable (FromDestination dest) :=
  inferInstanceAs (Decidable (∀ o ∈ dest, o.sender = .destination))

/-- The bytes the dialled connection carries towards the proxy. -/
def carried (usesocks address : Bytes) (reply dest : List Octet) : List Octet :=
  if dialsDirectly usesocks address then dest else reply ++ dest

/-- The connection the handler dials. -/
def dialTarget (usesocks address : Bytes) : Bytes :=
  if dialsDirectly usesocks address then address else usesocks

/-- Whether the address has a port that the SOCKS request can carry. -/
def portParses (address : Bytes) : Bool :=
  (atoi ((splitHostPort address).getD ([], [])).2).isSome

/-- How much of the stream the Read of the SOCKS reply returns. -/
def firstRead (conn : Conn) : ℕ := ((conn.incoming.head?.getD []).take 8).length

/-- The reply is read whole, or the first Read returns too little of it to look granted,
or nothing follows that Read. -/
def ReplyReadWhole (usesocks address : Bytes) (conn : Conn) : Prop :=
  dialsDirectly usesocks address = false → portParses address = true →
    firstRead conn = 8 ∨ firstRead conn ≤ 1 ∨ conn.incoming.length ≤ 1

theorem read_eight (conn : Conn) (data : List Octet) (rest : List (List Octet))
    (h : conn.incoming = data :: rest) :
    ∃ conn', conn.read 8 = some (data.take 8, conn') ∧
      conn'.incoming = (if data.length ≤ 8 then rest else data.drop 8 :: rest) := by
  by_cases hlen : data.length ≤ 8
  · refine ⟨{ conn with incoming := rest }, ?_, by simp [hlen]⟩
    simp [Conn.read, h, hlen, List.take_of_length_le hlen]
  · refine ⟨{ conn with incoming := data.drop 8 :: rest }, ?_, by simp [hlen]⟩
    simp [Conn.read, h, hlen]

/-- What the handler does through a SOCKS server that was reached. -/
theorem toBrowser_socks (usesocks message : Bytes) (dial : Bytes → Option Conn) (conn : Conn)
    (hmessage : message ≠ []) (hsocks : dialsDirectly usesocks (addressOf message) = false)
    (hport : portParses (addressOf message) = true) (hdial : dial usesocks = some conn)
    (data : List Octet) (rest : List (List Octet)) (hdata : data ≠ [])
    (hin : conn.incoming = data :: rest) :
    (toBrowser usesocks (some message) dial).flatten =
      if replyCode (data.take 8) = 0x5a then data.drop 8 ++ rest.flatten else [] := by
  obtain ⟨port, hatoi⟩ := Option.isSome_iff_exists.mp hport
  have hne : ¬ message.length = 0 := by simpa using hmessage
  generalize hsplit : (splitHostPort (addressOf message)).getD ([], []) = parts at hatoi
  obtain ⟨host, portstr⟩ := parts
  obtain ⟨conn', hread, hrest⟩ :=
    read_eight (conn.write (socksRequest host port)) data rest (by simpa using hin)
  have hcount : ¬ (data.take 8).length = 0 := by
    have := List.length_pos_iff.mpr hdata
    simp only [List.length_take]
    omega
  have hstream : conn'.incoming.flatten = data.drop 8 ++ rest.flatten := by
    rw [hrest]
    split
    · rename_i hlen
      simp [List.drop_eq_nil_of_le hlen]
    · simp
  by_cases hcode : replyCode (data.take 8) = 0x5a
  · have hrelay : wsProxyHandler usesocks (some message) dial =
        .ok ⟨[usesocks], some conn'⟩ := by
      simp only [wsProxyHandler, hne, if_false, hsocks, hdial, socksConnect,
        hsplit, hatoi, hread, hcount, hcode, if_true, Bool.false_eq_true]
    simp only [toBrowser, hrelay, forwardtcp_flatten, hstream, hcode, if_true]
  · have hrefuse : wsProxyHandler usesocks (some message) dial = .ok ⟨[usesocks], none⟩ := by
      simp only [wsProxyHandler, hne, if_false, hsocks, hdial, socksConnect,
        hsplit, hatoi, hread, hcount, hcode, Bool.false_eq_true]
    simp only [toBrowser, hrefuse, hcode, if_false, List.flatten_nil]

/-- Two octets of one stream after the first Read show the reply as granted. -/
theorem replyCode_take {reply dest data : List Octet} {more : List Octet} (hreply : Grants reply)
    (hpre : data ++ more <+: reply ++ dest) (htwo : 2 ≤ data.length) :
    replyCode (data.take 8) = 0x5a := by
  have hget : data[1]? = reply[1]? := by
    obtain ⟨rest, hrest⟩ := hpre
    have h1 : (data ++ (more ++ rest))[1]? = (reply ++ dest)[1]? := by
      rw [← List.append_assoc, hrest]
    rwa [List.getElem?_append_left (by omega),
      List.getElem?_append_left (by rw [hreply.1]; omega)] at h1
  have hcode := hreply.2.1
  unfold replyCode at hcode ⊢
  rw [List.getElem?_take_of_lt (by omega), hget]
  exact hcode

/-- A single octet does not show the reply as granted. -/
theorem replyCode_short (data : List Octet) (h : data.length < 2) : replyCode data ≠ 0x5a := by
  simp [replyCode, List.getElem?_eq_none (show data.length ≤ 1 by omega)]

/-- A reply that was read in part leaves its next octet at the head of what is relayed. -/
theorem not_prefix_of_short {reply dest data more : List Octet} (hreply : Grants reply)
    (hdest : FromDestination dest) (hpre : data ++ more <+: reply ++ dest)
    (hshort : data.length < 8) (hmore : more ≠ []) : ¬ more <+: dest := by
  intro hprefix
  obtain ⟨o, more, rfl⟩ := List.exists_cons_of_ne_nil hmore
  have hfrom : o.sender = .destination :=
    hdest o (List.IsPrefix.subset hprefix (List.mem_cons_self ..))
  have hget : reply[data.length]? = some o := by
    obtain ⟨rest, hrest⟩ := hpre
    have hleft : (reply ++ dest)[data.length]? = reply[data.length]? :=
      List.getElem?_append_left (by rw [hreply.1]; omega)
    rw [← hleft, ← hrest, List.append_assoc, List.getElem?_append_right (Nat.le_refl _),
      Nat.sub_self]
    rfl
  have hsocks : o.sender = .socksServer := hreply.2.2 o (List.mem_of_getElem? hget)
  rw [hfrom] at hsocks
  cases hsocks

section Session

/-- A SOCKS4 reply that grants the request. -/
def grantedReply : List Octet :=
  [0x00, 0x5a, 0x00, 0x00, 0x00, 0x00, 0x00, 0x00].map fun b => ⟨b, .socksServer⟩

def serverBanner : List Octet := (ascii "SSH-2.0-x\r\n").map fun b => ⟨b, .destination⟩

def proxyAddress : Bytes := ascii "127.0.0.1:1080"

def firstMessage : Bytes := ascii "example.org:22" ++ [0]

/-- The reply and the banner arrive in one segment, or the reply is cut after two octets. -/
def wholeReply : Conn := ⟨[grantedReply ++ serverBanner], [], true⟩
def cutReply : Conn := ⟨[grantedReply.take 2, grantedReply.drop 2 ++ serverBanner], [], true⟩

end Session

end Jterm.Proxy
