import Jterm.Proxy.GoNet

/-!
The WebSocket proxy. `wsProxyHandler` takes the client's first message as the
address, dials it directly or through a SOCKS server and starts two relays:
`forwardtcp` turns each TCP Read into one binary message, `forwardws` writes each
client message to the TCP connection once the first of them shows a libssh2
banner. Console output is left out; a connection that was not established is `none`.
-/
namespace Jterm.Proxy

open GoNet

/-- What ends a goroutine instead of a return. -/
inductive GoPanic
  | sliceOutOfRange
  | nilDereference
  deriving DecidableEq, Repr

def unableToParsePort : String := "Unable to parse port"
def unableToConnect : String := "Unable to connect to socks server."

/-- The SOCKS4a CONNECT request: version, command, port, the address 0.0.0.1, an
empty user id and the host name, both ended by a zero byte. -/
def socksRequest (host : Bytes) (port : ℤ) : Bytes :=
  [0x04, 0x01, (port / 256 % 256).toNat.toUInt8, (port % 256).toNat.toUInt8,
    0x00, 0x00, 0x00, 0x01, 0x00] ++ host ++ [0x00]

/-- `data[1]` of the zeroed 8-byte buffer after the Read filled its front. -/
def replyCode (data : List Octet) : UInt8 := (data[1]?.map Octet.val).getD 0

/-- The result is the error, if any, and the connection after the exchange. The error
of SplitHostPort is overwritten: it shows as an empty port. -/
def socksConnect (conn : Option Conn) (address : Bytes) :
    Except GoPanic (Option String × Option Conn) :=
  let (host, portstr) := (splitHostPort address).getD ([], [])
  match atoi portstr with
  | none => .ok (some unableToParsePort, conn)
  | some port =>
    match conn with
    | none => .error .nilDereference
    | some conn =>
      match (conn.write (socksRequest host port)).read 8 with
      | none => .ok (some unableToConnect, some (conn.write (socksRequest host port)))
      | some (data, conn') =>
        if data.length = 0 then .ok (some unableToConnect, some conn')
        else if replyCode data = 0x5a then .ok (none, some conn')
        else .ok (some unableToConnect, some conn')

/-- The binary messages sent to the browser, up to the first failing Read. -/
def forwardtcp (conn : Conn) : List (List Octet) :=
  match _h : conn.read 1024 with
  | none => []
  | some (tcpbuffer, conn') => tcpbuffer :: forwardtcp conn'
termination_by (conn.incoming.map fun a => a.length + 1).sum
decreasing_by exact Conn.read_decreases (by omega) _h

def sshBanner : Bytes := ascii "SSH-2.0-libssh"

/-- The Writes of `forwardws`'s loop for the messages the client still sends; `first`
is the flag of the loop. -/
def forwardwsLoop (first : Bool) : List Bytes → List Bytes
  | [] => []
  | buffer :: rest =>
      if first = true ∧ contains buffer sshBanner = false then []
      else buffer :: forwardwsLoop false rest

def forwardws (conn : Conn) (messages : List Bytes) : Conn :=
  (forwardwsLoop true messages).foldl Conn.write conn

/-- Whether the handler dials the address itself. -/
def dialsDirectly (usesocks address : Bytes) : Bool :=
  usesocks = [] || contains address (ascii "localhost")

/-- The address in the client's first message: all of it but the last byte. -/
def addressOf (message : Bytes) : Bytes := message.take (message.length - 1)

/-- The connections dialled, and the one the two relays were started on. -/
structure Handled where
  dialled : List Bytes
  relay : Option Conn
  deriving DecidableEq

/-- `message` is the first ReadMessage (`none` is an error), `dial` the network. -/
def wsProxyHandler (usesocks : Bytes) (message : Option Bytes) (dial : Bytes → Option Conn) :
    Except GoPanic Handled :=
  match message with
  | none => .ok ⟨[], none⟩
  | some c =>
    if c.length = 0 then .error .sliceOutOfRange
    else
      let address := addressOf c
      if dialsDirectly usesocks address then .ok ⟨[address], dial address⟩
      else
        -- a dial error is printed and then overwritten by the result of the negotiation
        match socksConnect (dial usesocks) address with
        | .error panic => .error panic
        | .ok (none, conn) => .ok ⟨[usesocks], conn⟩
        | .ok (some _, _) => .ok ⟨[usesocks], none⟩

/-- The binary messages the browser gets over a whole session. -/
def toBrowser (usesocks : Bytes) (message : Option Bytes) (dial : Bytes → Option Conn) :
    List (List Octet) :=
  match wsProxyHandler usesocks message dial with
  | .ok ⟨_, some conn⟩ => forwardtcp conn
  | _ => []

/-- What the relay reads is what it sends on, in order and complete. -/
theorem forwardtcp_flatten (conn : Conn) : (forwardtcp conn).flatten = conn.incoming.flatten := by
  induction conn using forwardtcp.induct with
  | case1 conn h =>
    rw [forwardtcp, h]
    have hempty : conn.incoming = [] := by
      unfold Conn.read at h
      split at h
      · assumption
      · split at h <;> simp at h
    simp [hempty]
  | case2 conn tcpbuffer conn' h ih =>
    rw [forwardtcp, h, List.flatten_cons, ih, Conn.read_stream h]

/-- After the first message has passed the filter every message is written. -/
theorem forwardwsLoop_false (messages : List Bytes) :
    forwardwsLoop false messages = messages := by
  induction messages with
  | nil => rfl
  | cons buffer rest ih => simp [forwardwsLoop, ih]

theorem forwardwsLoop_true_cons (buffer : Bytes) (rest : List Bytes) :
    forwardwsLoop true (buffer :: rest) =
      if contains buffer sshBanner then buffer :: rest else [] := by
  by_cases h : contains buffer sshBanner
  · simp [forwardwsLoop, forwardwsLoop_false, h]
  · simp [forwardwsLoop, h]

theorem foldl_write_written (writes : List Bytes) (conn : Conn) (h : conn.writable = true) :
    (writes.foldl Conn.write conn).written = conn.written ++ writes.flatten := by
  induction writes generalizing conn with
  | nil => simp
  | cons bytes rest ih =>
    rw [List.foldl_cons, ih (conn.write bytes) (by simpa using h), conn.write_written bytes h,
      List.flatten_cons, List.append_assoc]

/-- What the filter lets through reaches the server unchanged. -/
theorem forwardws_written (conn : Conn) (messages : List Bytes) (h : conn.writable = true) :
    (forwardws conn messages).written =
      conn.written ++ (forwardwsLoop true messages).flatten :=
  foldl_write_written _ conn h

end Jterm.Proxy
