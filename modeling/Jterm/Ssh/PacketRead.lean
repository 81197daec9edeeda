import Jterm.Ssh.TransportRead
import Jterm.Ssh.TransportSend

/-!
`_libssh2_transport_read` and fullpacket with the contents of the packets. The socket is
the bytes that have arrived; every recv takes some of them. In transport_read on the page's
socket a recv may run the page's reader first (`Jterm.Ssh.readerStep`); here no call is made
within another. Lengths are of type size_t or int, both of 32 bits.
-/
namespace Jterm.Ssh.Transport

open Blocks Memory

/-- What is left of a number in a size_t, and what an int reads in it. -/
def toSize (n : ℤ) : ℕ := (n % 2 ^ 32).toNat
def toInt (n : ℕ) : ℤ := if n < 2 ^ 31 then n else n - 2 ^ 32

inductive RecvCall
  | takes (n : ℕ)
  | fails
  deriving DecidableEq, Repr

/-- How packet_add ends: `again` keeps the packet, `rekeys` has begun a key exchange and
has reset the reader. -/
inductive PacketAdd
  | ok
  | again
  | rekeys
  | fails (disconnects : Bool)
  deriving DecidableEq, Repr

/-- What transport_read returns; `spins` is a loop that does not end. -/
inductive ReadEnd
  | packet (type : UInt8)
  | nothing
  | eagain
  | decrypt
  | outOfBoundary
  | alloc
  | socketRecv
  | addFails
  | assertion
  | spins
  deriving DecidableEq, Repr

/-- The incoming half of `struct transportpacket`, the remote endpoint, and the state of
transport_read and fullpacket. `payload` has the bytes below `wptr`. `incoming` is what recv
can still take, `added` what packet_add has been given and whether the MAC was right. -/
structure PacketReader (σ : Type*) where
  remote : Endpoint σ
  buf : ℕ → UInt8
  readidx : ℕ
  writeidx : ℕ
  init : List UInt8
  packetLength : ℕ
  paddingLength : ℕ
  totalNum : ℕ
  payload : List UInt8
  jump1 : Bool
  readPackEncrypted : Bool
  created : Bool
  packetType : UInt8
  disconnected : Bool
  incoming : List UInt8
  added : List (List UInt8 × Bool)

variable {σ : Type*}

namespace PacketReader

/-- Before NEWKEYS a block of 5 bytes holds the two lengths. -/
def blocksize (s : PacketReader σ) : ℕ :=
  match s.remote.keys with
  | some (m, _) => m.blocksize
  | none => 5

def macLen (s : PacketReader σ) : ℕ :=
  match s.remote.keys with
  | some (m, _) => m.macLen
  | none => 0

def encrypted (s : PacketReader σ) : Bool := s.remote.keys.isSome

def remainbuf (s : PacketReader σ) : ℕ := s.writeidx - s.readidx

/-- `decrypt` of `k` blocks of `buf`. -/
def decryptBlocks (s : PacketReader σ) (k : ℕ) (source : List UInt8) :
    Except (Endpoint σ) (List UInt8 × Endpoint σ) :=
  match s.remote.keys with
  | none => .ok (source, s.remote)
  | some (m, st) =>
    match inBlocks m.crypt m.blocksize k st source with
    | .error st => .error { s.remote with keys := some (m, st) }
    | .ok (dest, st) => .ok (dest, { s.remote with keys := some (m, st) })

/-- The unread bytes go to the front of `buf` and recv fills it up. -/
def recvMore (s : PacketReader σ) : List RecvCall → Option ReadEnd × List RecvCall × PacketReader σ :=
  let remainbuf := s.remainbuf
  let s := { s with
    buf := moveToFront s.buf s.readidx remainbuf, readidx := 0, writeidx := remainbuf }
  fun
  | [] => (some .eagain, [], s)
  | .fails :: recvs => (some .socketRecv, recvs, s)
  | .takes n :: recvs =>
    let data := s.incoming.take (min n (packetbufsize - remainbuf))
    if data = [] then (some .eagain, recvs, s)
    else (none, recvs, { s with
      buf := store s.buf remainbuf data
      writeidx := remainbuf + data.length
      incoming := s.incoming.drop data.length })

/-- The first block of a packet. Its first five bytes go to the MAC, the rest to `payload`. -/
def openPacket (s : PacketReader σ) (allocFails : Bool) :
    Option ReadEnd × PacketReader σ :=
  match s.decryptBlocks 1 (readRange s.buf s.readidx (s.readidx + s.blocksize)) with
  | .error remote => (some .decrypt, { s with remote := remote })
  | .ok (block, remote) =>
    let packetLength := ntohu32 block
    let totalNum := toSize (packetLength - 1 + s.macLen)
    let s := { s with
      remote := remote
      init := if s.encrypted then block.take 5 else s.init
      readidx := s.readidx + s.blocksize
      packetLength := packetLength }
    if packetLength < 1 then (some .decrypt, s)
    else
      let s := { s with paddingLength := (block.getD 4 0).toNat }
      if packetMaxpayload < totalNum then (some .outOfBoundary, s)
      else if allocFails then (some .alloc, s)
      else (none, { s with totalNum := totalNum, payload := block.drop 5 })

/-- `numdecrypt`, and the `numbytes` that are left behind it. -/
def sizes (s : PacketReader σ) (numbytes : ℤ) : ℤ × ℤ :=
  let numbytes := min numbytes (toInt (toSize (s.totalNum - s.payload.length)))
  if s.encrypted then
    if toSize (s.totalNum - s.macLen) < toSize (s.payload.length + numbytes) then
      let numdecrypt := toInt (toSize (s.totalNum - s.macLen - s.payload.length))
      (numdecrypt, numbytes - max numdecrypt 0)
    else
      let frac := numbytes.tmod s.blocksize
      if frac ≠ 0 then (numbytes - frac, 0 - max (numbytes - frac) 0)
      else (numbytes, numbytes - max numbytes 0)
  else (0, numbytes)

/-- Decrypt what belongs to the packet and copy its MAC. -/
def takeBytes (s : PacketReader σ) (numbytes : ℤ) : Option ReadEnd × PacketReader σ :=
  let numdecrypt := (s.sizes numbytes).1.toNat
  let numcopy := (s.sizes numbytes).2.toNat
  if numdecrypt % s.blocksize ≠ 0 then (some .assertion, s)
  else
    match s.decryptBlocks (numdecrypt / s.blocksize)
        (readRange s.buf s.readidx (s.readidx + numdecrypt)) with
    | .error remote => (some .decrypt, { s with remote := remote, totalNum := 0 })
    | .ok (dest, remote) =>
      let readidx := s.readidx + numdecrypt
      (none, { s with
        remote := remote
        readidx := readidx + numcopy
        payload := s.payload ++ dest ++ readRange s.buf readidx (readidx + numcopy) })

/-- From the refill on: a packet is opened if none is open. -/
def takePacket (s : PacketReader σ) (allocFails : Bool) : Option ReadEnd × PacketReader σ :=
  let numbytes := s.remainbuf
  if s.totalNum = 0 then
    if numbytes < s.blocksize then (some .eagain, s)
    else
      match s.openPacket allocFails with
      | (some ret, opened) => (some ret, opened)
      | (none, opened) => opened.takeBytes (numbytes - s.blocksize)
  else s.takeBytes numbytes

/-- The first half of fullpacket, done once for a packet: check the MAC, drop the padding. -/
def checkPacket (s : PacketReader σ) (encrypted : Bool) : PacketReader σ :=
  if s.created then s
  else
    let payloadLen := toSize (s.packetLength - 1)
    let rightMac := !encrypted || match s.remote.keys with
      | some (m, _) =>
        m.hash s.remote.seqno s.init (s.payload.take payloadLen) ==
          (s.payload.drop payloadLen).take m.macLen
      | none => true
    let data := s.payload.take (toSize (payloadLen - s.paddingLength))
    { s with
      remote := { s.remote with seqno := s.remote.seqno + 1 }
      packetType := s.payload.getD 0 0
      created := true
      added := s.added ++ [(data, rightMac)] }

/-- fullpacket, and what transport_read makes of its result. -/
def endPacket (s : PacketReader σ) (encrypted : Bool) (add : PacketAdd) :
    ReadEnd × PacketReader σ :=
  let s := s.checkPacket encrypted
  match add with
  | .ok => (.packet s.packetType, { s with created := false, totalNum := 0 })
  | .again => (.eagain, { s with jump1 := true, readPackEncrypted := encrypted })
  | .rekeys => (.eagain, { s with created := false, totalNum := 0 })
  | .fails disconnects =>
    (.addFails, { s with
      created := false, totalNum := 0, disconnected := s.disconnected || disconnects })

/-- The loop of transport_read, of at most so many rounds. -/
def readLoop (allocFails : Bool) (add : PacketAdd) :
    ℕ → List RecvCall → PacketReader σ → ReadEnd × PacketReader σ
  | 0, _, s => (.spins, s)
  | rounds + 1, recvs, s =>
    if s.disconnected then (.nothing, s)
    else
      let (ret, recvs, s) :=
        if s.remainbuf < s.blocksize then s.recvMore recvs else (none, recvs, s)
      match ret with
      | some ret => (ret, s)
      | none =>
        match s.takePacket allocFails with
        | (some ret, s) => (ret, s)
        | (none, s) =>
          if s.payload.length = s.totalNum then s.endPacket s.encrypted add
          else readLoop allocFails add rounds recvs s

end PacketReader

/-- What a call of transport_read finds. -/
structure ReadCall where
  recvs : List RecvCall
  allocFails : Bool
  add : PacketAdd
  deriving DecidableEq, Repr

/-- `_libssh2_transport_read` when no key exchange is in its way. Where packet_add was not done
with the last packet it is called again. -/
def transportRead (s : PacketReader σ) (call : ReadCall) : ReadEnd × PacketReader σ :=
  if s.jump1 then { s with jump1 := false }.endPacket s.readPackEncrypted call.add
  else s.readLoop call.allocFails call.add (call.recvs.length + 2) call.recvs

end Jterm.Ssh.Transport
