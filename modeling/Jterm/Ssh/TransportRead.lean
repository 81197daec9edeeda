import Jterm.Lib.Runs
import Jterm.Lib.Memory
import Jterm.Page.Emsocket

/-!
`_libssh2_transport_read` on the emulated socket. `jss_recv` calls the page's reader
before it returns, so activations of transport_read nest and share the packet buffer
and its indices; the stack of what is running is part of the state, the key exchange
and the contents of the packets are the environment's choice. The model begins when
the banner has been received.
-/
namespace Jterm.Ssh

open Runs Memory Page

/-- `PACKETBUFSIZE` and `LIBSSH2_PACKET_MAXPAYLOAD` -/
def packetbufsize : ℕ := 1024 * 16
def packetMaxpayload : ℤ := 40000

/-- What the session's keys say about incoming packets. -/
structure Crypt where
  blocksize : ℕ
  encrypted : Bool
  macLen : ℕ
  deriving DecidableEq, Repr

/-- One activation on the stack. `code` is the page or a function of libssh2 that may call
transport_read; it remembers whether it has been given a packet. The others are places
of transport_read: the top of its loop, inside recv, behind the refill, in fullpacket. -/
inductive Frame
  | code (hasRead : Bool)
  | loop
  | receiving (nread : ℕ) (crypt : Crypt)
  | taking (crypt : Crypt)
  | dispatch
  deriving DecidableEq, Repr

/-- `taken` is what transport_read has taken out of `buf`, `received` what the WebSocket
has delivered. -/
structure Reader where
  em : Emsocket
  installed : Bool
  buf : ℕ → UInt8
  readidx : ℕ
  writeidx : ℕ
  totalNum : ℤ
  dataNum : ℤ
  crypt : Crypt
  jump1 : Bool
  stack : List Frame
  taken : List UInt8
  received : List UInt8

/-- Behind the banner; `ws_buffer` may hold bytes already. -/
def Reader.initial (em : Emsocket) (buf : ℕ → UInt8) (crypt : Crypt) : Reader :=
  { em := em, installed := false, buf := buf, readidx := 0, writeidx := 0, totalNum := 0,
    dataNum := 0, crypt := crypt, jump1 := false, stack := [], taken := [],
    received := em.wsBuffer }

/-- What a step of transport_read finds: the decrypted length of a packet, whether its
payload cannot be allocated, and how fullpacket ends. -/
structure Finds where
  packetLength : ℤ
  allocFails : Bool
  again : Bool
  resets : Bool

inductive Move
  | message (array : List UInt8)
  | socketClosed
  | turn
  | install
  | rekey (crypt : Crypt)
  | read
  | ret
  | resume (finds : Finds)

def takeBytes (s : Reader) (n : ℕ) : Reader :=
  { s with
    taken := s.taken ++ readRange s.buf s.readidx (s.readidx + n)
    readidx := s.readidx + n }

/-- The refill of `buf` behind its `remainbuf` bytes. The callback of `jss_recv` runs
before recv returns, and `writeidx` is advanced after it. -/
def refill (s : Reader) (remainbuf : ℕ) (rest : List Frame) : Reader :=
  match jssRecv s.em (packetbufsize - remainbuf) with
  | none => { s with stack := rest }
  | some (nread, data, em) =>
    if nread ≤ 0 then { s with em := em, stack := rest }
    else if s.installed then
      { s with
        em := em
        buf := store s.buf remainbuf data
        stack := .code false :: .receiving data.length s.crypt :: rest }
    else
      { s with
        em := em
        buf := store s.buf remainbuf data
        writeidx := s.writeidx + data.length
        stack := .taking s.crypt :: rest }

/-- The top of the loop; `remainbuf` must not be negative. -/
def loopTop (s : Reader) (rest : List Frame) : Reader :=
  if s.writeidx < s.readidx then s
  else
    let remainbuf := s.writeidx - s.readidx
    if remainbuf < s.crypt.blocksize then
      refill { s with
        buf := moveToFront s.buf s.readidx remainbuf
        readidx := 0
        writeidx := remainbuf } remainbuf rest
    else { s with stack := .taking s.crypt :: rest }

/-- `numdecrypt` and what is left of `numbytes` behind it. -/
def dataAmounts (crypt : Crypt) (macLen : ℕ) (totalNum dataNum numbytes : ℤ) : ℤ × ℤ :=
  let numbytes := min numbytes (totalNum - dataNum)
  if crypt.encrypted then
    if totalNum - macLen < dataNum + numbytes then
      let numdecrypt := totalNum - macLen - dataNum
      (numdecrypt, numbytes - max numdecrypt 0)
    else
      let frac := numbytes.tmod crypt.blocksize
      if frac ≠ 0 then (numbytes - frac, 0 - max (numbytes - frac) 0)
      else (numbytes, numbytes - max numbytes 0)
  else (0, numbytes)

/-- Decrypt and copy what there is of the current packet. -/
def takeData (s : Reader) (crypt : Crypt) (numbytes : ℤ) (rest : List Frame) : Reader :=
  let (numdecrypt, numcopy) := dataAmounts crypt s.crypt.macLen s.totalNum s.dataNum numbytes
  let n := numdecrypt.toNat + numcopy.toNat
  { takeBytes s n with
    dataNum := s.dataNum + n
    stack := if s.totalNum = s.dataNum + n then .dispatch :: rest else .loop :: rest }

/-- `total_num`: what follows the length and padding length fields. -/
def totalLength (crypt : Crypt) (macLen : ℕ) (packetLength : ℤ) : ℤ :=
  packetLength - 1 + if crypt.encrypted then (macLen : ℤ) else 0

/-- From the refill on: the head of a packet if none is open, then its data. -/
def takePacket (s : Reader) (crypt : Crypt) (finds : Finds) (rest : List Frame) : Reader :=
  let numbytes : ℤ := s.writeidx - s.readidx
  if s.totalNum = 0 then
    if numbytes < crypt.blocksize then { s with stack := rest }
    else
      let totalNum := totalLength crypt s.crypt.macLen finds.packetLength
      if finds.packetLength < 1 ∨ packetMaxpayload < totalNum ∨ finds.allocFails then
        { takeBytes s crypt.blocksize with stack := rest }
      else
        takeData { takeBytes s crypt.blocksize with
          totalNum := totalNum, dataNum := crypt.blocksize - 5 } crypt
          (numbytes - crypt.blocksize) rest
  else takeData s crypt numbytes rest

/-- transport_read has returned a packet to its caller. -/
def packetGiven : List Frame → List Frame
  | .code _ :: rest => .code true :: rest
  | frames => frames

/-- The end of fullpacket; on EAGAIN the packet may have to be added again. -/
def endDispatch (s : Reader) (finds : Finds) (rest : List Frame) : Reader :=
  { s with
    jump1 := finds.again
    totalNum := if finds.again && !finds.resets then s.totalNum else 0
    stack := packetGiven rest }

/-- transport_read is called; after an EAGAIN of fullpacket it goes on there. -/
def enter (s : Reader) : Reader :=
  if s.jump1 then { s with jump1 := false, stack := .dispatch :: s.stack }
  else { s with stack := .loop :: s.stack }

/-- A message or a timer is handled when nothing runs; otherwise the top of the stack
moves. Keys change only where a packet has been handed over. -/
def readerStep (s : Reader) : Move → Reader
  | .message array =>
    match s.stack with
    | [] =>
      { s with
        em := onmessage s.em array
        received := s.received ++ array
        stack := if s.installed then [.code false] else [] }
    | _ => s
  | .socketClosed =>
    match s.stack with
    | [] => { s with em := onclose { s.em with serversocket := some .closed } }
    | _ => s
  | .turn =>
    match s.stack with
    | [] => { s with stack := [.code false] }
    | _ => s
  | .install =>
    match s.stack with
    | .code _ :: _ => { s with installed := true }
    | _ => s
  | .rekey crypt =>
    match s.stack with
    | .code true :: _ => { s with crypt := crypt }
    | .dispatch :: _ => { s with crypt := crypt }
    | _ => s
  | .read =>
    match s.stack with
    | .code _ :: _ => enter s
    | .dispatch :: _ => enter s
    | _ => s
  | .ret =>
    match s.stack with
    | .code _ :: rest => { s with stack := rest }
    | _ => s
  | .resume finds =>
    match s.stack with
    | .loop :: rest => loopTop s rest
    | .receiving nread crypt :: rest =>
        { s with writeidx := s.writeidx + nread, stack := .taking crypt :: rest }
    | .taking crypt :: rest => takePacket s crypt finds rest
    | .dispatch :: rest => endDispatch s finds rest
    | _ => s

/-- A refill that calls the page's reader empties `ws_buffer`. -/
def RefillEmpties (s : Reader) : Move → Prop
  | .resume _ =>
      s.stack.head? = some .loop → s.installed = true → s.em.serversocket ≠ some .closed →
        s.writeidx - s.readidx < s.crypt.blocksize →
          s.em.wsBuffer.length ≤ packetbufsize - (s.writeidx - s.readidx)
  | _ => True

end Jterm.Ssh
