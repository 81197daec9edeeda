import Jterm.Lib.Blocks
import Mathlib.Tactic.Ring

/-!
`_libssh2_transport_send` (transport.c): a payload is padded, authenticated and encrypted
into `outbuf`, which is sent; what the socket does not take is sent by later calls, which
have to be made with the same data. The cipher and the hash of the MAC are those of the
crypto library. Nothing is compressed: "none" is all the compression that is offered.
-/
namespace Jterm.Ssh.Transport

open Blocks

/-- `MAX_SSH_PACKET_LEN` -/
def maxSshPacketLen : ℕ := 35000

/-- `_libssh2_htonu32` -/
def htonu32 (n : ℕ) : List UInt8 :=
  [(n / 2 ^ 24 % 256).toUInt8, (n / 2 ^ 16 % 256).toUInt8, (n / 2 ^ 8 % 256).toUInt8,
    (n % 256).toUInt8]

/-- `_libssh2_ntohu32` -/
def ntohu32 (bytes : List UInt8) : ℕ :=
  (bytes.getD 0 0).toNat * 2 ^ 24 + (bytes.getD 1 0).toNat * 2 ^ 16 +
    (bytes.getD 2 0).toNat * 2 ^ 8 + (bytes.getD 3 0).toNat

/-- The LIBSSH2_CRYPT_METHOD and LIBSSH2_MAC_METHOD of one direction. `crypt` works on one
block and changes its abstract state, of type `σ`. -/
structure Method (σ : Type*) where
  blocksize : ℕ
  crypt : σ → List UInt8 → Except σ (List UInt8 × σ)
  macLen : ℕ
  hmac : List UInt8 → List UInt8

/-- The hash functions of mac.c; some keep the first `mac_len` bytes only. -/
def Method.hash {σ : Type*} (m : Method σ) (seqno : UInt32) (packet addtl : List UInt8) :
    List UInt8 :=
  (m.hmac (htonu32 seqno.toNat ++ packet ++ addtl)).take m.macLen

/-- `libssh2_endpoint_data`; the methods are used from LIBSSH2_STATE_NEWKEYS on. -/
structure Endpoint (σ : Type*) where
  keys : Option (Method σ × σ)
  seqno : UInt32

variable {σ : Type*}

/-- The block size that packets are padded to. -/
def Endpoint.sendBlocksize (e : Endpoint σ) : ℕ :=
  match e.keys with
  | some (m, _) => m.blocksize
  | none => 8

def paddingLength (blocksize dataLen : ℕ) : ℕ :=
  let packetLength := dataLen + 1 + 4
  let padding := blocksize - packetLength % blocksize
  if padding < 4 then padding + blocksize else padding

/-- A packet before its MAC and its encryption; `junk` is what `_libssh2_random` writes. -/
def plainPacket (blocksize : ℕ) (data : List UInt8) (junk : ℕ → UInt8) : List UInt8 :=
  let padding := paddingLength blocksize data.length
  htonu32 (data.length + 1 + padding) ++
    padding.toUInt8 :: (data ++ (List.range padding).map junk)

/-- The packet as it goes to the socket; the MAC at its end is not encrypted. Where the
cipher fails, its state has changed. -/
def Endpoint.frame (e : Endpoint σ) (data : List UInt8) (junk : ℕ → UInt8) :
    Except (Endpoint σ) (List UInt8 × Endpoint σ) :=
  let plain := plainPacket e.sendBlocksize data junk
  match e.keys with
  | none => .ok (plain, { e with seqno := e.seqno + 1 })
  | some (m, st) =>
    match inBlocks m.crypt m.blocksize (plain.length / m.blocksize) st plain with
    | .error st => .error { e with keys := some (m, st) }
    | .ok (cipher, st) =>
      .ok (cipher ++ m.hash e.seqno plain [], { keys := some (m, st), seqno := e.seqno + 1 })

/-- What `send` does: it takes some bytes, would block, or fails. -/
inductive SendCall
  | takes (n : ℕ)
  | again
  | fails
  deriving DecidableEq, Repr

/-- What transport_send returns. -/
inductive SendEnd
  | done
  | eagain
  | badUse
  | inval
  | encrypt
  | socketSend
  deriving DecidableEq, Repr

/-- The outgoing half of `struct transportpacket` with the `total_length` bytes of `outbuf`.
`framed` lists the payloads that have been put into `outbuf`. -/
structure PacketSender (σ : Type*) where
  endpoint : Endpoint σ
  outbuf : List UInt8
  odata : ℕ
  olen : ℕ
  osent : ℕ
  framed : List (List UInt8)

/-- The arguments of transport_send: `data` has an address, and `data2` is sent behind it. -/
structure Payload where
  address : ℕ
  data : List UInt8
  data2 : List UInt8
  deriving DecidableEq, Repr

/-- `send_existing`: whether the caller returns, and with what; the bytes that were sent. -/
def sendExisting (s : PacketSender σ) (payload : Payload) (send : SendCall) :
    Option SendEnd × List UInt8 × PacketSender σ :=
  if s.olen = 0 then (none, [], s)
  else if payload.address ≠ s.odata ∨ payload.data.length ≠ s.olen then (some .badUse, [], s)
  else
    let left := s.outbuf.drop s.osent
    match send with
    | .fails => (some .socketSend, [], s)
    | .again => (some .eagain, [], s)
    | .takes n =>
      if left.length ≤ n then (some .done, left, { s with olen := 0 })
      else (some .eagain, left.take n, { s with osent := s.osent + n })

/-- The packet in `outbuf` is sent as far as the socket takes it. -/
def sendNew (s : PacketSender σ) (payload : Payload) (send : SendCall) :
    SendEnd × List UInt8 × PacketSender σ :=
  match send with
  | .fails => (.socketSend, [], s)
  | .again =>
    (.eagain, [], { s with
      odata := payload.address, olen := payload.data.length, osent := 0 })
  | .takes n =>
    if s.outbuf.length ≤ n then (.done, s.outbuf, { s with odata := 0, olen := 0 })
    else (.eagain, s.outbuf.take n, { s with
      odata := payload.address, olen := payload.data.length, osent := n })

/-- `_libssh2_transport_send` when no key exchange is in its way. -/
def transportSend (s : PacketSender σ) (payload : Payload) (junk : ℕ → UInt8) (send : SendCall) :
    SendEnd × List UInt8 × PacketSender σ :=
  match sendExisting s payload send with
  | (some ret, sent, s) => (ret, sent, s)
  | (none, _, s) =>
    let data := payload.data ++ payload.data2
    if maxSshPacketLen - 0x100 ≤ data.length then (.inval, [], s)
    else
      match s.endpoint.frame data junk with
      | .error endpoint => (.encrypt, [], { s with endpoint := endpoint })
      | .ok (packet, endpoint) =>
        sendNew { s with
          endpoint := endpoint, outbuf := packet, framed := s.framed ++ [data] } payload send

/-! The layout of a packet. -/

theorem paddingLength_bounds (blocksize : ℕ) (h : 4 ≤ blocksize) (dataLen : ℕ) :
    4 ≤ paddingLength blocksize dataLen ∧ paddingLength blocksize dataLen ≤ blocksize + 3 ∧
      (dataLen + 5 + paddingLength blocksize dataLen) % blocksize = 0 := by
  have hlt : (dataLen + 1 + 4) % blocksize < blocksize := Nat.mod_lt _ (by omega)
  have hsplit := Nat.div_add_mod (dataLen + 1 + 4) blocksize
  have hround : (dataLen + 5 + (blocksize - (dataLen + 1 + 4) % blocksize)) % blocksize = 0 := by
    have hsum : dataLen + 5 + (blocksize - (dataLen + 1 + 4) % blocksize) =
        blocksize * ((dataLen + 1 + 4) / blocksize) + blocksize := by omega
    rw [hsum, Nat.add_mod_right, Nat.mul_mod_right]
  unfold paddingLength
  dsimp only
  split
  · refine ⟨by omega, by omega, ?_⟩
    rw [← Nat.add_assoc, Nat.add_mod_right]
    exact hround
  · exact ⟨by omega, by omega, hround⟩

theorem length_plainPacket (blocksize : ℕ) (data : List UInt8) (junk : ℕ → UInt8) :
    (plainPacket blocksize data junk).length =
      data.length + 5 + paddingLength blocksize data.length := by
  simp only [plainPacket, htonu32, List.length_append, List.length_cons, List.length_map,
    List.length_range, List.length_nil]
  omega

theorem ntohu32_append {n : ℕ} (h : n < 2 ^ 32) (rest : List UInt8) :
    ntohu32 (htonu32 n ++ rest) = n := by
  have hbyte : ∀ m : ℕ, (m % 256).toUInt8.toNat = m % 256 := by
    intro m
    rw [Nat.toUInt8, UInt8.toNat_ofNat']
    omega
  simp only [ntohu32, htonu32, List.cons_append, List.getD_cons_zero, List.getD_cons_succ, hbyte]
  omega

end Jterm.Ssh.Transport
