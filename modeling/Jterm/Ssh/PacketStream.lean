import Jterm.Ssh.PacketRead

/-!
What the reader of a stream of packets has read of it. The stream is what transport_send
makes of payloads and changes of keys; between two packets the endpoints on both sides
match, and within a packet the reader has the payload of its first bytes and the sender's
cipher stands where it stood in front of the others.
-/
namespace Jterm.Ssh.Transport

open Blocks Memory

variable {σ τ : Type*}

/-- The methods of one direction on both sides, with their first states. -/
structure KeyPair (σ τ : Type*) where
  enc : Method σ
  dec : Method τ
  Paired : σ → τ → Prop
  encState : σ
  decState : τ
  paired : Paired encState decState
  undoes : Undoes enc.crypt dec.crypt enc.blocksize Paired
  sameBlocksize : dec.blocksize = enc.blocksize
  sameMacLen : dec.macLen = enc.macLen
  sameHmac : dec.hmac = enc.hmac
  blocksizeBounds : 8 ≤ enc.blocksize ∧ enc.blocksize ≤ 32
  macLenBound : enc.macLen ≤ 20
  hmacLength : ∀ bytes, enc.macLen ≤ (enc.hmac bytes).length

/-- One thing that happens on the sending side between two packets. -/
inductive Item (σ τ : Type*)
  | packet (data : List UInt8)
  | newkeys (keys : KeyPair σ τ)

theorem KeyPair.length_hash (k : KeyPair σ τ) (seqno : UInt32) (plain : List UInt8) :
    (k.enc.hash seqno plain []).length = k.enc.macLen := by
  unfold Method.hash
  rw [List.length_take]
  exact Nat.min_eq_left (k.hmacLength _)

/-- The payloads of the packets. -/
def packetsOf : List (Item σ τ) → List (List UInt8)
  | [] => []
  | .packet data :: items => data :: packetsOf items
  | .newkeys _ :: items => packetsOf items

theorem packetsOf_append (items more : List (Item σ τ)) :
    packetsOf (items ++ more) = packetsOf items ++ packetsOf more := by
  induction items with
  | nil => rfl
  | cons item items ih =>
    cases item with
    | packet data => simp only [List.cons_append, packetsOf, ih]
    | newkeys keys => simp only [List.cons_append, packetsOf, ih]

/-- A payload that transport_send does not refuse. -/
def Fits (data : List UInt8) : Prop := 0 < data.length ∧ data.length < maxSshPacketLen - 0x100

/-- The bytes of some items, and the endpoint behind them. -/
inductive Streams : Endpoint σ → List (Item σ τ) → List UInt8 → Endpoint σ → Prop
  | nil {e : Endpoint σ} : Streams e [] [] e
  | packet {e next last : Endpoint σ} {data packet bytes : List UInt8} {junk : ℕ → UInt8}
      {items : List (Item σ τ)} (hfits : Fits data) (hframe : e.frame data junk = .ok (packet, next))
      (hrest : Streams next items bytes last) :
      Streams e (.packet data :: items) (packet ++ bytes) last
  | newkeys {e last : Endpoint σ} {bytes : List UInt8} {items : List (Item σ τ)} (k : KeyPair σ τ)
      (hrest : Streams { e with keys := some (k.enc, k.encState) } items bytes last) :
      Streams e (.newkeys k :: items) bytes last

theorem Streams.append {e mid last : Endpoint σ} {items more : List (Item σ τ)}
    {bytes bytes' : List UInt8} (h : Streams e items bytes mid) (h' : Streams mid more bytes' last) :
    Streams e (items ++ more) (bytes ++ bytes') last := by
  induction h with
  | nil => exact h'
  | packet hfits hframe _ ih =>
    rw [List.append_assoc]
    exact .packet hfits hframe (ih h')
  | newkeys k _ ih => exact .newkeys k (ih h')

/-- The two sides of the connection between two packets. -/
def Matched (e : Endpoint σ) (r : Endpoint τ) : Prop :=
  r.seqno = e.seqno ∧
    ((e.keys = none ∧ r.keys = none) ∨ ∃ (k : KeyPair σ τ) (st : σ) (st' : τ),
      e.keys = some (k.enc, st) ∧ r.keys = some (k.dec, st') ∧ k.Paired st st')

/-- The bytes of `buf` that have not been read. -/
def PacketReader.unread (s : PacketReader τ) : List UInt8 := readRange s.buf s.readidx s.writeidx

/-- What is left to read of a packet, `raw`, whose plain text is `plain` and in front of which
the sender's endpoint was `e`; behind it the endpoint is `last`. Without keys it is the rest
of the plain text. With keys it is `rest` encrypted from the state `mid` on, and what is left
of the MAC. -/
inductive Underway (s : PacketReader τ) (e : Endpoint σ) (plain : List UInt8) :
    List UInt8 → Endpoint σ → Prop
  | clear {raw : List UInt8} (hkeys : e.keys = none) (hremote : s.remote.keys = none)
      (hbody : s.payload ++ raw = plain.drop 5) :
      Underway s e plain raw ⟨none, e.seqno + 1⟩
  | crypted {k : KeyPair σ τ} {st mid last : σ} {st' : τ} {n : ℕ}
      {rest cipher left : List UInt8} (hkeys : e.keys = some (k.enc, st))
      (hremote : s.remote.keys = some (k.dec, st')) (hpaired : k.Paired mid st')
      (hinit : s.init = plain.take 5)
      (hbody : s.payload ++ (rest ++ left) = plain.drop 5 ++ k.enc.hash e.seqno plain [])
      (hblocks : rest.length = n * k.enc.blocksize)
      (hcipher : inBlocks k.enc.crypt k.enc.blocksize n mid rest = .ok (cipher, last))
      (hleft : left.length ≤ k.enc.macLen) (hrest : left.length < k.enc.macLen → rest = []) :
      Underway s e plain (cipher ++ left) ⟨some (k.enc, last), e.seqno + 1⟩

/-- A packet is open: its lengths are known. -/
structure OpenPacket (s : PacketReader τ) (e : Endpoint σ) (data raw : List UInt8)
    (last : Endpoint σ) : Prop where
  idle : s.created = false ∧ s.jump1 = false
  seqno : s.remote.seqno = e.seqno
  fits : Fits data
  plain : ∃ junk, Underway s e (plainPacket e.sendBlocksize data junk) raw last
  length : s.packetLength = data.length + 1 + paddingLength e.sendBlocksize data.length
  padding : s.paddingLength = paddingLength e.sendBlocksize data.length
  total : s.totalNum = s.payload.length + raw.length
  total_pos : 0 < s.totalNum

theorem toSize_eq {n : ℤ} {m : ℕ} (h : n = m) (hm : m < 2 ^ 32) : toSize n = m := by
  unfold toSize
  omega

theorem toInt_of_lt {n : ℕ} (h : n < 2 ^ 31) : toInt n = n := if_pos h

theorem take_readRange {α : Type*} (buf : ℕ → α) {i j n : ℕ} (h : i + n ≤ j) :
    readRange buf i (i + n) = (readRange buf i j).take n := by
  have hlen : (readRange buf i (i + n)).length = n := by simp [readRange]
  rw [← readRange_append buf (Nat.le_add_right i n) h, List.take_left' hlen]

theorem drop_readRange {α : Type*} (buf : ℕ → α) {i j n : ℕ} (h : i + n ≤ j) :
    readRange buf (i + n) j = (readRange buf i j).drop n := by
  have hlen : (readRange buf i (i + n)).length = n := by simp [readRange]
  rw [← readRange_append buf (Nat.le_add_right i n) h, List.drop_left' hlen]

theorem PacketReader.length_unread (s : PacketReader τ) : s.unread.length = s.remainbuf := by
  simp [unread, remainbuf, readRange]

namespace PacketReader

/-- How much is decrypted and how much is copied of a packet of which `R` bytes are encrypted
and `C` are left of its MAC. -/
theorem sizes_encrypted {s : PacketReader τ} {m : Method τ} {st' : τ}
    (hkeys : s.remote.keys = some (m, st')) {R C numbytes : ℕ} (hsize : 0 < m.blocksize)
    (hblocks : m.blocksize ∣ R) (htotal : s.totalNum = s.payload.length + (R + C))
    (hleft : C ≤ m.macLen) (hrest : C < m.macLen → R = 0) (hmac : m.macLen ≤ s.totalNum)
    (hsmall : s.totalNum ≤ 40000) (hnum : numbytes ≤ packetbufsize) :
    ∃ P K : ℕ, (s.sizes numbytes).1.toNat = P ∧ (s.sizes numbytes).2.toNat = K ∧
      m.blocksize ∣ P ∧ P ≤ R ∧ K ≤ C ∧ (0 < K → P = R) ∧ P + K ≤ numbytes ∧
        (P + K = R + C ∨ numbytes < P + K + m.blocksize ∧ numbytes < R + C) := by
  have hbuf : packetbufsize = 16384 := rfl
  have hpack : toInt (toSize (s.totalNum - s.payload.length)) = (R + C : ℕ) := by
    rw [toSize_eq (m := R + C) (by omega) (by omega), toInt_of_lt (by omega)]
  obtain ⟨N, hN, hmin⟩ : ∃ N : ℕ, N ≤ numbytes ∧ N ≤ R + C ∧ (N = numbytes ∨ N = R + C) ∧
      min (numbytes : ℤ) ((R + C : ℕ) : ℤ) = N :=
    ⟨min numbytes (R + C), by omega, by omega, by omega, by omega⟩
  obtain ⟨hNR, hNcase, hmin⟩ := hmin
  have hskip : toSize (s.totalNum - m.macLen) = s.totalNum - m.macLen :=
    toSize_eq (by omega) (by omega)
  have hhave : toSize (s.payload.length + N) = s.payload.length + N :=
    toSize_eq (by omega) (by omega)
  unfold sizes encrypted macLen blocksize
  simp only [hkeys, Option.isSome_some, hpack, hmin, hskip, hhave, if_true]
  by_cases hend : s.totalNum - m.macLen < s.payload.length + N
  · rw [if_pos hend]
    by_cases hzero : R = 0
    · -- only bytes of the MAC are left
      have hneg : toInt (toSize (s.totalNum - m.macLen - s.payload.length)) ≤ 0 := by
        unfold toInt toSize
        split <;> omega
      exact ⟨0, N, by omega, by omega, Nat.dvd_zero _, by omega, by omega, by omega, by omega,
        by omega⟩
    · have hall : toInt (toSize (s.totalNum - m.macLen - s.payload.length)) = (R : ℕ) := by
        rw [toSize_eq (m := R) (by omega) (by omega), toInt_of_lt (by omega)]
      rw [hall]
      exact ⟨R, N - R, by omega, by omega, hblocks, by omega, by omega, by omega, by omega,
        by omega⟩
  · rw [if_neg hend, Int.tmod_eq_emod_of_nonneg (by omega)]
    have hfrac : (N : ℤ) % (m.blocksize : ℤ) = (N % m.blocksize : ℕ) := by omega
    have hlt : N % m.blocksize < m.blocksize := Nat.mod_lt _ hsize
    have hdvd : m.blocksize ∣ N - N % m.blocksize := Nat.dvd_sub_mod N
    have hle : N % m.blocksize ≤ N := Nat.mod_le _ _
    rw [hfrac]
    by_cases hzero : N % m.blocksize = 0
    · rw [if_neg (by omega)]
      rw [hzero, Nat.sub_zero] at hdvd
      exact ⟨N, 0, by omega, by omega, hdvd, by omega, by omega, by omega, by omega, by omega⟩
    · rw [if_pos (by omega)]
      have hnotAll : N ≠ R := by
        intro h
        rw [h] at hzero
        exact hzero (Nat.mod_eq_zero_of_dvd hblocks)
      exact ⟨N - N % m.blocksize, 0, by omega, by omega, hdvd, by omega, by omega, by omega,
        by omega, by omega⟩

theorem sizes_clear {s : PacketReader τ} (hkeys : s.remote.keys = none) {R : ℕ}
    (htotal : s.totalNum = s.payload.length + R) (hsmall : s.totalNum ≤ 40000) (numbytes : ℕ) :
    (s.sizes numbytes).1.toNat = 0 ∧ (s.sizes numbytes).2.toNat = min numbytes R := by
  have hpack : toInt (toSize (s.totalNum - s.payload.length)) = (R : ℕ) := by
    rw [toSize_eq (m := R) (by omega) (by omega), toInt_of_lt (by omega)]
  unfold sizes encrypted
  simp only [hkeys, Option.isSome_none, hpack]
  exact ⟨rfl, by rw [if_neg Bool.false_ne_true]; omega⟩

/-- The bytes at the front of `buf` are the next ones of the stream. -/
theorem readRange_stream {s : PacketReader τ} {more raw stream : List UInt8}
    (hstream : s.unread ++ more = raw ++ stream) {i n : ℕ} (hidx : s.readidx ≤ s.writeidx)
    (hunread : i + n ≤ s.remainbuf) (hraw : i + n ≤ raw.length) :
    readRange s.buf (s.readidx + i) (s.readidx + i + n) = (raw.drop i).take n := by
  have hlen := s.length_unread
  have hcut : readRange s.buf (s.readidx + i) (s.readidx + i + n) = (s.unread.drop i).take n := by
    unfold remainbuf at hunread
    rw [take_readRange s.buf (show s.readidx + i + n ≤ s.writeidx by omega),
      drop_readRange s.buf (show s.readidx + i ≤ s.writeidx by omega), unread]
  have hfront : (s.unread ++ more).take (i + n) = (raw ++ stream).take (i + n) := by rw [hstream]
  rw [List.take_append_of_le_length (by omega), List.take_append_of_le_length hraw] at hfront
  rw [hcut, ← Nat.add_sub_cancel_left i n, ← List.drop_take, ← List.drop_take, hfront]

/-- `n` bytes of `buf` are read, and nothing else that is not of the open packet changes. -/
structure Advances (s s' : PacketReader τ) (n : ℕ) : Prop where
  buf : s'.buf = s.buf
  writeidx : s'.writeidx = s.writeidx
  readidx : s'.readidx = s.readidx + n
  incoming : s'.incoming = s.incoming
  added : s'.added = s.added
  disconnected : s'.disconnected = s.disconnected
  created : s'.created = s.created
  jump1 : s'.jump1 = s.jump1
  seqno : s'.remote.seqno = s.remote.seqno
  hasKeys : s'.blocksize = s.blocksize

/-- What a round of the loop takes of an open packet. -/
structure Takes (s s' : PacketReader τ) (n : ℕ) : Prop extends Advances s s' n where
  packetLength : s'.packetLength = s.packetLength
  paddingLength : s'.paddingLength = s.paddingLength
  totalNum : s'.totalNum = s.totalNum
  payload : s'.payload.length = s.payload.length + n

theorem takeBytes_underway {s : PacketReader τ} {e last : Endpoint σ} {plain raw : List UInt8}
    (h : Underway s e plain raw last) {numbytes : ℕ} (hidx : s.readidx ≤ s.writeidx)
    (htotal : s.totalNum = s.payload.length + raw.length) (hsmall : s.totalNum ≤ 40000)
    (hnum : numbytes ≤ s.remainbuf) (hbuf : numbytes ≤ packetbufsize) {more stream : List UInt8}
    (hstream : s.unread ++ more = raw ++ stream) :
    ∃ n s', s.takeBytes numbytes = (none, s') ∧ n ≤ numbytes ∧ n ≤ raw.length ∧ Takes s s' n ∧
      Underway s' e plain (raw.drop n) last ∧
        (n = raw.length ∨ numbytes < n + s.blocksize ∧ numbytes < raw.length) := by
  cases h with
  | clear hkeys hremote hbody =>
    obtain ⟨hdecrypt, hcopy⟩ := sizes_clear hremote htotal hsmall numbytes
    have hread := readRange_stream hstream (i := 0) (n := min numbytes raw.length) hidx
      (by omega) (by omega)
    simp only [Nat.add_zero, List.drop_zero] at hread
    have hsize : s.blocksize = 5 := by
      unfold blocksize
      rw [hremote]
    refine ⟨min numbytes raw.length, { s with
      readidx := s.readidx + min numbytes raw.length
      payload := s.payload ++ raw.take (min numbytes raw.length) }, ?_, by omega, by omega, ?_, ?_,
      by omega⟩
    · unfold takeBytes
      simp only [hdecrypt, hcopy, Nat.zero_mod, ne_eq, not_true_eq_false, if_false, decryptBlocks,
        hremote, Nat.add_zero, hread, readRange_self, List.append_nil]
    · refine ⟨⟨rfl, rfl, rfl, rfl, rfl, rfl, rfl, rfl, rfl, rfl⟩, rfl, rfl, rfl, ?_⟩
      rw [List.length_append, List.length_take]
      omega
    · refine .clear hkeys hremote ?_
      dsimp only
      rw [List.append_assoc, List.take_append_drop]
      exact hbody
  | @crypted k st mid last st' blocks rest cipher left hkeys hremote hpaired hinit hbody hblocks
      hcipher hleft hrest =>
    obtain ⟨hsizeLow, -⟩ := k.blocksizeBounds
    have hcipherLen : cipher.length = rest.length := by
      rw [hblocks]
      exact length_inBlocks k.undoes.length hblocks hcipher
    have hhash := k.length_hash e.seqno plain
    have hbodyLen := congrArg List.length hbody
    simp only [List.length_append, hhash] at hbodyLen
    rw [List.length_append, hcipherLen] at htotal
    have hsize : s.blocksize = k.enc.blocksize := by
      unfold blocksize
      rw [hremote]
      exact k.sameBlocksize
    obtain ⟨P, K, hdecrypt, hcopy, hdvd, hP, hK, hfirst, hsum, hend⟩ :=
      sizes_encrypted hremote (R := rest.length) (C := left.length)
        (by rw [k.sameBlocksize]; omega) (by rw [k.sameBlocksize, hblocks]; exact Nat.dvd_mul_left _ _)
        htotal (by rw [k.sameMacLen]; exact hleft)
        (by rw [k.sameMacLen]; intro hlt; rw [hrest hlt]; rfl)
        (by rw [k.sameMacLen]; omega) hsmall hbuf
    rw [k.sameBlocksize] at hdvd hend
    obtain ⟨j, rfl⟩ := hdvd
    -- the blocks that are decrypted now are the first `j` of those left
    have hj : j ≤ blocks := by
      rw [hblocks, Nat.mul_comm blocks] at hP
      exact Nat.le_of_mul_le_mul_left hP (by omega)
    obtain ⟨i, rfl⟩ := Nat.exists_eq_add_of_le hj
    obtain ⟨mid', hfront, hback⟩ := inBlocks_add k.undoes.length hblocks hcipher
    have htakeLen : (rest.take (j * k.enc.blocksize)).length = j * k.enc.blocksize := by
      rw [List.length_take]
      rw [Nat.mul_comm] at hP
      omega
    obtain ⟨st'', hdec, hpaired'⟩ := k.undoes.inBlocks hpaired htakeLen hfront
    have hreadCipher := readRange_stream hstream (i := 0) (n := k.enc.blocksize * j) hidx
      (by omega) (by rw [List.length_append]; omega)
    have hreadLeft := readRange_stream hstream (i := k.enc.blocksize * j) (n := K) hidx
      (by omega) (by rw [List.length_append]; omega)
    simp only [Nat.add_zero, List.drop_zero] at hreadCipher
    rw [List.take_append_of_le_length (by omega)] at hreadCipher
    have hleftTake : ((cipher ++ left).drop (k.enc.blocksize * j)).take K = left.take K := by
      by_cases hzero : K = 0
      · rw [hzero, List.take_zero, List.take_zero]
      · rw [hfirst (by omega), ← hcipherLen, List.drop_left]
    rw [hleftTake] at hreadLeft
    refine ⟨k.enc.blocksize * j + K, { s with
      remote := { s.remote with keys := some (k.dec, st'') }
      readidx := s.readidx + k.enc.blocksize * j + K
      payload := s.payload ++ rest.take (k.enc.blocksize * j) ++ left.take K }, ?_, hsum, ?_, ?_,
      ?_, ?_⟩
    · unfold takeBytes
      have hmod : k.enc.blocksize * j % s.blocksize = 0 := by rw [hsize, Nat.mul_mod_right]
      have hdiv : k.enc.blocksize * j / s.blocksize = j := by
        rw [hsize, Nat.mul_div_cancel_left _ (by omega)]
      simp only [hdecrypt, hcopy, hmod, hdiv, ne_eq, not_true_eq_false, if_false, decryptBlocks,
        hremote, hreadCipher, hreadLeft, k.sameBlocksize]
      rw [Nat.mul_comm, hdec]
    · rw [List.length_append]
      omega
    · refine ⟨⟨rfl, rfl, Nat.add_assoc _ _ _, rfl, rfl, rfl, rfl, rfl, rfl, ?_⟩, rfl, rfl, rfl, ?_⟩
      · rw [hsize]
        exact k.sameBlocksize
      · simp only [List.length_append, List.length_take]
        omega
    · have hdrop : (cipher ++ left).drop (k.enc.blocksize * j + K) =
          cipher.drop (j * k.enc.blocksize) ++ left.drop K := by
        rw [← List.drop_drop, List.drop_append_of_le_length (by omega), Nat.mul_comm]
        by_cases hzero : K = 0
        · rw [hzero, List.drop_zero, List.drop_zero]
        · have hall : cipher.drop (j * k.enc.blocksize) = [] :=
            List.drop_of_length_le (by rw [Nat.mul_comm, hfirst (by omega), hcipherLen])
          rw [hall, List.nil_append, List.nil_append]
      rw [hdrop]
      refine .crypted hkeys rfl hpaired' hinit ?_ (n := i) ?_ hback ?_ ?_
      · dsimp only
        rw [← hbody, Nat.mul_comm]
        by_cases hzero : K = 0
        · rw [hzero, List.take_zero, List.drop_zero, List.append_nil, List.append_assoc,
            ← List.append_assoc (rest.take _), List.take_append_drop]
        · have hall : rest.length ≤ j * k.enc.blocksize := by
            rw [Nat.mul_comm, hfirst (by omega)]
          rw [List.take_of_length_le hall, List.drop_of_length_le hall, List.nil_append,
            List.append_assoc, List.append_assoc, List.take_append_drop]
      · rw [List.length_drop, hblocks, Nat.add_mul]
        omega
      · rw [List.length_drop]
        omega
      · intro hlt
        rw [List.length_drop] at hlt
        by_cases hzero : K = 0
        · rw [hrest (by omega), List.drop_nil]
        · exact List.drop_of_length_le (by rw [Nat.mul_comm, hfirst (by omega)])
    · rw [List.length_append, hsize]
      omega

end PacketReader

/-- The lengths in front of a packet. -/
theorem plainPacket_lengths (blocksize : ℕ) (hsize : 8 ≤ blocksize ∧ blocksize ≤ 32)
    {data : List UInt8} (hfits : Fits data) (junk : ℕ → UInt8) {n : ℕ} (hn : 5 ≤ n) :
    let front := (plainPacket blocksize data junk).take n
    ntohu32 front = data.length + 1 + paddingLength blocksize data.length ∧
      (front.getD 4 0).toNat = paddingLength blocksize data.length := by
  intro front
  obtain ⟨hlow, hhigh, -⟩ := paddingLength_bounds blocksize (by omega) data.length
  have hmax : maxSshPacketLen = 35000 := rfl
  have hfront : ∃ rest, front = htonu32 (data.length + 1 + paddingLength blocksize data.length) ++
      ((paddingLength blocksize data.length).toUInt8 :: rest) := by
    obtain ⟨i, rfl⟩ := Nat.exists_eq_add_of_le hn
    refine ⟨(data ++ (List.range (paddingLength blocksize data.length)).map junk).take i, ?_⟩
    have hlen : (htonu32 (data.length + 1 + paddingLength blocksize data.length)).length = 4 := rfl
    change (plainPacket blocksize data junk).take (5 + i) = _
    unfold plainPacket
    rw [show 5 + i = 4 + (i + 1) by omega, List.take_append, hlen,
      List.take_of_length_le (by rw [hlen]; omega), Nat.add_sub_cancel_left, List.take_succ_cons]
  obtain ⟨rest, hrest⟩ := hfront
  obtain ⟨hpos, hlt⟩ := hfits
  rw [hrest]
  constructor
  · exact ntohu32_append (by omega) _
  · change ((paddingLength blocksize data.length).toUInt8).toNat = _
    rw [Nat.toUInt8, UInt8.toNat_ofNat']
    omega

/-- A packet is of whole blocks, at least one. -/
theorem plainPacket_blocks {blocksize : ℕ} (hsize : 8 ≤ blocksize) (data : List UInt8)
    (junk : ℕ → UInt8) : ∃ n, (plainPacket blocksize data junk).length = (1 + n) * blocksize := by
  obtain ⟨hlow, -, hround⟩ := paddingLength_bounds blocksize (by omega) data.length
  rw [← length_plainPacket blocksize data junk] at hround
  obtain ⟨c, hc⟩ := Nat.dvd_of_mod_eq_zero hround
  have hlen := length_plainPacket blocksize data junk
  have hpos : c ≠ 0 := by
    intro h
    rw [h] at hc
    omega
  refine ⟨c - 1, ?_⟩
  rw [hc, Nat.mul_comm]
  congr 1
  omega

theorem sendBlocksize_bounds {e : Endpoint σ} {r : Endpoint τ} (h : Matched e r) :
    8 ≤ e.sendBlocksize ∧ e.sendBlocksize ≤ 32 := by
  unfold Endpoint.sendBlocksize
  obtain ⟨-, ⟨hkeys, -⟩ | ⟨k, st, st', hkeys, -, -⟩⟩ := h
  · rw [hkeys]
    dsimp only
    omega
  · rw [hkeys]
    exact k.blocksizeBounds

section Opening

variable {s : PacketReader τ} {e next : Endpoint σ} {data packet more stream : List UInt8}
  {junk : ℕ → UInt8}

/-- The first bytes of a packet without keys are its two lengths. -/
theorem openPacket_clear (hkeys : e.keys = none) (hremote : s.remote.keys = none)
    (hseqno : s.remote.seqno = e.seqno) (hfits : Fits data)
    (hframe : e.frame data junk = .ok (packet, next)) (hidx : s.readidx ≤ s.writeidx)
    (hunread : s.blocksize ≤ s.remainbuf) (hstream : s.unread ++ more = packet ++ stream)
    (hidle : s.created = false ∧ s.jump1 = false) :
    ∃ s', s.openPacket false = (none, s') ∧ s.Advances s' s.blocksize ∧
      s.blocksize ≤ packet.length ∧ OpenPacket s' e data (packet.drop s.blocksize) next := by
  have hmax : maxSshPacketLen = 35000 := rfl
  have hmaxp : packetMaxpayload = 40000 := rfl
  have hsize : s.blocksize = 5 := by
    unfold PacketReader.blocksize
    rw [hremote]
  have hsend : e.sendBlocksize = 8 := by
    unfold Endpoint.sendBlocksize
    rw [hkeys]
  obtain ⟨hlow, hhigh, -⟩ := paddingLength_bounds e.sendBlocksize (by omega) data.length
  have hlen := length_plainPacket e.sendBlocksize data junk
  unfold Endpoint.frame at hframe
  simp only [hkeys, Except.ok.injEq, Prod.mk.injEq] at hframe
  obtain ⟨rfl, rfl⟩ := hframe
  have hread := PacketReader.readRange_stream hstream (i := 0) (n := s.blocksize) hidx (by omega)
    (by omega)
  simp only [Nat.add_zero, List.drop_zero] at hread
  obtain ⟨hlength, hpadding⟩ :=
    plainPacket_lengths e.sendBlocksize (by omega) hfits junk (n := 5) le_rfl
  rw [← hsize] at hlength hpadding
  obtain ⟨hpos, hlt⟩ := hfits
  have htotal : toSize ((data.length + 1 + paddingLength e.sendBlocksize data.length : ℕ) - 1 +
      s.macLen) = data.length + paddingLength e.sendBlocksize data.length := by
    unfold PacketReader.macLen
    rw [hremote]
    exact toSize_eq (by push_cast; omega) (by omega)
  refine ⟨{ s with
    readidx := s.readidx + s.blocksize
    packetLength := data.length + 1 + paddingLength e.sendBlocksize data.length
    paddingLength := paddingLength e.sendBlocksize data.length
    totalNum := data.length + paddingLength e.sendBlocksize data.length
    payload := [] }, ?_, ⟨rfl, rfl, rfl, rfl, rfl, rfl, rfl, rfl, rfl, rfl⟩, by omega, ?_⟩
  · unfold PacketReader.openPacket PacketReader.decryptBlocks PacketReader.encrypted
    simp only [hremote, hread, hlength, hpadding, htotal, Option.isSome_none]
    rw [if_neg (by omega), if_neg (by omega), if_neg Bool.false_ne_true]
    have hnil : ((plainPacket e.sendBlocksize data junk).take s.blocksize).drop 5 = [] := by
      rw [hsize]
      exact List.drop_of_length_le (by rw [List.length_take]; omega)
    rw [hnil]
    simp
  · refine ⟨hidle, hseqno, ⟨hpos, hlt⟩, ⟨junk, .clear hkeys hremote ?_⟩, rfl, rfl, ?_, ?_⟩
    · rw [hsize]
      rfl
    · simp only [List.length_nil, List.length_drop, hlen, hsize]
      omega
    · dsimp only
      omega

/-- The first block of an encrypted packet begins with them. -/
theorem openPacket_crypted {k : KeyPair σ τ} {st : σ} {st' : τ} (hkeys : e.keys = some (k.enc, st))
    (hremote : s.remote.keys = some (k.dec, st')) (hpaired : k.Paired st st')
    (hseqno : s.remote.seqno = e.seqno) (hfits : Fits data)
    (hframe : e.frame data junk = .ok (packet, next)) (hidx : s.readidx ≤ s.writeidx)
    (hunread : s.blocksize ≤ s.remainbuf) (hstream : s.unread ++ more = packet ++ stream)
    (hidle : s.created = false ∧ s.jump1 = false) :
    ∃ s', s.openPacket false = (none, s') ∧ s.Advances s' s.blocksize ∧
      s.blocksize ≤ packet.length ∧ OpenPacket s' e data (packet.drop s.blocksize) next := by
  have hmax : maxSshPacketLen = 35000 := rfl
  have hmaxp : packetMaxpayload = 40000 := rfl
  have hbounds := k.blocksizeBounds
  have hmacLen := k.macLenBound
  have hsize : s.blocksize = k.enc.blocksize := by
    unfold PacketReader.blocksize
    rw [hremote]
    exact k.sameBlocksize
  have hsend : e.sendBlocksize = k.enc.blocksize := by
    unfold Endpoint.sendBlocksize
    rw [hkeys]
  obtain ⟨hlow, hhigh, -⟩ := paddingLength_bounds k.enc.blocksize (by omega) data.length
  have hlen := length_plainPacket k.enc.blocksize data junk
  obtain ⟨n, hn⟩ := plainPacket_blocks hbounds.1 data junk
  obtain ⟨hlength, hpadding⟩ := plainPacket_lengths k.enc.blocksize hbounds hfits junk (n := k.enc.blocksize) (by omega)
  obtain ⟨hpos, hlt⟩ := hfits
  unfold Endpoint.frame at hframe
  simp only [hkeys, hsend] at hframe
  generalize hplain : plainPacket k.enc.blocksize data junk = plain at *
  have hhash := k.length_hash e.seqno plain
  have hdiv : plain.length / k.enc.blocksize = 1 + n := by
    rw [hn, Nat.mul_div_cancel _ (by omega)]
  rw [hdiv] at hframe
  cases hcipher : inBlocks k.enc.crypt k.enc.blocksize (1 + n) st plain with
  | error st => simp [hcipher] at hframe
  | ok found =>
    obtain ⟨cipher, last⟩ := found
    simp only [hcipher, Except.ok.injEq, Prod.mk.injEq] at hframe
    obtain ⟨rfl, rfl⟩ := hframe
    have hcipherLen : cipher.length = plain.length := by
      rw [hn]
      exact length_inBlocks k.undoes.length hn hcipher
    have hbig : k.enc.blocksize ≤ plain.length := by
      rw [hn, Nat.add_mul]
      omega
    obtain ⟨mid, hfirst, hothers⟩ := inBlocks_add k.undoes.length hn hcipher
    rw [Nat.one_mul] at hfirst hothers
    have htakeLen : (plain.take k.enc.blocksize).length = 1 * k.enc.blocksize := by
      rw [List.length_take]
      omega
    obtain ⟨st'', hdec, hpaired'⟩ := k.undoes.inBlocks hpaired htakeLen hfirst
    have hread := PacketReader.readRange_stream hstream (i := 0) (n := s.blocksize) hidx (by omega)
      (by rw [List.length_append]; omega)
    simp only [Nat.add_zero, List.drop_zero] at hread
    rw [List.take_append_of_le_length (by omega), hsize] at hread
    have htotal : toSize ((data.length + 1 + paddingLength k.enc.blocksize data.length : ℕ) - 1 +
        s.macLen) = data.length + paddingLength k.enc.blocksize data.length + k.enc.macLen := by
      unfold PacketReader.macLen
      rw [hremote]
      dsimp only
      rw [k.sameMacLen]
      exact toSize_eq (by push_cast; omega) (by omega)
    have hdrop : (cipher ++ k.enc.hash e.seqno plain []).drop s.blocksize =
        cipher.drop k.enc.blocksize ++ k.enc.hash e.seqno plain [] := by
      rw [hsize, List.drop_append_of_le_length (by omega)]
    refine ⟨{ s with
      remote := { s.remote with keys := some (k.dec, st'') }
      init := (plain.take k.enc.blocksize).take 5
      readidx := s.readidx + s.blocksize
      packetLength := data.length + 1 + paddingLength k.enc.blocksize data.length
      paddingLength := paddingLength k.enc.blocksize data.length
      totalNum := data.length + paddingLength k.enc.blocksize data.length + k.enc.macLen
      payload := (plain.take k.enc.blocksize).drop 5 }, ?_,
      ⟨rfl, rfl, rfl, rfl, rfl, rfl, rfl, rfl, rfl, ?_⟩, ?_, ?_⟩
    · unfold PacketReader.openPacket PacketReader.decryptBlocks PacketReader.encrypted
      simp only [hremote, hsize, hread, k.sameBlocksize, hdec, hlength, hpadding, htotal,
        Option.isSome_some]
      rw [if_neg (by omega), if_neg (by omega), if_neg Bool.false_ne_true]
      simp
    · rw [hsize]
      exact k.sameBlocksize
    · rw [List.length_append]
      omega
    · have hrestLen : (plain.drop k.enc.blocksize).length = n * k.enc.blocksize := by
        rw [List.length_drop, hn, Nat.add_mul]
        omega
      refine ⟨hidle, hseqno, ⟨hpos, hlt⟩, ⟨junk, ?_⟩, by rw [hsend], by rw [hsend], ?_, ?_⟩
      · rw [hdrop, hsend, hplain]
        refine .crypted hkeys rfl hpaired' ?_ ?_ hrestLen hothers (by rw [hhash]) ?_
        · dsimp only
          rw [List.take_take, Nat.min_eq_left (by omega)]
        · dsimp only
          have hsplit : plain.drop k.enc.blocksize = (plain.drop 5).drop (k.enc.blocksize - 5) := by
            rw [List.drop_drop]
            congr 1
            omega
          rw [List.drop_take, ← List.append_assoc, hsplit, List.take_append_drop]
        · intro hshort
          rw [hhash] at hshort
          omega
      · rw [hdrop]
        simp only [List.length_append, List.length_drop, List.length_take, hhash]
        omega
      · dsimp only
        omega

/-- The first block of a packet, when the two sides match in front of it. -/
theorem openPacket_frame (hmatched : Matched e s.remote) (hfits : Fits data)
    (hframe : e.frame data junk = .ok (packet, next)) (hidx : s.readidx ≤ s.writeidx)
    (hunread : s.blocksize ≤ s.remainbuf) (hstream : s.unread ++ more = packet ++ stream)
    (hidle : s.created = false ∧ s.jump1 = false) :
    ∃ s', s.openPacket false = (none, s') ∧ s.Advances s' s.blocksize ∧
      s.blocksize ≤ packet.length ∧ OpenPacket s' e data (packet.drop s.blocksize) next := by
  obtain ⟨hseqno, ⟨hkeys, hremote⟩ | ⟨k, st, st', hkeys, hremote, hpaired⟩⟩ := hmatched
  · exact openPacket_clear hkeys hremote hseqno hfits hframe hidx hunread hstream hidle
  · exact openPacket_crypted hkeys hremote hpaired hseqno hfits hframe hidx hunread hstream hidle

end Opening

end Jterm.Ssh.Transport
