import Jterm.Ssh.PacketStream

/-!
One call of transport_read on a stream of packets: whatever recv gives and wherever the
last call has stopped, it goes on with the packet that is open or opens the next one, and
gives packet_add its payload when it has been read whole.
-/
namespace Jterm.Ssh.Transport

open Blocks Memory PacketReader

variable {σ τ : Type*}

section Rounds

variable {s : PacketReader τ} {e last : Endpoint σ} {data raw more stream : List UInt8}

theorem OpenPacket.small (h : OpenPacket s e data raw last)
    (hsize : 8 ≤ e.sendBlocksize ∧ e.sendBlocksize ≤ 32) : s.totalNum ≤ 40000 := by
  obtain ⟨junk, hplain⟩ := h.plain
  have hlen := length_plainPacket e.sendBlocksize data junk
  obtain ⟨-, hhigh, -⟩ := paddingLength_bounds e.sendBlocksize (by omega) data.length
  have hmax : maxSshPacketLen = 35000 := rfl
  obtain ⟨-, hlt⟩ := h.fits
  have htotal := h.total
  cases hplain with
  | clear hkeys hremote hbody =>
    have hbodyLen := congrArg List.length hbody
    rw [List.length_append, List.length_drop] at hbodyLen
    omega
  | @crypted k st mid last st' n rest cipher left hkeys hremote hpaired hinit hbody hblocks hcipher
      hleft hrest =>
    have hbodyLen := congrArg List.length hbody
    have hmac := k.macLenBound
    have hcipherLen : cipher.length = rest.length := by
      rw [hblocks]
      exact length_inBlocks k.undoes.length hblocks hcipher
    simp only [List.length_append, List.length_drop, k.length_hash] at hbodyLen htotal
    omega

/-- A round goes on with the packet that is open. -/
theorem takePacket_within (h : OpenPacket s e data raw last)
    (hsize : 8 ≤ e.sendBlocksize ∧ e.sendBlocksize ≤ 32) (hidx : s.readidx ≤ s.writeidx)
    (hbuf : s.writeidx ≤ packetbufsize) (hstream : s.unread ++ more = raw ++ stream) :
    ∃ n s', s.takePacket false = (none, s') ∧ OpenPacket s' e data (raw.drop n) last ∧
      s.Advances s' n ∧ n ≤ s.remainbuf ∧ n ≤ raw.length ∧ (n = raw.length ∨
        s.remainbuf < n + s.blocksize ∧ s.remainbuf < raw.length) := by
  obtain ⟨junk, hplain⟩ := h.plain
  have hremain : s.remainbuf ≤ packetbufsize := by
    unfold PacketReader.remainbuf
    omega
  obtain ⟨n, s', htake, hn, hraw, htakes, hunder, hend⟩ := takeBytes_underway hplain hidx h.total
    (h.small hsize) le_rfl hremain hstream
  refine ⟨n, s', ?_, ?_, htakes.toAdvances, hn, hraw, hend⟩
  · unfold PacketReader.takePacket
    dsimp only
    rw [if_neg (Nat.pos_iff_ne_zero.mp h.total_pos)]
    exact htake
  · refine ⟨⟨htakes.created.trans h.idle.1, htakes.jump1.trans h.idle.2⟩,
      htakes.seqno.trans h.seqno, h.fits, ⟨junk, hunder⟩, htakes.packetLength.trans h.length,
      htakes.paddingLength.trans h.padding, ?_, ?_⟩
    · rw [htakes.totalNum, htakes.payload, h.total, List.length_drop]
      omega
    · rw [htakes.totalNum]
      exact h.total_pos

theorem PacketReader.Advances.trans {s t u : PacketReader τ} {n m : ℕ} (h : s.Advances t n)
    (h' : t.Advances u m) : s.Advances u (n + m) where
  buf := h'.buf.trans h.buf
  writeidx := h'.writeidx.trans h.writeidx
  readidx := by rw [h'.readidx, h.readidx, Nat.add_assoc]
  incoming := h'.incoming.trans h.incoming
  added := h'.added.trans h.added
  disconnected := h'.disconnected.trans h.disconnected
  created := h'.created.trans h.created
  jump1 := h'.jump1.trans h.jump1
  seqno := h'.seqno.trans h.seqno
  hasKeys := h'.hasKeys.trans h.hasKeys

theorem PacketReader.Advances.remainbuf {t : PacketReader τ} {n : ℕ} (h : s.Advances t n) :
    t.remainbuf = s.remainbuf - n := by
  unfold PacketReader.remainbuf
  rw [h.writeidx, h.readidx, Nat.sub_add_eq]

theorem PacketReader.Advances.unread {t : PacketReader τ} {n : ℕ} (h : s.Advances t n)
    (hn : n ≤ s.remainbuf) (hidx : s.readidx ≤ s.writeidx) : t.unread = s.unread.drop n := by
  unfold PacketReader.unread
  unfold PacketReader.remainbuf at hn
  rw [h.buf, h.writeidx, h.readidx, drop_readRange s.buf (by omega)]

theorem blocksize_pos (hmatched : Matched e s.remote) : 0 < s.blocksize := by
  unfold PacketReader.blocksize
  obtain ⟨-, ⟨-, hremote⟩ | ⟨k, st, st', -, hremote, -⟩⟩ := hmatched
  · rw [hremote]
    exact Nat.succ_pos 4
  · have hbounds := k.blocksizeBounds
    have hsame := k.sameBlocksize
    rw [hremote]
    dsimp only
    omega

/-- A round opens the next packet and goes on with it. -/
theorem takePacket_between {junk : ℕ → UInt8} {packet : List UInt8} {next : Endpoint σ}
    (htotal : s.totalNum = 0) (hmatched : Matched e s.remote) (hfits : Fits data)
    (hframe : e.frame data junk = .ok (packet, next)) (hidx : s.readidx ≤ s.writeidx)
    (hbuf : s.writeidx ≤ packetbufsize) (hunread : s.blocksize ≤ s.remainbuf)
    (hstream : s.unread ++ more = packet ++ stream)
    (hidle : s.created = false ∧ s.jump1 = false) :
    ∃ n s', s.takePacket false = (none, s') ∧ OpenPacket s' e data (packet.drop n) next ∧
      s.Advances s' n ∧ n ≤ s.remainbuf ∧ n ≤ packet.length ∧ (n = packet.length ∨
        s.remainbuf < n + s.blocksize ∧ s.remainbuf < packet.length) := by
  obtain ⟨t, hopen, hadv, hpacket, hwithin⟩ :=
    openPacket_frame hmatched hfits hframe hidx hunread hstream hidle
  have hremain := hadv.remainbuf
  have hmid : t.unread ++ more = packet.drop s.blocksize ++ stream := by
    have hcut : (s.unread ++ more).drop s.blocksize = (packet ++ stream).drop s.blocksize := by
      rw [hstream]
    rw [List.drop_append_of_le_length (by rw [s.length_unread]; exact hunread),
      List.drop_append_of_le_length hpacket] at hcut
    rw [hadv.unread hunread hidx, hcut]
  have hidx' : t.readidx ≤ t.writeidx := by
    rw [hadv.readidx, hadv.writeidx]
    have hpos := blocksize_pos hmatched
    unfold PacketReader.remainbuf at hunread
    omega
  have hbuf' : t.writeidx ≤ packetbufsize := by
    rw [hadv.writeidx]
    exact hbuf
  obtain ⟨n, u, htake, hopen', hadv', hn, hraw, hend⟩ :=
    takePacket_within hwithin (sendBlocksize_bounds hmatched) hidx' hbuf' hmid
  have htakeBytes : t.takeBytes t.remainbuf = (none, u) := by
    unfold PacketReader.takePacket at htake
    dsimp only at htake
    rw [if_neg (Nat.pos_iff_ne_zero.mp hwithin.total_pos)] at htake
    exact htake
  refine ⟨s.blocksize + n, u, ?_, ?_, hadv.trans hadv', by omega, ?_, ?_⟩
  · have hcast : ((s.remainbuf : ℤ) - (s.blocksize : ℤ)) = (t.remainbuf : ℤ) := by
      rw [hremain]
      omega
    unfold PacketReader.takePacket
    dsimp only
    rw [if_pos htotal, if_neg (by omega), hopen]
    dsimp only
    rw [hcast]
    exact htakeBytes
  · rw [← List.drop_drop]
    exact hopen'
  · rw [List.length_drop] at hraw
    omega
  · rw [List.length_drop, hadv.hasKeys] at hend
    omega

/-- The payload of a packet that has been read whole, and its MAC. -/
theorem body_plainPacket (blocksize : ℕ) (data : List UInt8) (junk : ℕ → UInt8) :
    (plainPacket blocksize data junk).drop 5 =
      data ++ (List.range (paddingLength blocksize data.length)).map junk := rfl

/-- What fullpacket gives to packet_add. -/
theorem checkPacket_whole (h : OpenPacket s e data [] last)
    (hsize : 8 ≤ e.sendBlocksize ∧ e.sendBlocksize ≤ 32) :
    ∃ packetType, s.checkPacket s.encrypted = { s with
      remote := { s.remote with seqno := s.remote.seqno + 1 }
      packetType := packetType
      created := true
      added := s.added ++ [(data, true)] } ∧
        Matched last { s.remote with seqno := s.remote.seqno + 1 } := by
  obtain ⟨junk, hplain⟩ := h.plain
  obtain ⟨-, hhigh, -⟩ := paddingLength_bounds e.sendBlocksize (by omega) data.length
  obtain ⟨-, hlt⟩ := h.fits
  have hmax : maxSshPacketLen = 35000 := rfl
  have hlen : toSize (s.packetLength - 1) =
      data.length + paddingLength e.sendBlocksize data.length := by
    rw [h.length]
    exact toSize_eq (by push_cast; omega) (by omega)
  have hdata : toSize ((data.length + paddingLength e.sendBlocksize data.length : ℕ) -
      s.paddingLength) = data.length := by
    rw [h.padding]
    exact toSize_eq (by push_cast; omega) (by omega)
  have hbodyLen : ((plainPacket e.sendBlocksize data junk).drop 5).length =
      data.length + paddingLength e.sendBlocksize data.length := by
    rw [body_plainPacket]
    simp
  have htake : ∀ mac, (((plainPacket e.sendBlocksize data junk).drop 5 ++ mac).take
      data.length) = data := by
    intro mac
    rw [body_plainPacket, List.append_assoc, List.take_left]
  unfold PacketReader.checkPacket
  simp only [h.idle.1, Bool.false_eq_true, if_false, hlen, hdata]
  refine ⟨s.payload.getD 0 0, ?_, ?_⟩
  · congr 3
    generalize hraw : ([] : List UInt8) = raw at hplain
    cases hplain with
    | clear hkeys hremote hbody =>
      subst hraw
      have hclear := htake []
      rw [List.append_nil] at hbody hclear
      unfold PacketReader.encrypted
      simp [hremote, hbody, hclear]
    | @crypted k st mid last st' n rest cipher left hkeys hremote hpaired hinit hbody hblocks
        hcipher hleft hrest =>
      obtain ⟨rfl, rfl⟩ := List.append_eq_nil_iff.mp hraw.symm
      have hrestNil : rest = [] := by
        have hcipherLen := length_inBlocks k.undoes.length hblocks hcipher
        rw [← hblocks] at hcipherLen
        exact List.length_eq_zero_iff.mp hcipherLen.symm
      rw [hrestNil, List.append_nil, List.append_nil] at hbody
      have hhash : k.dec.hash s.remote.seqno s.init
          ((plainPacket e.sendBlocksize data junk).drop 5) =
            k.enc.hash e.seqno (plainPacket e.sendBlocksize data junk) [] := by
        unfold Method.hash
        rw [k.sameHmac, k.sameMacLen, h.seqno, hinit, List.append_assoc, List.take_append_drop,
          List.append_nil]
      unfold PacketReader.encrypted
      simp only [hremote, Option.isSome_some, hbody, htake, Bool.not_true, Bool.false_or]
      rw [List.take_left' hbodyLen, List.drop_left' hbodyLen, hhash, k.sameMacLen,
        List.take_of_length_le (by rw [k.length_hash])]
      simp
  · generalize hraw : ([] : List UInt8) = raw at hplain
    cases hplain with
    | clear hkeys hremote hbody => exact ⟨by rw [h.seqno], .inl ⟨rfl, hremote⟩⟩
    | @crypted k st mid last st' n rest cipher left hkeys hremote hpaired hinit hbody hblocks
        hcipher hleft hrest =>
      obtain ⟨rfl, rfl⟩ := List.append_eq_nil_iff.mp hraw.symm
      have hcipherLen := length_inBlocks k.undoes.length hblocks hcipher
      have hbounds := k.blocksizeBounds
      have hzero : n = 0 := by
        rcases Nat.mul_eq_zero.mp hcipherLen.symm with hn | hsizeZero
        · exact hn
        · omega
      subst hzero
      simp only [inBlocks_zero, Except.ok.injEq, Prod.mk.injEq, true_and] at hcipher
      subst hcipher
      exact ⟨by rw [h.seqno], .inr ⟨k, mid, st', rfl, hremote, hpaired⟩⟩

end Rounds

/-- Where the reader stands in a stream of items that ends at `final`: `raw` is left of the
packet that is open, `stream` is behind it. -/
inductive Position (s : PacketReader τ) (final : Endpoint σ) :
    List (Item σ τ) → List UInt8 → List UInt8 → Prop
  | between {e : Endpoint σ} {todo : List (Item σ τ)} {stream : List UInt8}
      (hidle : s.created = false ∧ s.jump1 = false) (htotal : s.totalNum = 0)
      (hmatched : Matched e s.remote) (hstream : Streams e todo stream final) :
      Position s final todo [] stream
  | within {e last : Endpoint σ} {data raw stream : List UInt8} {todo : List (Item σ τ)}
      (hopen : OpenPacket s e data raw last)
      (hsize : 8 ≤ e.sendBlocksize ∧ e.sendBlocksize ≤ 32)
      (hstream : Streams last todo stream final) : Position s final (.packet data :: todo) raw stream
  | adding {e : Endpoint σ} {todo : List (Item σ τ)} {stream : List UInt8}
      (hcreated : s.created = true) (hjump : s.jump1 = true) (hmatched : Matched e s.remote)
      (hstream : Streams e todo stream final) : Position s final todo [] stream

/-- `todo` is ahead of the reader; `more` has not been sent yet. -/
structure Reads (s : PacketReader τ) (todo : List (Item σ τ)) (more raw : List UInt8)
    (final : Endpoint σ) : Prop where
  index : s.readidx ≤ s.writeidx ∧ s.writeidx ≤ packetbufsize
  position : ∃ stream, Position s final todo raw stream ∧
    s.unread ++ (s.incoming ++ more) = raw ++ stream

/-- Between two calls a packet that is open is longer than what is in `buf`. -/
def Ahead (s : PacketReader τ) (todo : List (Item σ τ)) (more : List UInt8) (final : Endpoint σ) :
    Prop :=
  ∃ raw, Reads s todo more raw final ∧
    (s.jump1 = false → s.totalNum ≠ 0 → s.remainbuf < raw.length)

/-- The keys change before the next packet. -/
def KeysNext : List (Item σ τ) → Prop
  | .newkeys _ :: _ => True
  | _ => False

section Calls

variable {s : PacketReader τ} {todo : List (Item σ τ)} {more raw : List UInt8} {final : Endpoint σ}

/-- Nothing but the buffer and the socket has changed. -/
structure Refilled (s s' : PacketReader τ) : Prop where
  same : s' = { s with
    buf := s'.buf, readidx := s'.readidx, writeidx := s'.writeidx, incoming := s'.incoming }
  index : s'.readidx ≤ s'.writeidx ∧ s'.writeidx ≤ packetbufsize
  unread : s'.unread ++ s'.incoming = s.unread ++ s.incoming
  incoming : s.incoming = [] → s'.incoming = []

theorem recvMore_refilled (hidx : s.readidx ≤ s.writeidx) (hbuf : s.writeidx ≤ packetbufsize)
    (recvs : List RecvCall) :
    Refilled s (s.recvMore recvs).2.2 ∧
      ((s.recvMore recvs).1 = none ∧ (s.recvMore recvs).2.1.length + 1 = recvs.length ∨
        ((s.recvMore recvs).1 = some .eagain ∨ (s.recvMore recvs).1 = some .socketRecv) ∧
          (s.recvMore recvs).2.2.remainbuf = s.remainbuf) := by
  have hremain : s.readidx + s.remainbuf = s.writeidx := by
    unfold PacketReader.remainbuf
    omega
  have hmoved : readRange (moveToFront s.buf s.readidx s.remainbuf) 0 s.remainbuf = s.unread := by
    rw [readRange_moveToFront, hremain]
    rfl
  have hstays : Refilled s { s with
      buf := moveToFront s.buf s.readidx s.remainbuf, readidx := 0, writeidx := s.remainbuf } := by
    refine ⟨rfl, ⟨Nat.zero_le _, by dsimp only; omega⟩, ?_, id⟩
    unfold PacketReader.unread at hmoved ⊢
    dsimp only
    rw [hmoved]
  cases recvs with
  | nil => exact ⟨hstays, .inr ⟨.inl rfl, rfl⟩⟩
  | cons c recvs =>
    cases c with
    | fails => exact ⟨hstays, .inr ⟨.inr rfl, rfl⟩⟩
    | takes n =>
      unfold PacketReader.recvMore
      dsimp only
      generalize hdata : s.incoming.take (min n (packetbufsize - s.remainbuf)) = data
      have hlen : data.length ≤ packetbufsize - s.remainbuf := by
        rw [← hdata, List.length_take]
        omega
      have hsplit : data ++ s.incoming.drop data.length = s.incoming := by
        have hback : s.incoming.drop data.length =
            s.incoming.drop (min n (packetbufsize - s.remainbuf)) := by
          rw [← hdata, List.length_take]
          rcases Nat.le_total (min n (packetbufsize - s.remainbuf)) s.incoming.length with h | h
          · rw [Nat.min_eq_left h]
          · rw [Nat.min_eq_right h, List.drop_length, List.drop_of_length_le h]
        rw [hback, ← hdata, List.take_append_drop]
      by_cases hnone : data = []
      · rw [if_pos hnone]
        exact ⟨hstays, .inr ⟨.inl rfl, rfl⟩⟩
      · rw [if_neg hnone]
        refine ⟨⟨rfl, ⟨Nat.zero_le _, ?_⟩, ?_, ?_⟩, .inl ⟨rfl, rfl⟩⟩
        · dsimp only
          have hfits : s.remainbuf ≤ packetbufsize := by omega
          omega
        · unfold PacketReader.unread
          dsimp only
          rw [← readRange_append _ (Nat.zero_le s.remainbuf) (Nat.le_add_right _ _),
            readRange_store_before _ _ le_rfl, readRange_store, hmoved, List.append_assoc, hsplit]
          rfl
        · intro hnone
          dsimp only
          rw [hnone, List.drop_nil]

/-- The buffer and the socket do not matter to the position. -/
theorem Position.buffers {stream : List UInt8} (h : Position s final todo raw stream)
    (buf : ℕ → UInt8) (readidx writeidx : ℕ) (incoming : List UInt8) :
    Position { s with
      buf := buf, readidx := readidx, writeidx := writeidx, incoming := incoming }
      final todo raw stream := by
  cases h with
  | between hidle htotal hmatched hstream => exact .between hidle htotal hmatched hstream
  | within hopen hsize hstream =>
    obtain ⟨hidle, hseqno, hfits, ⟨junk, hplain⟩, hlength, hpadding, htotal, hpos⟩ := hopen
    refine .within ⟨hidle, hseqno, hfits, ⟨junk, ?_⟩, hlength, hpadding, htotal, hpos⟩ hsize hstream
    cases hplain with
    | clear hkeys hremote hbody => exact .clear hkeys hremote hbody
    | crypted hkeys hremote hpaired hinit hbody hblocks hcipher hleft hrest =>
      exact .crypted hkeys hremote hpaired hinit hbody hblocks hcipher hleft hrest
  | adding hcreated hjump hmatched hstream => exact .adding hcreated hjump hmatched hstream

theorem Reads.refilled {s' : PacketReader τ} (h : Refilled s s') (hreads : Reads s todo more raw final) :
    Reads s' todo more raw final := by
  obtain ⟨stream, hpos, hstream⟩ := hreads.position
  refine ⟨h.index, stream, ?_, ?_⟩
  · rw [h.same]
    exact hpos.buffers _ _ _ _
  · rw [← List.append_assoc, h.unread, List.append_assoc]
    exact hstream

/-- A packet has a block at least. -/
theorem blocksize_le_frame {e next : Endpoint σ} {data packet : List UInt8} {junk : ℕ → UInt8}
    (hmatched : Matched e s.remote) (hframe : e.frame data junk = .ok (packet, next)) :
    s.blocksize ≤ packet.length := by
  have hlen := length_plainPacket e.sendBlocksize data junk
  unfold Endpoint.frame at hframe
  unfold PacketReader.blocksize
  obtain ⟨-, ⟨hkeys, hremote⟩ | ⟨k, st, st', hkeys, hremote, -⟩⟩ := hmatched
  · simp only [hkeys, Except.ok.injEq, Prod.mk.injEq] at hframe
    rw [hremote, ← hframe.1]
    dsimp only
    omega
  · have hbounds := k.blocksizeBounds
    have hsame := k.sameBlocksize
    have hsend : e.sendBlocksize = k.enc.blocksize := by
      unfold Endpoint.sendBlocksize
      rw [hkeys]
    obtain ⟨n, hn⟩ := plainPacket_blocks hbounds.1 data junk
    simp only [hkeys, hsend] at hframe
    generalize plainPacket k.enc.blocksize data junk = plain at hframe hn
    have hdiv : plain.length / k.enc.blocksize = 1 + n := by
      rw [hn, Nat.mul_div_cancel _ (by omega)]
    rw [hdiv] at hframe
    cases hcipher : inBlocks k.enc.crypt k.enc.blocksize (1 + n) st plain with
    | error st => simp [hcipher] at hframe
    | ok found =>
      simp only [hcipher, Except.ok.injEq, Prod.mk.injEq] at hframe
      have hcipherLen := length_inBlocks k.undoes.length hn hcipher
      rw [Nat.add_mul, Nat.one_mul] at hcipherLen
      rw [hremote, ← hframe.1, List.length_append, hcipherLen]
      dsimp only
      omega

/-- One round of the loop behind the refill. -/
theorem Reads.takePacket (h : Reads s todo more raw final) (hjump : s.jump1 = false)
    (hnext : ¬ KeysNext todo) :
    (s.takePacket false = (some .eagain, s) ∧ s.totalNum = 0 ∧ s.remainbuf < s.blocksize) ∨
      ∃ n s' e data raw' last rest, s.takePacket false = (none, s') ∧ s.Advances s' n ∧
        todo = .packet data :: rest ∧ OpenPacket s' e data raw' last ∧
        (8 ≤ e.sendBlocksize ∧ e.sendBlocksize ≤ 32) ∧ Reads s' todo more raw' final ∧
        (∃ stream, Streams last rest stream final ∧
          s'.unread ++ (s'.incoming ++ more) = raw' ++ stream) ∧
        (raw' = [] ∨ s'.remainbuf < s'.blocksize ∧ s'.remainbuf < raw'.length) := by
  obtain ⟨⟨hidx, hbuf⟩, stream, hpos, hstream⟩ := h
  have hshift : ∀ {n : ℕ} {s' : PacketReader τ} {front behind : List UInt8}, s.Advances s' n →
      n ≤ s.remainbuf → n ≤ front.length → s.unread ++ (s.incoming ++ more) = front ++ behind →
        (s'.readidx ≤ s'.writeidx ∧ s'.writeidx ≤ packetbufsize) ∧
          s'.unread ++ (s'.incoming ++ more) = front.drop n ++ behind := by
    intro n s' front behind hadv hn hfront heq
    have hremain : s.readidx + s.remainbuf = s.writeidx := by
      unfold PacketReader.remainbuf
      omega
    have hcut : (s.unread ++ (s.incoming ++ more)).drop n = (front ++ behind).drop n := by rw [heq]
    rw [List.drop_append_of_le_length (by rw [s.length_unread]; exact hn),
      List.drop_append_of_le_length hfront] at hcut
    refine ⟨⟨?_, ?_⟩, ?_⟩
    · rw [hadv.readidx, hadv.writeidx]
      omega
    · rw [hadv.writeidx]
      exact hbuf
    · rw [hadv.unread hn hidx, hadv.incoming]
      exact hcut
  have hend : ∀ {n : ℕ} {s' : PacketReader τ} {front : List UInt8}, s.Advances s' n →
      n ≤ s.remainbuf → n ≤ front.length →
      (n = front.length ∨ s.remainbuf < n + s.blocksize ∧ s.remainbuf < front.length) →
        front.drop n = [] ∨
          s'.remainbuf < s'.blocksize ∧ s'.remainbuf < (front.drop n).length := by
    intro n s' front hadv hn hfront hcase
    rw [hadv.remainbuf, hadv.hasKeys, List.length_drop]
    rcases hcase with hall | hpart
    · exact .inl (by rw [hall, List.drop_length])
    · exact .inr (by omega)
  cases hpos with
  | between hidle htotal hmatched hstreams =>
    by_cases hfew : s.remainbuf < s.blocksize
    · refine .inl ⟨?_, htotal, hfew⟩
      unfold PacketReader.takePacket
      dsimp only
      rw [if_pos htotal, if_pos (by exact_mod_cast hfew)]
    · cases hstreams with
      | nil =>
        exfalso
        have hlen := s.length_unread
        have hempty : s.unread = [] := (List.append_eq_nil_iff.mp hstream).1
        rw [hempty, List.length_nil] at hlen
        have hpositive := blocksize_pos hmatched
        omega
      | newkeys k hrest => exact absurd trivial hnext
      | @packet _ next _ data packet bytes junk rest hfits hframe hrest =>
        rw [List.nil_append] at hstream
        obtain ⟨n, s', htake, hopen, hadv, hn, hpacket, hcase⟩ := takePacket_between htotal hmatched
          hfits hframe hidx hbuf (by omega) hstream hidle
        obtain ⟨hindex, hbehind⟩ := hshift hadv hn hpacket hstream
        have hsize := sendBlocksize_bounds hmatched
        exact .inr ⟨n, s', _, data, packet.drop n, next, rest, htake, hadv, rfl, hopen, hsize,
          ⟨hindex, bytes, .within hopen hsize hrest, hbehind⟩, ⟨bytes, hrest, hbehind⟩,
          hend hadv hn hpacket hcase⟩
  | @within e last data raw stream rest hopen hsize hrest =>
    obtain ⟨n, s', htake, hopen', hadv, hn, hraw, hcase⟩ :=
      takePacket_within hopen hsize hidx hbuf hstream
    obtain ⟨hindex, hbehind⟩ := hshift hadv hn hraw hstream
    exact .inr ⟨n, s', e, data, raw.drop n, last, rest, htake, hadv, rfl, hopen', hsize,
      ⟨hindex, stream, .within hopen' hsize hrest, hbehind⟩, ⟨stream, hrest, hbehind⟩,
      hend hadv hn hraw hcase⟩
  | adding hcreated hjump1 hmatched hstreams =>
    rw [hjump] at hjump1
    cases hjump1

/-- What transport_read may return on a stream of packets: never that a packet is wrong. -/
def ReadEnd.Fine : ReadEnd → Prop
  | .packet _ | .nothing | .eagain | .socketRecv | .addFails => True
  | _ => False

/-- What a call makes of a reader: `new` is given to packet_add, and the rest is ahead. -/
structure Called (add : PacketAdd) (s : PacketReader τ) (todo : List (Item σ τ))
    (more : List UInt8) (final : Endpoint σ) (r : ReadEnd × PacketReader τ) : Prop where
  progress : ∃ (new : List (List UInt8)) (rest : List (Item σ τ)),
    todo = new.map .packet ++ rest ∧ r.2.added = s.added ++ new.map (·, true) ∧
      Ahead r.2 rest more final
  fine : r.1.Fine
  waits : r.1 = .eagain → add = .ok → r.2.jump1 = false ∧ r.2.remainbuf < r.2.blocksize
  incoming : s.incoming = [] → r.2.incoming = []

/-- packet_add is called for a packet that has been checked. -/
theorem endPacket_created {e : Endpoint σ} {stream : List UInt8} (hcreated : s.created = true)
    (hjump : s.jump1 = false) (hmatched : Matched e s.remote) (hstream : Streams e todo stream final)
    (hindex : s.readidx ≤ s.writeidx ∧ s.writeidx ≤ packetbufsize)
    (hbehind : s.unread ++ (s.incoming ++ more) = stream) (encrypted : Bool) (add : PacketAdd) :
    Called add s todo more final (s.endPacket encrypted add) := by
  have hsame : s.checkPacket encrypted = s := by
    unfold PacketReader.checkPacket
    rw [hcreated, if_pos rfl]
  have hdone : ∀ disconnected packetType, Ahead { s with
      created := false, totalNum := 0, disconnected := disconnected, packetType := packetType }
        todo more final :=
    fun _ _ => ⟨[], ⟨hindex, stream, .between ⟨rfl, hjump⟩ rfl hmatched hstream, hbehind⟩,
      fun _ hne => absurd rfl hne⟩
  unfold PacketReader.endPacket
  simp only [hsame]
  cases add with
  | ok =>
    exact ⟨⟨[], todo, rfl, (List.append_nil _).symm, hdone _ _⟩, trivial, nofun, id⟩
  | again =>
    refine ⟨⟨[], todo, rfl, (List.append_nil _).symm, [], ⟨hindex, stream, ?_, hbehind⟩, nofun⟩,
      trivial, nofun, id⟩
    exact .adding hcreated rfl hmatched hstream
  | rekeys =>
    exact ⟨⟨[], todo, rfl, (List.append_nil _).symm, hdone _ _⟩, trivial, nofun, id⟩
  | fails disconnects =>
    exact ⟨⟨[], todo, rfl, (List.append_nil _).symm, hdone _ _⟩, trivial, nofun, id⟩

/-- A packet that has been read whole is checked and given to packet_add. -/
theorem endPacket_whole {e last : Endpoint σ} {data stream : List UInt8}
    (hopen : OpenPacket s e data [] last) (hsize : 8 ≤ e.sendBlocksize ∧ e.sendBlocksize ≤ 32)
    (hstream : Streams last todo stream final)
    (hindex : s.readidx ≤ s.writeidx ∧ s.writeidx ≤ packetbufsize)
    (hbehind : s.unread ++ (s.incoming ++ more) = stream) (add : PacketAdd) :
    Called add s (.packet data :: todo) more final (s.endPacket s.encrypted add) := by
  obtain ⟨packetType, hcheck, hmatched⟩ := checkPacket_whole hopen hsize
  generalize ht : s.checkPacket s.encrypted = t at hcheck
  have hfinish : s.endPacket s.encrypted add = t.endPacket s.encrypted add := by
    have hagain : t.checkPacket s.encrypted = t := by
      rw [hcheck]
      rfl
    unfold PacketReader.endPacket
    rw [ht, hagain]
  have hcalled : Called add t todo more final (t.endPacket s.encrypted add) := by
    refine endPacket_created ?_ ?_ ?_ hstream ?_ ?_ _ _
    · rw [hcheck]
    · rw [hcheck]
      exact hopen.idle.2
    · rw [hcheck]
      exact hmatched
    · rw [hcheck]
      exact hindex
    · rw [hcheck]
      exact hbehind
  obtain ⟨⟨new, rest, htodo, hadded, hahead⟩, hfine, hwaits, hincoming⟩ := hcalled
  rw [hfinish]
  refine ⟨⟨data :: new, rest, ?_, ?_, hahead⟩, hfine, hwaits, ?_⟩
  · rw [htodo]
    rfl
  · rw [hadded, hcheck]
    simp
  · intro hnone
    apply hincoming
    rw [hcheck]
    exact hnone

/-- A call that has stopped in front of the rest of a packet. -/
theorem Called.of_eq {add : PacketAdd} {r : ReadEnd × PacketReader τ} (hadded : r.2.added = s.added)
    (hahead : Ahead r.2 todo more final) (hfine : r.1.Fine)
    (hwaits : r.1 = .eagain → add = .ok → r.2.jump1 = false ∧ r.2.remainbuf < r.2.blocksize)
    (hincoming : s.incoming = [] → r.2.incoming = []) : Called add s todo more final r :=
  ⟨⟨[], todo, rfl, by rw [hadded]; exact (List.append_nil _).symm, hahead⟩, hfine, hwaits, hincoming⟩

/-- A call goes on as one that is made from a state behind it. -/
theorem Called.of_step {t : PacketReader τ} {add : PacketAdd} {r : ReadEnd × PacketReader τ}
    (h : Called add t todo more final r) (hadded : t.added = s.added)
    (hincoming : s.incoming = [] → t.incoming = []) : Called add s todo more final r := by
  obtain ⟨⟨new, rest, htodo, hnew, hahead⟩, hfine, hwaits, hnone⟩ := h
  exact ⟨⟨new, rest, htodo, by rw [hnew, hadded], hahead⟩, hfine, hwaits,
    fun hs => hnone (hincoming hs)⟩

theorem Refilled.kept {s' : PacketReader τ} (h : Refilled s s') :
    s'.added = s.added ∧ s'.jump1 = s.jump1 ∧ s'.totalNum = s.totalNum ∧
      s'.blocksize = s.blocksize := by
  rw [h.same]
  exact ⟨rfl, rfl, rfl, rfl⟩

/-- A round of the loop behind takePacket. -/
def afterTake (add : PacketAdd) (rounds : ℕ) (recvs : List RecvCall) :
    Option ReadEnd × PacketReader τ → ReadEnd × PacketReader τ
  | (some ret, s) => (ret, s)
  | (none, s) =>
    if s.payload.length = s.totalNum then s.endPacket s.encrypted add
    else s.readLoop false add rounds recvs

/-- The loop ends, after a round for each recv and one more at most. -/
theorem readLoop_called (rounds : ℕ) (recvs : List RecvCall) (add : PacketAdd)
    (h : Ahead s todo more final) (hjump : s.jump1 = false) (hnext : ¬ KeysNext todo)
    (hrounds : recvs.length + 2 ≤ rounds ∨
      s.remainbuf < s.blocksize ∧ recvs.length + 1 ≤ rounds) :
    Called add s todo more final (s.readLoop false add rounds recvs) := by
  induction rounds generalizing s recvs todo with
  | zero => omega
  | succ rounds ih =>
    unfold PacketReader.readLoop
    by_cases hgone : s.disconnected = true
    · rw [if_pos hgone]
      exact .of_eq rfl h trivial nofun id
    · rw [if_neg hgone]
      obtain ⟨raw, hreads, hstarved⟩ := h
      -- behind the refill, if there is one
      have hround : ∀ (t : PacketReader τ) (left : List RecvCall),
          Reads t todo more raw final → t.jump1 = false → left.length + 1 ≤ rounds →
            Called add t todo more final (afterTake add rounds left (t.takePacket false)) := by
        intro t left ht htjump hleft
        rcases ht.takePacket htjump hnext with ⟨hagain, htotal, hfew⟩ |
          ⟨n, u, e, data, raw', last, rest, htake, hadv, rfl, hopen, hsize, hu, ⟨stream, hstream,
            hbehind⟩, hend⟩
        · rw [hagain]
          exact .of_eq rfl ⟨raw, ht, fun _ hne => absurd htotal hne⟩ trivial
            (fun _ _ => ⟨htjump, hfew⟩) id
        · rw [htake]
          unfold afterTake
          dsimp only
          by_cases hwhole : raw' = []
          · subst hwhole
            have hfull : u.payload.length = u.totalNum := by
              rw [hopen.total, List.length_nil, Nat.add_zero]
            rw [if_pos hfull]
            exact (endPacket_whole hopen hsize hstream hu.index hbehind add).of_step hadv.added
              (fun hnone => by rw [hadv.incoming, hnone])
          · have hpart : u.payload.length ≠ u.totalNum := by
              have hpos := List.length_pos_iff.mpr hwhole
              rw [hopen.total]
              omega
            rw [if_neg hpart]
            obtain ⟨hfew, hmore⟩ := hend.resolve_left hwhole
            exact (ih left ⟨raw', hu, fun _ _ => hmore⟩ hopen.idle.2 hnext
              (.inr ⟨hfew, hleft⟩)).of_step hadv.added (fun hnone => by rw [hadv.incoming, hnone])
      by_cases hfew : s.remainbuf < s.blocksize
      · obtain ⟨hrefilled, hcase⟩ := recvMore_refilled hreads.index.1 hreads.index.2 recvs
        rw [if_pos hfew]
        generalize hmore : s.recvMore recvs = found at hrefilled hcase
        obtain ⟨ret, left, t⟩ := found
        dsimp only at hrefilled hcase ⊢
        obtain ⟨hadded, htjump, htotal, hblock⟩ := hrefilled.kept
        have hincoming := hrefilled.incoming
        rcases hcase with ⟨rfl, hleft⟩ | ⟨hret, hsame⟩
        · refine Called.of_step ?_ hadded hincoming
          exact hround t left (hreads.refilled hrefilled) (htjump.trans hjump)
            (by omega)
        · have hahead : Ahead t todo more final := by
            refine ⟨raw, hreads.refilled hrefilled, ?_⟩
            rw [htjump, htotal, hsame]
            exact hstarved
          rcases hret with rfl | rfl
          · exact .of_eq hadded hahead trivial
              (fun _ _ => ⟨htjump.trans hjump, by rw [hsame, hblock]; exact hfew⟩) hincoming
          · exact .of_eq hadded hahead trivial nofun hincoming
      · rw [if_neg hfew]
        exact hround s recvs hreads hjump (by omega)

/-- A call of transport_read goes on in the stream wherever the last one has stopped. -/
theorem transportRead_called {call : ReadCall} (h : Ahead s todo more final)
    (halloc : call.allocFails = false) (hnext : s.jump1 = true ∨ ¬ KeysNext todo) :
    Called call.add s todo more final (transportRead s call) := by
  unfold transportRead
  by_cases hjump : s.jump1 = true
  · rw [if_pos hjump]
    obtain ⟨raw, ⟨hindex, stream, hpos, hbehind⟩, -⟩ := h
    cases hpos with
    | between hidle htotal hmatched hstream =>
      rw [hidle.2] at hjump
      cases hjump
    | within hopen hsize hstream =>
      rw [hopen.idle.2] at hjump
      cases hjump
    | adding hcreated hjump1 hmatched hstream =>
      have hcalled := endPacket_created (s := { s with jump1 := false }) hcreated rfl hmatched
        hstream hindex hbehind s.readPackEncrypted call.add
      exact hcalled.of_step rfl id
  · rw [if_neg hjump, halloc]
    exact readLoop_called _ call.recvs call.add h (Bool.eq_false_iff.mpr hjump)
      (hnext.resolve_left hjump) (.inl le_rfl)

/-- A reader that waits although everything has arrived has read everything. -/
theorem Ahead.nothing_left (h : Ahead s todo [] final) (hincoming : s.incoming = [])
    (hjump : s.jump1 = false) (hfew : s.remainbuf < s.blocksize) : todo = [] ∨ KeysNext todo := by
  obtain ⟨raw, ⟨-, stream, hpos, hstream⟩, hstarved⟩ := h
  have hlen := s.length_unread
  rw [hincoming, List.append_nil, List.append_nil] at hstream
  rw [hstream, List.length_append] at hlen
  cases hpos with
  | between hidle htotal hmatched hstreams =>
    cases hstreams with
    | nil => exact .inl rfl
    | newkeys k hrest => exact .inr trivial
    | packet hfits hframe hrest =>
      have hblock := blocksize_le_frame hmatched hframe
      rw [List.length_append] at hlen
      omega
  | within hopen hsize hrest =>
    have hpos := hopen.total_pos
    have hshort := hstarved hjump (by omega)
    omega
  | adding hcreated hjump1 hmatched hstreams =>
    rw [hjump] at hjump1
    cases hjump1

end Calls

end Jterm.Ssh.Transport
