import Jterm.Lib.Runs
import Jterm.Ssh.PacketCall

/-!
One direction of the connection: a sender, the bytes on their way and a reader, each with
its own packet buffer. Sends are short or block, reads find any number of bytes, packet_add
may have to be called again, and keys change between packets. What is read is what was
sent.
-/
namespace Jterm.Ssh.Transport

open Runs

variable {σ τ : Type*}

/-- `items` are the packets framed and the changes of keys, in order; the reader is behind
`count` of them. `ends` is what transport_read has returned. -/
structure Link (σ τ : Type*) where
  sender : PacketSender σ
  reader : PacketReader τ
  items : List (Item σ τ)
  count : ℕ
  ends : List ReadEnd

/-- Both sides behind the banner. -/
def Link.initial (buf : ℕ → UInt8) : Link σ τ where
  sender :=
    { endpoint := ⟨none, 0⟩, outbuf := [], odata := 0, olen := 0, osent := 0, framed := [] }
  reader :=
    { remote := ⟨none, 0⟩, buf := buf, readidx := 0, writeidx := 0, init := [], packetLength := 0
      paddingLength := 0, totalNum := 0, payload := [], jump1 := false, readPackEncrypted := false
      created := false, packetType := 0, disconnected := false, incoming := [], added := [] }
  items := []
  count := 0
  ends := []

inductive LinkEvent (σ τ : Type*)
  | send (payload : Payload) (junk : ℕ → UInt8) (call : SendCall)
  | sendKeys (keys : KeyPair σ τ)
  | read (call : ReadCall)
  | readKeys

/-- Keys change on the reading side where they have changed on the sending side. -/
def linkStep (l : Link σ τ) : LinkEvent σ τ → Link σ τ
  | .send payload junk call =>
    let (_, sent, sender) := transportSend l.sender payload junk call
    let framed := sender.framed.drop l.sender.framed.length
    { l with
      sender := sender
      reader := { l.reader with incoming := l.reader.incoming ++ sent }
      items := l.items ++ framed.map .packet }
  | .sendKeys k =>
    { l with
      sender := { l.sender with
        endpoint := { l.sender.endpoint with keys := some (k.enc, k.encState) } }
      items := l.items ++ [.newkeys k] }
  | .read call =>
    let (ret, reader) := transportRead l.reader call
    { l with
      reader := reader
      count := l.count + (reader.added.length - l.reader.added.length)
      ends := l.ends ++ [ret] }
  | .readKeys =>
    match l.items[l.count]? with
    | some (.newkeys k) =>
      { l with
        reader := { l.reader with
          remote := { l.reader.remote with keys := some (k.dec, k.decState) } }
        count := l.count + 1 }
    | _ => l

/-- The cipher and the socket do not fail, there is memory for a packet, and nobody reads
on where the keys change first. -/
def InStep (l : Link σ τ) : LinkEvent σ τ → Prop
  | .send payload junk call =>
    0 < payload.data.length ∧ (transportSend l.sender payload junk call).1 ≠ .encrypt ∧
      (transportSend l.sender payload junk call).1 ≠ .socketSend
  | .read call =>
    call.allocFails = false ∧ (l.reader.jump1 = true ∨ ¬ KeysNext (l.items.drop l.count))
  | _ => True

instance : DecidablePred (KeysNext : List (Item σ τ) → Prop)
  | .newkeys _ :: _ => .isTrue trivial
  | .packet _ :: _ => .isFalse id
  | [] => .isFalse id

instance (l : Link σ τ) : DecidablePred (InStep l)
  | .send _ _ _ => inferInstanceAs (Decidable (_ ∧ _ ∧ _))
  | .read _ => inferInstanceAs (Decidable (_ ∧ (_ ∨ _)))
  | .sendKeys _ => .isTrue trivial
  | .readKeys => .isTrue trivial

/-- What is in `outbuf` and has not been sent. -/
def PacketSender.waiting (s : PacketSender σ) : List UInt8 :=
  if s.olen = 0 then [] else s.outbuf.drop s.osent

/-- The packet in `outbuf` is sent on, and another one is refused. -/
theorem sendExisting_waiting {s : PacketSender σ} (hbusy : s.olen ≠ 0) (payload : Payload)
    (call : SendCall) :
    ∃ ret sent s', sendExisting s payload call = (some ret, sent, s') ∧ s'.framed = s.framed ∧
      s'.endpoint = s.endpoint ∧ sent ++ s'.waiting = s.waiting := by
  have hwaiting : s.waiting = s.outbuf.drop s.osent := if_neg hbusy
  unfold sendExisting
  rw [if_neg hbusy]
  by_cases hother : payload.address ≠ s.odata ∨ payload.data.length ≠ s.olen
  · rw [if_pos hother]
    exact ⟨_, _, _, rfl, rfl, rfl, List.nil_append _⟩
  · rw [if_neg hother]
    cases call with
    | fails => exact ⟨_, _, _, rfl, rfl, rfl, List.nil_append _⟩
    | again => exact ⟨_, _, _, rfl, rfl, rfl, List.nil_append _⟩
    | takes n =>
      dsimp only
      by_cases hall : (s.outbuf.drop s.osent).length ≤ n
      · rw [if_pos hall]
        refine ⟨_, _, _, rfl, rfl, rfl, ?_⟩
        rw [hwaiting, PacketSender.waiting, if_pos rfl, List.append_nil]
      · rw [if_neg hall]
        refine ⟨_, _, _, rfl, rfl, rfl, ?_⟩
        rw [hwaiting, PacketSender.waiting, if_neg hbusy]
        dsimp only
        rw [← List.drop_drop, List.take_append_drop]

/-- What of a new packet is not sent stays in `outbuf`. -/
theorem sendNew_waiting {s : PacketSender σ} {payload : Payload} (hdata : 0 < payload.data.length)
    (call : SendCall) (hcall : (sendNew s payload call).1 ≠ .socketSend) :
    (sendNew s payload call).2.2.framed = s.framed ∧
      (sendNew s payload call).2.2.endpoint = s.endpoint ∧
        (sendNew s payload call).2.1 ++ (sendNew s payload call).2.2.waiting = s.outbuf := by
  unfold sendNew at hcall ⊢
  cases call with
  | fails => exact absurd rfl hcall
  | again =>
    refine ⟨rfl, rfl, ?_⟩
    unfold PacketSender.waiting
    rw [if_neg (by dsimp only; omega)]
    rfl
  | takes n =>
    dsimp only
    by_cases hall : s.outbuf.length ≤ n
    · rw [if_pos hall]
      exact ⟨rfl, rfl, by rw [PacketSender.waiting, if_pos rfl, List.append_nil]⟩
    · rw [if_neg hall]
      refine ⟨rfl, rfl, ?_⟩
      unfold PacketSender.waiting
      rw [if_neg (by dsimp only; omega)]
      exact List.take_append_drop n s.outbuf

/-- What a call of transport_send adds to the stream: a packet or nothing. -/
theorem transportSend_streams {s s' : PacketSender σ} {payload : Payload} {junk : ℕ → UInt8}
    {call : SendCall} {ret : SendEnd} {sent : List UInt8}
    (h : transportSend s payload junk call = (ret, sent, s')) (hdata : 0 < payload.data.length)
    (hencrypt : ret ≠ .encrypt) (hsocket : ret ≠ .socketSend) :
    ∃ (new : List (List UInt8)) (bytes : List UInt8), s'.framed = s.framed ++ new ∧
      sent ++ s'.waiting = s.waiting ++ bytes ∧
        Streams s.endpoint (new.map (.packet : List UInt8 → Item σ τ)) bytes s'.endpoint := by
  unfold transportSend at h
  by_cases hbusy : s.olen ≠ 0
  · obtain ⟨ret', sent', t, hexisting, hframed, hendpoint, hwaiting⟩ :=
      sendExisting_waiting hbusy payload call
    rw [hexisting] at h
    obtain ⟨-, rfl, rfl⟩ : ret' = ret ∧ sent' = sent ∧ t = s' := by simpa using h
    exact ⟨[], [], by rw [hframed, List.append_nil], by rw [hwaiting, List.append_nil],
      by rw [hendpoint]; exact .nil⟩
  · have hidle : s.olen = 0 := not_not.mp hbusy
    have hexisting : sendExisting s payload call = (none, [], s) := if_pos hidle
    have hnone : s.waiting = [] := if_pos hidle
    rw [hexisting] at h
    dsimp only at h
    by_cases hlong : maxSshPacketLen - 0x100 ≤ (payload.data ++ payload.data2).length
    · rw [if_pos hlong] at h
      obtain ⟨-, rfl, rfl⟩ : SendEnd.inval = ret ∧ [] = sent ∧ s = s' := by simpa using h
      exact ⟨[], [], (List.append_nil _).symm, by rw [List.append_nil, List.nil_append], .nil⟩
    · rw [if_neg hlong] at h
      cases hframe : s.endpoint.frame (payload.data ++ payload.data2) junk with
      | error endpoint =>
        rw [hframe] at h
        obtain ⟨rfl, -⟩ := Prod.mk.inj h
        exact absurd rfl hencrypt
      | ok found =>
        obtain ⟨packet, endpoint⟩ := found
        rw [hframe] at h
        dsimp only at h
        have hfits : Fits (payload.data ++ payload.data2) := by
          refine ⟨?_, by omega⟩
          rw [List.length_append]
          omega
        have hstreams := Streams.packet (τ := τ) hfits hframe .nil
        rw [List.append_nil] at hstreams
        have hnew := sendNew_waiting (s := { s with
          endpoint := endpoint, outbuf := packet
          framed := s.framed ++ [payload.data ++ payload.data2] }) hdata call
        rw [h] at hnew
        obtain ⟨hframed, hendpoint, hwaiting⟩ := hnew hsocket
        dsimp only at hframed hendpoint hwaiting
        refine ⟨[payload.data ++ payload.data2], packet, hframed, ?_, ?_⟩
        · rw [hnone, List.nil_append, hwaiting]
        · rw [hendpoint]
          exact hstreams

/-- More is sent behind what is ahead. -/
theorem Ahead.extend {s : PacketReader τ} {todo new : List (Item σ τ)}
    {more more' bytes sent : List UInt8} {final final' : Endpoint σ} (h : Ahead s todo more final)
    (hnew : Streams final new bytes final') (hsent : sent ++ more' = more ++ bytes) :
    Ahead { s with incoming := s.incoming ++ sent } (todo ++ new) more' final' := by
  obtain ⟨raw, ⟨hindex, stream, hpos, hstream⟩, hstarved⟩ := h
  have hlonger : Position s final' (todo ++ new) raw (stream ++ bytes) := by
    cases hpos with
    | between hidle htotal hmatched hstreams =>
      exact .between hidle htotal hmatched (hstreams.append hnew)
    | within hopen hsize hstreams => exact .within hopen hsize (hstreams.append hnew)
    | adding hcreated hjump hmatched hstreams =>
      exact .adding hcreated hjump hmatched (hstreams.append hnew)
  refine ⟨raw, ⟨hindex, stream ++ bytes, hlonger.buffers _ _ _ _, ?_⟩, hstarved⟩
  have hmore : s.incoming ++ sent ++ more' = s.incoming ++ more ++ bytes := by
    rw [List.append_assoc, hsent, List.append_assoc]
  dsimp only
  rw [hmore, ← List.append_assoc raw, ← hstream, List.append_assoc, List.append_assoc,
    List.append_assoc]
  rfl

/-- The keys of the reader change where those of the sender have changed. -/
theorem Ahead.changeKeys {s : PacketReader τ} {k : KeyPair σ τ} {todo : List (Item σ τ)}
    {more : List UInt8} {final : Endpoint σ} (h : Ahead s (.newkeys k :: todo) more final) :
    Ahead { s with remote := { s.remote with keys := some (k.dec, k.decState) } } todo more
      final := by
  obtain ⟨raw, ⟨hindex, stream, hpos, hstream⟩, hstarved⟩ := h
  have hmatched : ∀ {e : Endpoint σ}, Matched e s.remote →
      Matched { e with keys := some (k.enc, k.encState) }
        { s.remote with keys := some (k.dec, k.decState) } :=
    fun he => ⟨he.1, .inr ⟨k, k.encState, k.decState, rfl, rfl, k.paired⟩⟩
  refine ⟨raw, ⟨hindex, stream, ?_, hstream⟩, hstarved⟩
  cases hpos with
  | between hidle htotal he hstreams =>
    cases hstreams with
    | newkeys _ hrest => exact .between hidle htotal (hmatched he) hrest
  | adding hcreated hjump he hstreams =>
    cases hstreams with
    | newkeys _ hrest => exact .adding hcreated hjump (hmatched he) hrest

/-- The reader is behind the first items and has given their payloads to packet_add. -/
structure LinkInv (l : Link σ τ) : Prop where
  split : ∃ done todo, l.items = done ++ todo ∧ done.length = l.count ∧
    l.reader.added = (packetsOf done).map (·, true) ∧
      Ahead l.reader todo l.sender.waiting l.sender.endpoint
  framed : packetsOf l.items = l.sender.framed
  fine : ∀ ret ∈ l.ends, ret.Fine

theorem linkInv_initial (buf : ℕ → UInt8) : LinkInv (Link.initial buf : Link σ τ) where
  split := ⟨[], [], rfl, rfl, rfl, [], ⟨⟨le_rfl, Nat.zero_le _⟩, [],
    .between ⟨rfl, rfl⟩ rfl ⟨rfl, .inl ⟨rfl, rfl⟩⟩ .nil, rfl⟩, fun _ hne => absurd rfl hne⟩
  framed := rfl
  fine := nofun

theorem packetsOf_map (new : List (List UInt8)) :
    packetsOf (new.map (.packet : List UInt8 → Item σ τ)) = new := by
  induction new with
  | nil => rfl
  | cons data new ih => rw [List.map_cons, packetsOf, ih]

theorem LinkInv.step {l : Link σ τ} (h : LinkInv l) {e : LinkEvent σ τ} (he : InStep l e) :
    LinkInv (linkStep l e) := by
  obtain ⟨⟨done, todo, hitems, hcount, hadded, hahead⟩, hframed, hfine⟩ := h
  cases e with
  | send payload junk call =>
    obtain ⟨hdata, hencrypt, hsocket⟩ := he
    unfold linkStep
    generalize hsend : transportSend l.sender payload junk call = found at hencrypt hsocket
    obtain ⟨ret, sent, sender⟩ := found
    dsimp only at hencrypt hsocket ⊢
    rw [hsend]
    dsimp only
    obtain ⟨new, bytes, hnew, hwaiting, hstreams⟩ :=
      transportSend_streams (τ := τ) hsend hdata hencrypt hsocket
    rw [hnew, List.drop_left]
    refine ⟨⟨done, todo ++ new.map .packet, ?_, hcount, hadded, ?_⟩, ?_, hfine⟩
    · rw [hitems, List.append_assoc]
    · exact hahead.extend hstreams hwaiting
    · rw [packetsOf_append, hframed, packetsOf_map, hnew]
  | sendKeys k =>
    have hkeys : Streams l.sender.endpoint [.newkeys k] []
        { l.sender.endpoint with keys := some (k.enc, k.encState) } := .newkeys k .nil
    refine ⟨⟨done, todo ++ [.newkeys k], ?_, hcount, hadded, ?_⟩, ?_, hfine⟩
    · change l.items ++ [.newkeys k] = _
      rw [hitems, List.append_assoc]
    · have hsame : [] ++ l.sender.waiting = l.sender.waiting ++ [] := (List.append_nil _).symm
      have hmore := hahead.extend hkeys hsame
      rw [List.append_nil] at hmore
      exact hmore
    · change packetsOf (l.items ++ [.newkeys k]) = _
      rw [packetsOf_append, hframed]
      exact List.append_nil _
  | read call =>
    obtain ⟨halloc, hnext⟩ := he
    rw [hitems, ← hcount, List.drop_left] at hnext
    obtain ⟨⟨new, rest, rfl, hnew, hrest⟩, hret, -, -⟩ := transportRead_called hahead halloc hnext
    unfold linkStep
    refine ⟨⟨done ++ new.map .packet, rest, ?_, ?_, ?_, hrest⟩, hframed, ?_⟩
    · dsimp only
      rw [hitems, List.append_assoc]
    · dsimp only
      rw [hnew, List.length_append, List.length_append, List.length_map, List.length_map]
      omega
    · dsimp only
      rw [hnew, hadded, packetsOf_append, packetsOf_map, List.map_append]
    · intro r hr
      rcases List.mem_append.mp hr with hold | hlast
      · exact hfine r hold
      · rw [List.mem_singleton.mp hlast]
        exact hret
  | readKeys =>
    unfold linkStep
    have hhere : l.items[l.count]? = todo[0]? := by
      rw [hitems, ← hcount, List.getElem?_append_right le_rfl, Nat.sub_self]
    dsimp only
    rw [hhere]
    cases todo with
    | nil => exact ⟨⟨done, [], hitems, hcount, hadded, hahead⟩, hframed, hfine⟩
    | cons item todo =>
      cases item with
      | packet data => exact ⟨⟨done, _, hitems, hcount, hadded, hahead⟩, hframed, hfine⟩
      | newkeys k =>
        refine ⟨⟨done ++ [.newkeys k], todo, ?_, ?_, ?_, hahead.changeKeys⟩, hframed, hfine⟩
        · rw [hitems, List.append_assoc]
          rfl
        · rw [List.length_append, hcount]
          rfl
        · rw [packetsOf_append]
          exact hadded.trans (by rw [packetsOf, packetsOf, List.append_nil])

/-- On every run, whatever the sizes of the sends and of the reads, the reader gives packet_add
the payloads that were sent, in order and with a right MAC, and returns no error that a
packet is wrong. If nothing is on its way and a read still waits, they are all of them. -/
theorem packets_arrive (buf : ℕ → UInt8) {es : List (LinkEvent σ τ)}
    (hall : AllSteps linkStep InStep (Link.initial buf) es) :
    let l := run linkStep (Link.initial buf : Link σ τ) es
    (∃ rest, l.sender.framed = l.reader.added.map Prod.fst ++ rest) ∧
      (∀ given ∈ l.reader.added, given.2 = true) ∧ (∀ ret ∈ l.ends, ret.Fine) ∧
        ∀ call : ReadCall, call.add = .ok → InStep l (.read call) → l.sender.olen = 0 →
          l.reader.incoming = [] → (transportRead l.reader call).1 = .eagain →
            let l' := linkStep l (.read call)
            KeysNext (l'.items.drop l'.count) ∨
              l'.reader.added.map Prod.fst = l'.sender.framed := by
  intro l
  have hinv : LinkInv l := invariant_run linkStep (fun _ _ h he => h.step he)
    (linkInv_initial buf) hall
  clear_value l
  have hfst : ∀ payloads : List (List UInt8), (payloads.map (·, true)).map Prod.fst = payloads := by
    intro payloads
    rw [List.map_map]
    exact List.map_id _
  refine ⟨?_, ?_, hinv.fine, ?_⟩
  · obtain ⟨done, todo, hitems, -, hadded, -⟩ := hinv.split
    refine ⟨packetsOf todo, ?_⟩
    rw [← hinv.framed, hitems, packetsOf_append, hadded, hfst]
  · obtain ⟨done, todo, -, -, hadded, -⟩ := hinv.split
    intro given hgiven
    rw [hadded] at hgiven
    obtain ⟨data, -, rfl⟩ := List.mem_map.mp hgiven
    rfl
  · intro call hadd hstep hidle hincoming heagain l'
    have hinv' : LinkInv l' := hinv.step hstep
    obtain ⟨done, todo, hitems, hcount, hadded, hahead⟩ := hinv.split
    obtain ⟨halloc, hnext⟩ := hstep
    rw [hitems, ← hcount, List.drop_left] at hnext
    have hcalled := transportRead_called hahead halloc hnext
    obtain ⟨hjump, hfew⟩ := hcalled.waits heagain hadd
    obtain ⟨done', todo', hitems', hcount', hadded', hahead'⟩ := hinv'.split
    have hnone : l'.sender.waiting = [] := if_pos hidle
    rw [hnone] at hahead'
    rcases hahead'.nothing_left (hcalled.incoming hincoming) hjump hfew with rfl | hkeys
    · refine .inr ?_
      rw [hadded', hfst, ← hinv'.framed, hitems', List.append_nil]
    · refine .inl ?_
      rw [hitems', ← hcount', List.drop_left]
      exact hkeys

/-- A stream cipher with a counter, and a sum for the MAC. -/
def counting : Method UInt8 where
  blocksize := 8
  crypt st block := .ok (block.map (· ^^^ st), st + 1)
  macLen := 1
  hmac bytes := [bytes.foldl (· + ·) 0]

def countingKeys (counter : UInt8) : KeyPair UInt8 UInt8 where
  enc := counting
  dec := counting
  Paired st st' := st = st'
  encState := counter
  decState := counter
  paired := rfl
  undoes := by
    refine ⟨?_, ?_⟩
    · intro st next block out hlen hcrypt
      obtain ⟨rfl, -⟩ := Prod.mk.inj (Except.ok.inj hcrypt)
      rw [List.length_map, hlen]
    · intro st st' next block out hst hlen hcrypt
      obtain ⟨rfl, rfl⟩ := Prod.mk.inj (Except.ok.inj hcrypt)
      subst hst
      refine ⟨st + 1, ?_, rfl⟩
      simp [counting, Function.comp_def, UInt8.xor_assoc]
  sameBlocksize := rfl
  sameMacLen := rfl
  sameHmac := rfl
  blocksizeBounds := by decide
  macLenBound := by decide
  hmacLength _ := le_rfl

/-- A packet in two sends and two reads, of which packet_add wants a third, and one with keys. -/
def twoPackets : List (LinkEvent UInt8 UInt8) :=
  [.send ⟨64, [0x15], [0x61]⟩ (fun _ => 7) (.takes 7), .read ⟨[.takes 5, .takes 9], false, .ok⟩,
    .send ⟨64, [0x15], [0x61]⟩ (fun _ => 7) (.takes 99), .sendKeys (countingKeys 3),
    .send ⟨80, [0x5e], []⟩ (fun _ => 7) .again, .read ⟨[.takes 99], false, .again⟩,
    .read ⟨[], false, .ok⟩, .readKeys, .send ⟨80, [0x5e], []⟩ (fun _ => 7) (.takes 99),
    .read ⟨[.takes 9, .takes 99], false, .ok⟩]

theorem packets_arrive_twice :
    let l := run linkStep (Link.initial fun _ => 0) twoPackets
    let l' := linkStep l (.read ⟨[.takes 1], false, .ok⟩)
    KeysNext (l'.items.drop l'.count) ∨ l'.reader.added.map Prod.fst = l'.sender.framed :=
  (packets_arrive _ (show AllSteps linkStep InStep (Link.initial fun _ => 0) twoPackets by
    decide +kernel)).2.2.2 _ rfl (by decide +kernel) (by decide +kernel) (by decide +kernel)
      (by decide +kernel)

end Jterm.Ssh.Transport
