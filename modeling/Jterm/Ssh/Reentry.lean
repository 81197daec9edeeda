import Jterm.Ssh.TransportRead

/-!
Order of delivery under re-entry. As long as every refill under the page's reader
empties `ws_buffer`, the nested activations find nothing to read and leave the shared
buffer as it is, so the bytes taken are those received, in order.
-/
namespace Jterm.Ssh

open Runs Memory Page

/-- Inside the loop of transport_read. -/
def Frame.isReading : Frame → Bool
  | .code _ | .dispatch => false
  | _ => true

def Resting (frames : List Frame) : Prop := ∀ f ∈ frames, f.isReading = false

/-- At most the top of the stack is inside the loop, and not below a recv; it has not been
entered to jump to fullpacket. -/
def StackOk (jump1 : Bool) (stack : List Frame) : Prop :=
  Resting stack ∨
    ∃ f rest, stack = f :: rest ∧ (f = .loop ∨ ∃ crypt, f = .taking crypt) ∧ Resting rest ∧
      jump1 = false

/-- No recv is on the stack: what is not taken is in `buf` or in `ws_buffer`. -/
structure Settled (s : Reader) : Prop where
  frames : StackOk s.jump1 s.stack
  indices : s.readidx ≤ s.writeidx
  fits : s.writeidx ≤ packetbufsize
  order : s.taken ++ readRange s.buf s.readidx s.writeidx ++ s.em.wsBuffer = s.received

/-- A recv of `nread` bytes is on the stack: they are in `buf` behind `writeidx`, and
above the recv nothing has more to read than one block needs. -/
structure Refilling (s : Reader) (above : List Frame) (nread : ℕ) (crypt : Crypt)
    (below : List Frame) : Prop where
  stack : s.stack = above ++ .receiving nread crypt :: below
  nested : ∀ f ∈ above, f = .code false ∨ f = .loop
  frames : Resting below
  jump : s.jump1 = false
  empty : s.em.wsBuffer = []
  front : s.readidx = 0
  block : s.writeidx < s.crypt.blocksize
  fits : s.writeidx + nread ≤ packetbufsize
  order : s.taken ++ readRange s.buf 0 (s.writeidx + nread) = s.received

def OrderInv (s : Reader) : Prop :=
  Settled s ∨ ∃ above nread crypt below, Refilling s above nread crypt below

theorem Resting.cons {f : Frame} {frames : List Frame} (h : Resting frames)
    (hf : f.isReading = false) : Resting (f :: frames) := by
  intro g hg
  rcases List.mem_cons.mp hg with rfl | hmem
  · exact hf
  · exact h g hmem

theorem Resting.tail {f : Frame} {frames : List Frame} (h : Resting (f :: frames)) :
    Resting frames := fun g hg => h g (List.mem_cons_of_mem f hg)

theorem StackOk.tail {jump1 : Bool} {f : Frame} {rest : List Frame}
    (h : StackOk jump1 (f :: rest)) : Resting rest := by
  rcases h with h | ⟨g, rest', heq, -, hrest, -⟩
  · exact h.tail
  · rw [(List.cons.inj heq).2]
    exact hrest

/-- An activation inside the loop was entered from the top. -/
theorem StackOk.jump {jump1 : Bool} {f : Frame} {rest : List Frame}
    (h : StackOk jump1 (f :: rest)) (hf : f.isReading = true) : jump1 = false := by
  rcases h with h | ⟨g, rest', -, -, -, hjump⟩
  · have hnot := h f List.mem_cons_self
    rw [hf] at hnot
    contradiction
  · exact hjump

/-- What rests on top of the stack leaves all of it at rest. -/
theorem StackOk.resting {jump1 : Bool} {f : Frame} {rest : List Frame}
    (h : StackOk jump1 (f :: rest)) (hf : f.isReading = false) : Resting (f :: rest) :=
  h.tail.cons hf

theorem dataAmounts_le (crypt : Crypt) (macLen : ℕ) (totalNum dataNum : ℤ) (n : ℕ) :
    (dataAmounts crypt macLen totalNum dataNum n).1.toNat +
      (dataAmounts crypt macLen totalNum dataNum n).2.toNat ≤ n := by
  unfold dataAmounts
  dsimp only
  set numbytes := min (n : ℤ) (totalNum - dataNum)
  split
  · split
    · omega
    · split
      · -- a negative amount is rounded towards zero, where it stops
        have habs := Int.natAbs_tmod numbytes crypt.blocksize
        have hle := Nat.mod_le numbytes.natAbs (crypt.blocksize : ℤ).natAbs
        have hsign := Int.tmod_nonneg (a := numbytes) crypt.blocksize
        omega
      · omega
  · omega

/-- Taking bytes that are in the buffer keeps the order. -/
theorem takeBytes_settled {s : Reader} (n : ℕ) (h : Settled s) (hn : s.readidx + n ≤ s.writeidx) :
    Settled (takeBytes s n) := by
  refine ⟨h.frames, hn, h.fits, ?_⟩
  have hsplit := readRange_append s.buf (show s.readidx ≤ s.readidx + n by omega) hn
  simp only [takeBytes, ← h.order, ← hsplit, List.append_assoc]

/-- Settled does not depend on the packet's counters and on what else is on the stack. -/
theorem Settled.update {s s' : Reader} (h : Settled s)
    (hframes : StackOk s'.jump1 s'.stack) (hread : s'.readidx = s.readidx)
    (hwrite : s'.writeidx = s.writeidx) (hbuf : s'.buf = s.buf) (htaken : s'.taken = s.taken)
    (hws : s'.em.wsBuffer = s.em.wsBuffer) (hreceived : s'.received = s.received) :
    Settled s' := by
  refine ⟨hframes, ?_, ?_, ?_⟩
  · rw [hread, hwrite]
    exact h.indices
  · rw [hwrite]
    exact h.fits
  · rw [htaken, hbuf, hread, hwrite, hws, hreceived]
    exact h.order

theorem takeData_settled {s : Reader} (crypt : Crypt) (numbytes : ℕ) (rest : List Frame)
    (h : Settled s) (hn : s.readidx + numbytes ≤ s.writeidx) (hrest : Resting rest)
    (hjump : s.jump1 = false) : Settled (takeData s crypt numbytes rest) := by
  have hle := dataAmounts_le crypt s.crypt.macLen s.totalNum s.dataNum numbytes
  unfold takeData
  generalize dataAmounts crypt s.crypt.macLen s.totalNum s.dataNum numbytes = amounts at hle
  obtain ⟨numdecrypt, numcopy⟩ := amounts
  dsimp only at hle ⊢
  refine (takeBytes_settled (numdecrypt.toNat + numcopy.toNat) h (by omega)).update
    ?_ rfl rfl rfl rfl rfl rfl
  dsimp only
  split
  · exact Or.inl (hrest.cons rfl)
  · exact Or.inr ⟨.loop, rest, rfl, Or.inl rfl, hrest, hjump⟩

theorem takePacket_settled {s : Reader} (crypt : Crypt) (finds : Finds) (rest : List Frame)
    (h : Settled s) (hrest : Resting rest) (hjump : s.jump1 = false) :
    Settled (takePacket s crypt finds rest) := by
  have hindices := h.indices
  have hnum : ((s.writeidx : ℤ) - s.readidx) = ((s.writeidx - s.readidx : ℕ) : ℤ) := by omega
  unfold takePacket
  dsimp only
  rw [hnum]
  split
  · split
    · exact h.update (Or.inl hrest) rfl rfl rfl rfl rfl rfl
    · rename_i hblock
      have hhead := takeBytes_settled crypt.blocksize h (by omega)
      split
      · exact hhead.update (Or.inl hrest) rfl rfl rfl rfl rfl rfl
      · have hleft : (((s.writeidx - s.readidx : ℕ) : ℤ) - crypt.blocksize) =
            ((s.writeidx - s.readidx - crypt.blocksize : ℕ) : ℤ) := by omega
        rw [hleft]
        apply takeData_settled crypt _ rest
        · exact hhead.update hhead.frames rfl rfl rfl rfl rfl rfl
        · simp only [takeBytes]
          omega
        · exact hrest
        · exact hjump
  · exact takeData_settled crypt _ rest h (by omega) hrest hjump

/-- A refill of a settled buffer whose rest is already at the front. -/
theorem refill_inv {s : Reader} {rest : List Frame} (h : Settled s) (hfront : s.readidx = 0)
    (hrest : Resting rest) (hjump : s.jump1 = false) (hblock : s.writeidx < s.crypt.blocksize)
    (hempties : s.installed = true → s.em.serversocket ≠ some .closed →
      s.em.wsBuffer.length ≤ packetbufsize - s.writeidx) :
    OrderInv (refill s s.writeidx rest) := by
  have hfits := h.fits
  unfold refill
  split
  · exact Or.inl (h.update (Or.inl hrest) rfl rfl rfl rfl rfl rfl)
  · rename_i nread data em hrecv
    have hcases := jssRecv_cases hrecv
    split
    · rename_i hnone
      exact Or.inl (h.update (Or.inl hrest) rfl rfl rfl rfl (hcases.1 hnone) rfl)
    · rename_i hsome
      obtain ⟨hdata, hws⟩ := hcases.2 (by omega)
      have hlen : s.writeidx + data.length ≤ packetbufsize := by
        rw [hdata, List.length_take]
        omega
      have hwhole : data ++ em.wsBuffer = s.em.wsBuffer := by
        rw [hdata, hws, List.take_append_drop]
      have horder : s.taken ++ readRange (store s.buf s.writeidx data) 0 (s.writeidx + data.length) ++
          em.wsBuffer = s.received := by
        rw [← readRange_append _ (Nat.zero_le s.writeidx) (Nat.le_add_right s.writeidx data.length),
          readRange_store, readRange_store_before _ _ (Nat.le_refl s.writeidx), ← h.order, hfront,
          ← hwhole]
        simp only [List.append_assoc]
      by_cases hinstalled : s.installed = true
      · rw [if_pos hinstalled]
        have hempty : em.wsBuffer = [] := by
          rw [hws]
          exact List.drop_eq_nil_of_le
            (hempties hinstalled (jssRecv_notClosed hrecv (by omega)))
        right
        refine ⟨[.code false], data.length, s.crypt, rest, rfl, ?_, hrest, hjump, hempty, hfront,
          hblock, hlen, ?_⟩
        · intro f hf
          exact Or.inl (List.mem_singleton.mp hf)
        · rw [hempty, List.append_nil] at horder
          exact horder
      · rw [if_neg hinstalled]
        left
        refine ⟨?_, ?_, hlen, ?_⟩
        · exact Or.inr ⟨_, rest, rfl, Or.inr ⟨s.crypt, rfl⟩, hrest, hjump⟩
        · dsimp only
          omega
        · dsimp only
          rw [hfront]
          exact horder

theorem loopTop_settled {s : Reader} {rest : List Frame} (h : Settled s)
    (hrest : Resting rest) (hjump : s.jump1 = false)
    (hempties : s.installed = true → s.em.serversocket ≠ some .closed →
      s.writeidx - s.readidx < s.crypt.blocksize →
        s.em.wsBuffer.length ≤ packetbufsize - (s.writeidx - s.readidx)) :
    OrderInv (loopTop s rest) := by
  have hindices := h.indices
  have hfits := h.fits
  unfold loopTop
  rw [if_neg (by omega)]
  dsimp only
  split
  · rename_i hblock
    have hfront : Settled { s with
        buf := moveToFront s.buf s.readidx (s.writeidx - s.readidx)
        readidx := 0
        writeidx := s.writeidx - s.readidx } := by
      refine ⟨h.frames, Nat.zero_le _, ?_, ?_⟩
      · dsimp only
        omega
      · dsimp only
        rw [readRange_moveToFront, show s.readidx + (s.writeidx - s.readidx) = s.writeidx by omega]
        exact h.order
    exact refill_inv hfront rfl hrest hjump hblock
      (fun hinstalled hopen => hempties hinstalled hopen hblock)
  · refine Or.inl (h.update ?_ rfl rfl rfl rfl rfl rfl)
    exact Or.inr ⟨_, rest, rfl, Or.inr ⟨s.crypt, rfl⟩, hrest, hjump⟩

/-- Above a recv that emptied `ws_buffer`, another pass of the loop finds nothing. -/
theorem loopTop_refilling {s : Reader} {above : List Frame} {nread : ℕ} {crypt : Crypt}
    {below : List Frame} (h : Refilling s (.loop :: above) nread crypt below) :
    OrderInv (loopTop s (above ++ .receiving nread crypt :: below)) := by
  have hblock := h.block
  have hmove : moveToFront s.buf 0 s.writeidx = s.buf := by
    funext k
    simp [moveToFront]
  have hnested : ∀ f ∈ above, f = .code false ∨ f = .loop := fun f hf =>
    h.nested f (List.mem_cons_of_mem _ hf)
  unfold loopTop
  rw [h.front, if_neg (Nat.not_lt_zero _)]
  simp only [Nat.sub_zero, hblock, if_true, hmove]
  unfold refill
  split
  · exact Or.inr ⟨above, nread, crypt, below, rfl, hnested, h.frames, h.jump, h.empty, rfl,
      hblock, h.fits, h.order⟩
  · rename_i ret data em hrecv
    have hnone := jssRecv_empty h.empty hrecv
    have hcases := jssRecv_cases hrecv
    rw [if_pos hnone]
    refine Or.inr ⟨above, nread, crypt, below, rfl, hnested, h.frames, h.jump, ?_, rfl,
      hblock, h.fits, h.order⟩
    dsimp only
    rw [hcases.1 hnone]
    exact h.empty

theorem receiving_settled {s : Reader} {nread : ℕ} {crypt : Crypt} {below : List Frame}
    (h : Refilling s [] nread crypt below) :
    Settled { s with writeidx := s.writeidx + nread, stack := .taking crypt :: below } := by
  refine ⟨?_, ?_, h.fits, ?_⟩
  · exact Or.inr ⟨_, below, rfl, Or.inr ⟨crypt, rfl⟩, h.frames, h.jump⟩
  · dsimp only
    rw [h.front]
    omega
  · dsimp only
    rw [h.front, h.empty, List.append_nil]
    exact h.order

/-- A step of settled code. -/
theorem readerStep_settled {s : Reader} {move : Move} (h : Settled s)
    (hok : RefillEmpties s move) : OrderInv (readerStep s move) := by
  have hframes := h.frames
  cases move with
  | message array =>
    cases hstack : s.stack with
    | nil =>
      simp only [readerStep, hstack]
      refine Or.inl ⟨?_, h.indices, h.fits, ?_⟩
      · left
        intro f hf
        dsimp only at hf
        split at hf
        · rw [List.mem_singleton.mp hf]
          rfl
        · simp at hf
      · simp only [onmessage, ← h.order, List.append_assoc]
    | cons f rest =>
      simp only [readerStep, hstack]
      exact Or.inl h
  | socketClosed =>
    cases hstack : s.stack with
    | nil =>
      rw [hstack] at hframes
      simp only [readerStep, hstack]
      exact Or.inl (h.update hframes rfl rfl rfl rfl rfl rfl)
    | cons f rest =>
      simp only [readerStep, hstack]
      exact Or.inl h
  | turn =>
    cases hstack : s.stack with
    | nil =>
      simp only [readerStep, hstack]
      refine Or.inl (h.update ?_ rfl rfl rfl rfl rfl rfl)
      left
      intro f hf
      rw [List.mem_singleton.mp hf]
      rfl
    | cons f rest =>
      simp only [readerStep, hstack]
      exact Or.inl h
  | install =>
    simp only [readerStep]
    split
    · exact Or.inl (h.update hframes rfl rfl rfl rfl rfl rfl)
    · exact Or.inl h
  | rekey crypt =>
    simp only [readerStep]
    split
    · exact Or.inl (h.update hframes rfl rfl rfl rfl rfl rfl)
    · exact Or.inl (h.update hframes rfl rfl rfl rfl rfl rfl)
    · exact Or.inl h
  | read =>
    have hpush : Resting s.stack → OrderInv (enter s) := by
      intro hrest
      unfold enter
      split
      · exact Or.inl (h.update (Or.inl (hrest.cons rfl)) rfl rfl rfl rfl rfl rfl)
      · rename_i hjump
        refine Or.inl (h.update ?_ rfl rfl rfl rfl rfl rfl)
        exact Or.inr ⟨.loop, s.stack, rfl, Or.inl rfl, hrest, Bool.eq_false_iff.mpr hjump⟩
    simp only [readerStep]
    split
    · rename_i hasRead rest hstack
      rw [hstack] at hframes hpush
      exact hpush (hframes.resting rfl)
    · rename_i rest hstack
      rw [hstack] at hframes hpush
      exact hpush (hframes.resting rfl)
    · exact Or.inl h
  | ret =>
    simp only [readerStep]
    split
    · rename_i hasRead rest hstack
      rw [hstack] at hframes
      exact Or.inl (h.update (Or.inl hframes.tail) rfl rfl rfl rfl rfl rfl)
    · exact Or.inl h
  | resume finds =>
    cases hstack : s.stack with
    | nil =>
      simp only [readerStep, hstack]
      exact Or.inl h
    | cons f rest =>
      rw [hstack] at hframes
      have hrest := hframes.tail
      simp only [readerStep, hstack]
      cases f with
      | code hasRead => exact Or.inl h
      | loop => exact loopTop_settled h hrest (hframes.jump rfl) (hok (by rw [hstack]; rfl))
      | receiving nread crypt =>
        rcases hframes with hall | ⟨g, rest', heq, hg, -, -⟩
        · have hnot := hall (.receiving nread crypt) List.mem_cons_self
          simp [Frame.isReading] at hnot
        · rw [← (List.cons.inj heq).1] at hg
          simp at hg
      | taking crypt => exact Or.inl (takePacket_settled crypt finds rest h hrest (hframes.jump rfl))
      | dispatch =>
        refine Or.inl (h.update (Or.inl ?_) rfl rfl rfl rfl rfl rfl)
        unfold endDispatch packetGiven
        dsimp only
        split
        · exact hrest.tail.cons rfl
        · exact hrest

/-- A step above a recv that emptied `ws_buffer`. -/
theorem readerStep_refilling {s : Reader} {above : List Frame} {nread : ℕ} {crypt : Crypt}
    {below : List Frame} (h : Refilling s above nread crypt below) (move : Move) :
    OrderInv (readerStep s move) := by
  have hkeep : OrderInv s := Or.inr ⟨above, nread, crypt, below, h⟩
  have hstack := h.stack
  cases above with
  | nil =>
    rw [List.nil_append] at hstack
    cases move with
    | resume finds =>
      simp only [readerStep, hstack]
      exact Or.inl (receiving_settled h)
    | _ =>
      simp only [readerStep, hstack]
      exact hkeep
  | cons f above =>
    rw [List.cons_append] at hstack
    have hnested : ∀ g ∈ above, g = .code false ∨ g = .loop := fun g hg =>
      h.nested g (List.mem_cons_of_mem f hg)
    rcases h.nested f List.mem_cons_self with rfl | rfl
    · cases move with
      | install =>
        simp only [readerStep, hstack]
        exact Or.inr ⟨.code false :: above, nread, crypt, below, rfl, h.nested, h.frames, h.jump,
          h.empty, h.front, h.block, h.fits, h.order⟩
      | read =>
        simp only [readerStep, enter, hstack, h.jump, Bool.false_eq_true, if_false]
        refine Or.inr ⟨.loop :: .code false :: above, nread, crypt, below, rfl, ?_, h.frames, rfl,
          h.empty, h.front, h.block, h.fits, h.order⟩
        intro g hg
        rcases List.mem_cons.mp hg with rfl | hmem
        · exact Or.inr rfl
        · exact h.nested g hmem
      | ret =>
        simp only [readerStep, hstack]
        exact Or.inr ⟨above, nread, crypt, below, rfl, hnested, h.frames, h.jump, h.empty, h.front,
          h.block, h.fits, h.order⟩
      | _ =>
        simp only [readerStep, hstack]
        exact hkeep
    · cases move with
      | resume finds =>
        simp only [readerStep, hstack]
        exact loopTop_refilling h
      | _ =>
        simp only [readerStep, hstack]
        exact hkeep

theorem readerStep_order {s : Reader} {move : Move} (h : OrderInv s)
    (hok : RefillEmpties s move) : OrderInv (readerStep s move) := by
  rcases h with h | ⟨above, nread, crypt, below, h⟩
  · exact readerStep_settled h hok
  · exact readerStep_refilling h move

theorem OrderInv.taken {s : Reader} (h : OrderInv s) : s.taken <+: s.received := by
  rcases h with h | ⟨above, nread, crypt, below, h⟩
  · rw [← h.order, List.append_assoc]
    exact List.prefix_append _ _
  · rw [← h.order]
    exact List.prefix_append _ _

/-- When every refill under the page's reader empties `ws_buffer`, what transport_read has
taken is at every moment a prefix of what the WebSocket has delivered. -/
theorem taken_in_order (em : Emsocket) (buf : ℕ → UInt8) (crypt : Crypt) {moves pre : List Move}
    (hall : AllSteps readerStep RefillEmpties (Reader.initial em buf crypt) moves)
    (hpre : pre <+: moves) :
    (run readerStep (Reader.initial em buf crypt) pre).taken <+:
      (run readerStep (Reader.initial em buf crypt) pre).received := by
  have hstart : OrderInv (Reader.initial em buf crypt) := by
    refine Or.inl ⟨Or.inl ?_, Nat.le_refl 0, Nat.zero_le _, ?_⟩
    · simp [Resting, Reader.initial]
    · simp [Reader.initial, readRange_self]
  have hinv : OrderInv (run readerStep (Reader.initial em buf crypt) pre) :=
    invariant_along readerStep (fun s move => readerStep_order) hstart hall hpre
  exact hinv.taken

def readingPage (wsBuffer : List UInt8) : Emsocket :=
  { serversocket := some .opened, wsBuffer := wsBuffer, jssReady := true, jssClosed := false,
    serverAddress := [], sent := [] }

def plain : Crypt := ⟨5, false, 0⟩

/-- A packet of length 2 without padding. -/
def twoBytes : Finds := ⟨2, false, false, false⟩

/-- The packet arrives in two messages. -/
def shortMoves : List Move :=
  [.turn, .install, .ret, .message [0, 0, 0], .read, .resume twoBytes, .ret, .resume twoBytes,
    .resume twoBytes, .ret, .message [2, 0, 20], .read, .resume twoBytes, .ret, .resume twoBytes,
    .resume twoBytes]

theorem taken_in_order_short :
    (run readerStep (Reader.initial (readingPage []) (fun _ => 0) plain) shortMoves).taken <+:
      (run readerStep (Reader.initial (readingPage []) (fun _ => 0) plain) shortMoves).received := by
  refine taken_in_order (readingPage []) (fun _ => 0) plain ?_ (List.prefix_refl shortMoves)
  have hroom : ∀ s : Reader, s.em.wsBuffer.length ≤ 3 → s.writeidx ≤ 6 → ∀ move,
      RefillEmpties s move := by
    intro s hws hwrite move
    cases move with
    | resume finds =>
      intro _ _ _ _
      simp only [packetbufsize]
      omega
    | _ => trivial
  have hsmall : AllSteps readerStep (fun s _ => s.em.wsBuffer.length ≤ 3 ∧ s.writeidx ≤ 6)
      (Reader.initial (readingPage []) (fun _ => 0) plain) shortMoves := by
    simp only [shortMoves, allSteps_cons, allSteps_nil]
    decide
  exact allSteps_mono readerStep (fun s move h => hroom s h.1 h.2 move) _ _ hsmall

/-- The length field 16777216. -/
def badPacket : Finds := ⟨16777216, false, false, false⟩

/-- A message that does not fit is read by two activations, the inner one over the outer. -/
def overtakingMoves (array : List UInt8) : List Move :=
  [.turn, .install, .ret, .message array, .read, .resume badPacket, .read, .resume badPacket,
    .read, .resume badPacket, .ret, .resume badPacket, .resume badPacket, .ret, .resume badPacket,
    .resume badPacket]

theorem jssRecv_readingPage (data rest : List UInt8) (length : ℕ) (hpos : 0 < data.length)
    (hmin : min length (data ++ rest).length = data.length) :
    jssRecv (readingPage (data ++ rest)) length =
      some ((data.length : ℤ), data, readingPage rest) := by
  have hsome : (data ++ rest).length ≠ 0 := by
    rw [List.length_append]
    omega
  simp only [jssRecv, readingPage, Option.map_some, hsome, if_false, hmin, List.take_left,
    List.drop_left]
  rfl

theorem overtakingMoves_taken (first : List UInt8) (last : UInt8)
    (hfirst : first.length = packetbufsize) :
    let s := run readerStep (Reader.initial (readingPage []) (fun _ => 0) plain)
      (overtakingMoves (first ++ [last]))
    s.taken = readRange (store (store (fun _ => 0) 0 first) 0 [last]) 0 5 ∧
      s.received = first ++ [last] := by
  have houter : jssRecv (readingPage (first ++ [last])) packetbufsize =
      some ((first.length : ℤ), first, readingPage [last]) := by
    apply jssRecv_readingPage first [last] packetbufsize
    · rw [hfirst]
      decide
    · rw [List.length_append]
      omega
  have hinner : jssRecv (readingPage [last]) packetbufsize =
      some (1, [last], readingPage []) := jssRecv_readingPage [last] [] packetbufsize
        (by simp) (by simp [packetbufsize])
  have hnone : jssRecv (readingPage []) packetbufsize = some (eagain, [], readingPage []) := rfl
  have hmessage : onmessage (readingPage []) (first ++ [last]) = readingPage (first ++ [last]) := rfl
  have hmove : ∀ buf : ℕ → UInt8, moveToFront buf 0 0 = buf := fun buf => rfl
  have hne : first ≠ [] := List.ne_nil_of_length_pos (by rw [hfirst]; decide)
  have hblock : ¬ (1 + (first.length : ℤ) < 5) := by
    rw [hfirst]
    decide
  have hws : (readingPage []).wsBuffer = [] := rfl
  simp [overtakingMoves, readerStep, Reader.initial, enter, loopTop, refill, houter, hinner, hnone,
    hmessage, hne, plain, hmove, takePacket, badPacket, eagain, totalLength, packetMaxpayload,
    takeBytes, hblock, hws]

/-- The sixteen thousand bytes read first lose their first byte to the last one read. -/
theorem taken_out_of_order :
    ¬ ∀ (em : Emsocket) (buf : ℕ → UInt8) (crypt : Crypt) (moves : List Move),
      (run readerStep (Reader.initial em buf crypt) moves).taken <+:
        (run readerStep (Reader.initial em buf crypt) moves).received := by
  intro hall
  have hprefix := hall (readingPage []) (fun _ => 0) plain
    (overtakingMoves (List.replicate packetbufsize 0 ++ [1]))
  obtain ⟨htaken, hreceived⟩ := overtakingMoves_taken (List.replicate packetbufsize 0) 1
    List.length_replicate
  rw [htaken, hreceived] at hprefix
  have hhead : ∀ mem : ℕ → UInt8, (readRange (store mem 0 [1]) 0 5)[0]? = some 1 := fun mem => rfl
  have hzero : ∀ n : ℕ, 0 < n → (List.replicate n 0 ++ [(1 : UInt8)])[0]? = some 0 := by
    intro n hn
    cases n with
    | zero => contradiction
    | succ n => rfl
  obtain ⟨rest, hrest⟩ := hprefix
  have hfirst := congrArg (fun l => l[0]?) hrest
  rw [List.getElem?_append_left (by simp [readRange]), hhead,
    hzero packetbufsize (by decide)] at hfirst
  exact absurd hfirst (by decide)

end Jterm.Ssh
